import TableAccess.Sql.Fragment

/-!
# Filling question marks

A store reads the text of a statement from left to right and takes one bound value for
every question mark that is not part of a quoted name. Here that reading is written down for
arbitrary text, and the text of fragments is shown to be read as it was meant: every slot
receives the value that the fragments bind there, whatever the names contain, as long as the
fixed text has neither quotes nor question marks of its own.
-/

namespace TableAccess.Sql

variable {α β : Type}

/-- Text in which values stand in the places of question marks. -/
abbrev Filled (α : Type) := List (Char ⊕ α)

namespace Filled

def text (s : String) : Filled α := s.toList.map .inl

def name (s : String) : Filled α := (quoted s).map .inl

def column (table field : String) : Filled α := (qualified table field).map .inl

/-- Parts with a separator between them. -/
def joined (separator : String) (parts : List (Filled α)) : Filled α :=
  List.intercalate (text separator) parts

end Filled

/-- The number of question marks outside quoted names. Every quote enters a name or leaves one;
the two quotes that stand for one inside a name leave it and enter it again. -/
def marks (inside : Bool) : List Char → Nat
  | [] => 0
  | c :: rest =>
      if c = '"' then marks (!inside) rest
      else if c = '?' ∧ inside = false then marks inside rest + 1
      else marks inside rest

/-- Puts values in the places of the question marks outside quoted names, from left to right.
There must be as many values as question marks. -/
def fill? (inside : Bool) : List Char → List α → Option (Filled α)
  | [], [] => some []
  | [], _ :: _ => none
  | c :: rest, values =>
      if c = '"' then (fill? (!inside) rest values).map (.inl c :: ·)
      else if c = '?' ∧ inside = false then
        match values with
        | [] => none
        | value :: later => (fill? inside rest later).map (.inr value :: ·)
      else (fill? inside rest values).map (.inl c :: ·)

/-- Values that fill a text are as many as its question marks. -/
theorem marks_of_fill? {inside : Bool} {text : List Char} {values : List α} {filled : Filled α}
    (fills : fill? inside text values = some filled) : marks inside text = values.length := by
  induction text generalizing inside values filled with
  | nil =>
      cases values with
      | nil => rfl
      | cons value later => cases fills
  | cons c rest ih =>
      unfold fill? at fills
      rw [marks]
      split at fills
      · rename_i quote
        rw [if_pos quote]
        obtain ⟨_, inner, _⟩ := Option.map_eq_some_iff.mp fills
        exact ih inner
      · rename_i other
        rw [if_neg other]
        split at fills
        · rename_i mark
          rw [if_pos mark]
          cases values with
          | nil => cases fills
          | cons value later =>
              obtain ⟨_, inner, _⟩ := Option.map_eq_some_iff.mp fills
              rw [ih inner, List.length_cons]
        · rename_i plain
          rw [if_neg plain]
          obtain ⟨_, inner, _⟩ := Option.map_eq_some_iff.mp fills
          exact ih inner

/-- The inside of a quoted name is passed over, up to the quote that closes it. -/
theorem fill?_doubleQuotes (inner rest : List Char) (values : List α) :
    fill? true (doubleQuotes inner ++ '"' :: rest) values =
      (fill? false rest values).map ((doubleQuotes inner ++ ['"']).map .inl ++ ·) := by
  induction inner with
  | nil => simp [doubleQuotes, fill?]
  | cons c tail ih =>
      by_cases quote : c = '"'
      · simp [doubleQuotes, quote, fill?, ih, Function.comp_def]
      · simp [doubleQuotes, quote, fill?, ih, Function.comp_def]

/-! ## Reading the pieces of a statement -/

/-- Reading a piece of text from outside of names takes exactly the given values, gives the
filled piece and ends outside of names, whatever comes next. -/
def Reads (piece : List Char) (values : List α) (filled : Filled α) : Prop :=
  ∀ (rest : List Char) (later : List α),
    fill? false (piece ++ rest) (values ++ later) = (fill? false rest later).map (filled ++ ·)

namespace Reads

theorem nil : Reads [] ([] : List α) [] := by
  intro rest later
  simp

theorem append {first second : List Char} {values later : List α} {filled next : Filled α}
    (one : Reads first values filled) (two : Reads second later next) :
    Reads (first ++ second) (values ++ later) (filled ++ next) := by
  intro rest others
  rw [List.append_assoc, List.append_assoc, one, two, Option.map_map]
  congr 1
  funext tail
  simp

/-- A piece that is the whole text is filled without a remainder. -/
theorem fills {piece : List Char} {values : List α} {filled : Filled α}
    (reads : Reads piece values filled) : fill? false piece values = some filled := by
  have whole := reads [] []
  simpa [fill?] using whole

theorem slot (value : α) : Reads ['?'] [value] [.inr value] := by
  intro rest later
  simp [fill?]

/-- Text without quotes and question marks is passed over. -/
theorem plain {piece : List Char} (noQuote : '"' ∉ piece) (noMark : '?' ∉ piece) :
    Reads piece ([] : List α) (piece.map .inl) := by
  induction piece with
  | nil => exact nil
  | cons c rest ih =>
      have here : Reads [c] ([] : List α) [.inl c] := by
        intro after later
        have notQuote : c ≠ '"' := fun same => noQuote (same ▸ List.mem_cons_self)
        have notMark : c ≠ '?' := fun same => noMark (same ▸ List.mem_cons_self)
        simp [fill?, notQuote, notMark]
      exact here.append
        (ih (fun found => noQuote (List.mem_cons_of_mem _ found))
          (fun found => noMark (List.mem_cons_of_mem _ found)))

/-- A quoted name takes no value, even if it contains question marks or quotes. -/
theorem name (s : String) : Reads (quoted s) ([] : List α) (Filled.name s) := by
  intro rest later
  simp [quoted, Filled.name, fill?, fill?_doubleQuotes, Function.comp_def]

theorem column (table field : String) :
    Reads (qualified table field) ([] : List α) (Filled.column table field) := by
  have dot : Reads ['.'] ([] : List α) [.inl '.'] := plain (by decide) (by decide)
  have whole := (name (α := α) table).append (dot.append (name field))
  simpa [qualified, Filled.column, Filled.name] using whole

end Reads

/-- A statement's text and its values go together: there is one value for each question mark
outside quoted names, and putting the values there from left to right gives the filled text. -/
structure Binds (sql : String) (params : List α) (filled : Filled α) : Prop where
  count : marks false sql.toList = params.length
  places : fill? false sql.toList params = some filled

/-! ## Fragments -/

/-- Fragments bind the given values, and reading their text puts each value where its slot
stands. The content of a slot tells its value. -/
structure Writes (value : α → β) (fragments : List (Fragment α)) (values : List β)
    (filled : Filled β) : Prop where
  bound : (Fragment.bounds fragments).map value = values
  reads : Reads (fragments.flatMap Fragment.text) values filled

namespace Writes

variable {value : α → β}

theorem nil : Writes value [] [] [] :=
  ⟨rfl, Reads.nil⟩

theorem append {first second : List (Fragment α)} {values later : List β} {filled next : Filled β}
    (one : Writes value first values filled) (two : Writes value second later next) :
    Writes value (first ++ second) (values ++ later) (filled ++ next) where
  bound := by
    rw [← one.bound, ← two.bound, Fragment.bounds, List.filterMap_append, List.map_append]
    rfl
  reads := by
    rw [List.flatMap_append]
    exact one.reads.append two.reads

/-- Fixed text binds nothing and is read as it is. -/
theorem verbatim (s : String) (plain : '"' ∉ s.toList ∧ '?' ∉ s.toList := by decide) :
    Writes value [.verbatim s] [] (.text s) where
  bound := rfl
  reads := by simpa [Fragment.text] using! Reads.plain plain.1 plain.2

theorem name (s : String) : Writes value [.name s] [] (.name s) where
  bound := rfl
  reads := by simpa [Fragment.text] using Reads.name s

theorem column (table field : String) :
    Writes value [.column table field] [] (.column table field) where
  bound := rfl
  reads := by simpa [Fragment.text] using Reads.column table field

theorem slot (content : α) :
    Writes value [.slot content] [value content] [.inr (value content)] where
  bound := rfl
  reads := by simpa [Fragment.text] using Reads.slot (value content)

/-- A separated list binds what its parts bind, one after the other. -/
theorem separated {ι : Type} {separator : String} {fragments : ι → List (Fragment α)}
    {values : ι → List β} {filled : ι → Filled β} {parts : List ι}
    (between : Writes value [.verbatim separator] [] (.text separator))
    (each : ∀ part ∈ parts, Writes value (fragments part) (values part) (filled part)) :
    Writes value (Fragment.separated separator (parts.map fragments)) (parts.flatMap values)
      (Filled.joined separator (parts.map filled)) := by
  induction parts with
  | nil => exact nil
  | cons first rest ih =>
      obtain ⟨here, later⟩ := List.forall_mem_cons.mp each
      cases rest with
      | nil => simpa [Fragment.separated, Filled.joined] using here
      | cons next others =>
          have whole := here.append (between.append (ih later))
          simpa [Fragment.separated, Filled.joined, List.intercalate_cons_cons] using whole

/-- A list of names binds nothing. -/
theorem names {separator : String}
    (between : Writes value [.verbatim separator] [] (.text separator)) (list : List String) :
    Writes value (Fragment.separated separator (list.map fun s => [.name s])) []
      (.joined separator (list.map Filled.name)) := by
  have nothing : [] = list.flatMap fun _ => ([] : List β) :=
    (List.flatMap_eq_nil_iff.mpr fun _ _ => rfl).symm
  rw [nothing]
  exact separated between fun s _ => name s

/-- A list of slots binds their values in order. -/
theorem slots {separator : String}
    (between : Writes value [.verbatim separator] [] (.text separator)) (contents : List α) :
    Writes value (Fragment.separated separator (contents.map fun content => [.slot content]))
      (contents.map value)
      (.joined separator (contents.map fun content => [.inr (value content)])) := by
  rw [← List.flatMap_singleton' (contents.map value), List.flatMap_map]
  exact separated between fun content _ => slot content

/-- The statement that fragments make up goes together with the values that they bind. -/
theorem binds {fragments : List (Fragment α)} {values : List β} {filled : Filled β}
    (writes : Writes value fragments values filled) :
    Binds (Fragment.render fragments) values filled := by
  have fills := writes.reads.fills
  rw [← String.toList_ofList (l := fragments.flatMap Fragment.text)] at fills
  exact ⟨marks_of_fill? fills, fills⟩

end Writes

/-! ## Clauses without values -/

namespace Fragment

/-- Fragments that bind nothing and whose fixed text has neither quotes nor question marks. -/
def Quiet : Fragment α → Prop
  | verbatim s => '"' ∉ s.toList ∧ '?' ∉ s.toList
  | slot _ => False
  | _ => True

/-- A number behind quiet text is quiet. -/
theorem quiet_number {before : String} (plain : (verbatim before : Fragment α).Quiet) (n : Nat) :
    (verbatim (before ++ toString n) : Fragment α).Quiet := by
  have digit {c : Char} (found : c ∈ (toString n).toList) : c.isDigit := by
    rw [Nat.toString_eq_ofList_toDigits, String.toList_ofList] at found
    exact Nat.isDigit_of_mem_toDigits (by decide) (by decide) found
  constructor
  · rw [String.toList_append, List.mem_append]
    rintro (found | found)
    · exact plain.1 found
    · exact absurd (digit found) (by decide)
  · rw [String.toList_append, List.mem_append]
    rintro (found | found)
    · exact plain.2 found
    · exact absurd (digit found) (by decide)

theorem quiet_separated {separator : String} {parts : List (List (Fragment α))}
    (between : (verbatim separator : Fragment α).Quiet)
    (each : ∀ part ∈ parts, ∀ fragment ∈ part, fragment.Quiet) :
    ∀ fragment ∈ separated separator parts, fragment.Quiet := by
  induction parts with
  | nil => exact fun _ found => nomatch found
  | cons first rest ih =>
      obtain ⟨here, later⟩ := List.forall_mem_cons.mp each
      cases rest with
      | nil => exact here
      | cons next others =>
          rw [separated, List.forall_mem_append, List.forall_mem_cons]
          exact ⟨here, between, ih later⟩

end Fragment

/-- A clause without slots is read as its own text. -/
theorem Writes.quiet {value : α → β} {clause : List (Fragment α)}
    (quiet : ∀ fragment ∈ clause, fragment.Quiet) :
    Writes value clause [] ((clause.flatMap Fragment.text).map .inl) := by
  induction clause with
  | nil => exact nil
  | cons head rest ih =>
      obtain ⟨here, later⟩ := List.forall_mem_cons.mp quiet
      have first : Writes value [head] [] (head.text.map .inl) := by
        cases head with
        | verbatim s => exact verbatim s here
        | name s => exact name s
        | column table field => exact column table field
        | slot content => exact here.elim
      simpa using first.append (ih later)

end TableAccess.Sql

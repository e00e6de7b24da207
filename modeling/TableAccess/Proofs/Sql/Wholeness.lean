import TableAccess.Proofs.Sql.Scanning
import TableAccess.Store.Legible

/-!
# Where statements break off

A statement ends at its first NUL. Words hold none, so what is put together from words and quoted
names breaks off in a name, the first one that holds a NUL, or nowhere. The piece that is left open
is what was written of this name, whatever stands around it.
-/

namespace TableAccess.Sql

/-- What is read of a text, up to its first NUL. -/
def legible (text : List Char) : List Char := text.takeWhile fun c => c.toNat != 0

/-- What is read of a quoted name that holds a NUL. -/
def brokenName (s : String) : List Char := '"' :: doubleQuotes (legible s.toList)

/-- The first name in fragments that holds a NUL. -/
def Fragment.broken? {α : Type} (fragments : List (Fragment α)) : Option String :=
  (fragments.flatMap Fragment.names).find? hasNul

/-! ## Texts without NULs -/

theorem legible_cons {c : Char} (shown : c.toNat ≠ 0) (rest : List Char) :
    legible (c :: rest) = c :: legible rest :=
  List.takeWhile_cons_of_pos (by simpa using shown)

theorem legible_cons_nul {c : Char} (nul : c.toNat = 0) (rest : List Char) :
    legible (c :: rest) = [] :=
  List.takeWhile_cons_of_neg (by simp [nul])

theorem legible_append {first : List Char} (clean : ∀ c ∈ first, c.toNat ≠ 0) (second : List Char) :
    legible (first ++ second) = first ++ legible second := by
  apply List.takeWhile_append_of_pos
  simpa using clean

theorem legible_append_of_nul {first : List Char} (broken : ∃ c ∈ first, c.toNat = 0)
    (second : List Char) : legible (first ++ second) = legible first := by
  obtain ⟨c, member, nul⟩ := broken
  unfold legible
  rw [List.takeWhile_append, if_neg]
  intro full
  have whole : first.takeWhile (fun c => c.toNat != 0) = first :=
    (List.takeWhile_prefix _).eq_of_length full
  have all := List.all_takeWhile (p := fun c : Char => c.toNat != 0) (l := first)
  rw [whole, List.all_eq_true] at all
  simpa [nul] using all c member

theorem mem_doubleQuotes {c : Char} {text : List Char} :
    c ∈ doubleQuotes text ↔ c ∈ text := by
  induction text with
  | nil => rfl
  | cons head rest ih =>
      rw [doubleQuotes]
      split
      · rename_i quote
        simp [ih, quote]
      · simp [ih]

theorem legible_doubleQuotes (text : List Char) :
    legible (doubleQuotes text) = doubleQuotes (legible text) := by
  induction text with
  | nil => rfl
  | cons c rest ih =>
      rw [doubleQuotes]
      split
      · rename_i quote
        subst quote
        have shown : '"'.toNat ≠ 0 := by decide
        rw [legible_cons shown, legible_cons shown, legible_cons shown, ih, doubleQuotes, if_pos rfl]
      · rename_i other
        by_cases nul : c.toNat = 0
        · rw [legible_cons_nul nul, legible_cons_nul nul, doubleQuotes]
        · rw [legible_cons nul, legible_cons nul, ih, doubleQuotes, if_neg other]

theorem hasNul_iff {s : String} : hasNul s = true ↔ ∃ c ∈ s.toList, c.toNat = 0 := by
  simp [hasNul]

/-- A character that is neither a NUL nor a quote of the other kind. -/
def isClean (c : Char) : Bool := c != '\'' && c.toNat != 0

theorem isClean_iff {c : Char} : isClean c = true ↔ c ≠ '\'' ∧ c.toNat ≠ 0 := by
  simp [isClean]

/-- Words hold neither NULs nor quotes of the other kind. -/
theorem IsWord.clean {s : String} (word : IsWord s) : s.toList.all isClean = true := by
  have number {before : String} (clean : before.toList.all isClean = true) (n : Nat) :
      (before ++ toString n).toList.all isClean = true := by
    rw [String.toList_append, List.all_append, clean, Bool.true_and, List.all_eq_true]
    intro c digit
    rw [Nat.toString_eq_ofList_toDigits, String.toList_ofList] at digit
    have isDigit : c.isDigit = true := Nat.isDigit_of_mem_toDigits (by decide) (by decide) digit
    have least : 48 ≤ c.toNat := by
      simp only [Char.isDigit, Bool.and_eq_true, decide_eq_true_eq] at isDigit
      exact isDigit.1
    apply isClean_iff.mpr
    constructor
    · rintro rfl
      exact absurd least (by decide)
    · omega
  cases word with
  | known found =>
      have all : vocabulary.all (fun known => known.toList.all isClean) = true := by
        decide +kernel
      exact List.all_eq_true.mp all s found
  | limit n => exact number (by decide +kernel) n
  | noLimit => decide +kernel
  | offset n => exact number (by decide +kernel) n

theorem Worded.clean {s : String} (worded : Worded s) :
    ∀ c ∈ s.toList, c ≠ '\'' ∧ c.toNat ≠ 0 := by
  obtain ⟨words, each, same⟩ := worded
  intro c member
  rw [same, List.mem_flatMap] at member
  obtain ⟨word, found, here⟩ := member
  exact isClean_iff.mp (List.all_eq_true.mp (each word found).clean c here)

/-! ## Looking for the open quote -/

/-- A name that is closed counts no more before text that does not go on with it. -/
theorem openQuote?_closed {text : List Char} (apart : Apart text) (n start : Nat) :
    openQuote? n (some ('"', start, false)) text = openQuote? n none text := by
  cases text with
  | nil => rfl
  | cons c rest =>
      rw [openQuote?, openQuote?, if_neg (apart_cons.mp apart), if_neg Bool.false_ne_true]

/-- Text without quotes is passed over. -/
theorem openQuote?_plain {text : List Char} (plain : ∀ c ∈ text, c ≠ '"' ∧ c ≠ '\'')
    (n : Nat) (rest : List Char) :
    openQuote? n none (text ++ rest) = openQuote? (n + text.length) none rest := by
  induction text generalizing n with
  | nil => rfl
  | cons c tail ih =>
      obtain ⟨⟨double, single⟩, later⟩ := List.forall_mem_cons.mp plain
      rw [List.cons_append, openQuote?, if_neg (by simp [double, single]), ih later,
        List.length_cons]
      congr 1
      omega

/-- Inside a name, pairs of quotes leave it open. -/
theorem openQuote?_doubleQuotes (inner : List Char) (n start : Nat) (rest : List Char) :
    openQuote? n (some ('"', start, true)) (doubleQuotes inner ++ rest) =
      openQuote? (n + (doubleQuotes inner).length) (some ('"', start, true)) rest := by
  induction inner generalizing n with
  | nil => rfl
  | cons c tail ih =>
      rw [doubleQuotes]
      split
      · simp only [List.cons_append, openQuote?, ↓reduceIte, Bool.not_true, Bool.not_false, ih,
          List.length_cons]
        congr 1
        omega
      · rename_i other
        simp only [List.cons_append, openQuote?, if_neg other, ↓reduceIte, ih, List.length_cons]
        congr 1
        omega

/-- A quoted name is closed at its end. -/
theorem openQuote?_quoted (name : String) (n : Nat) (rest : List Char) :
    openQuote? n none (quoted name ++ rest) =
      openQuote? (n + (quoted name).length) (some ('"', n, false)) rest := by
  have opening : openQuote? n none (quoted name ++ rest) =
      openQuote? (n + 1) (some ('"', n, true)) (doubleQuotes name.toList ++ '"' :: rest) := by
    rw [quoted, List.cons_append, openQuote?]
    simp
  rw [opening, openQuote?_doubleQuotes, openQuote?]
  simp only [↓reduceIte, Bool.not_true, quoted, List.length_cons, List.length_append,
    List.length_nil]
  congr 1
  omega

/-- A name that breaks off is left open where it began. -/
theorem openQuote?_brokenName (name : String) (n : Nat) :
    openQuote? n none (brokenName name) = some n := by
  have open_ := openQuote?_doubleQuotes (legible name.toList) (n + 1) n []
  rw [List.append_nil] at open_
  rw [brokenName, openQuote?]
  simp [open_, openQuote?]

/-! ## Breaking off -/

/-- A text that begins at a position is left as told: no quote is open at its end, or it breaks off
in a name. -/
def Leaves (n : Nat) (text : List Char) : Option String → Prop
  | none => openQuote? n none (legible text) = none
  | some s => ∃ before, legible text = before ++ brokenName s ∧
      openQuote? n none (legible text) = some (n + before.length)

/-- A piece of text that is passed over does not count. -/
theorem Leaves.after {n : Nat} {piece text : List Char} {broken : Option String}
    (clean : ∀ c ∈ piece, c.toNat ≠ 0)
    (passed : openQuote? n none (piece ++ legible text) =
      openQuote? (n + piece.length) none (legible text))
    (leaves : Leaves (n + piece.length) text broken) : Leaves n (piece ++ text) broken := by
  cases broken with
  | none =>
      rw [Leaves, legible_append clean, passed]
      exact leaves
  | some s =>
      obtain ⟨before, shown, found⟩ := leaves
      refine ⟨piece ++ before, ?_, ?_⟩
      · rw [legible_append clean, shown, List.append_assoc]
      · rw [legible_append clean, passed, found, List.length_append, Nat.add_assoc]

theorem Leaves.plain {n : Nat} {s : String} (worded : Worded s) {text : List Char}
    {broken : Option String} (leaves : Leaves (n + s.toList.length) text broken) :
    Leaves n (s.toList ++ text) broken := by
  apply Leaves.after _ _ leaves
  · exact fun c member => (worded.clean c member).2
  · apply openQuote?_plain
    intro c member
    refine ⟨?_, (worded.clean c member).1⟩
    rintro rfl
    exact worded.plain member

theorem Leaves.name {n : Nat} {s : String} {text : List Char} {broken : Option String}
    (apart : Apart text) (leaves : Leaves (n + (quoted s).length) text broken) :
    Leaves n (quoted s ++ text) (if hasNul s then some s else broken) := by
  have member (c : Char) : c ∈ quoted s ↔ c = '"' ∨ c ∈ s.toList := by
    simp [quoted, mem_doubleQuotes, or_comm]
  split
  · -- the text is read up to the zero, which leaves the quote open
    rename_i nul
    obtain ⟨c, here, zero⟩ := hasNul_iff.mp nul
    have shown : legible (quoted s ++ text) = brokenName s := by
      have quote : '"'.toNat ≠ 0 := by decide
      have inner : ∃ c ∈ doubleQuotes s.toList, c.toNat = 0 := ⟨c, mem_doubleQuotes.mpr here, zero⟩
      rw [quoted, List.cons_append, legible_cons quote, List.append_assoc,
        legible_append_of_nul inner, legible_doubleQuotes, brokenName]
    refine ⟨[], shown, ?_⟩
    rw [shown]
    exact openQuote?_brokenName s n
  · rename_i whole
    apply Leaves.after _ _ leaves
    · intro c found zero
      rcases (member c).mp found with rfl | here
      · exact absurd zero (by decide)
      · exact whole (hasNul_iff.mpr ⟨c, here, zero⟩)
    · have kept : Apart (legible text) := by
        cases text with
        | nil => exact apart_nil
        | cons c rest =>
            by_cases nul : c.toNat = 0
            · rw [legible_cons_nul nul]
              exact apart_nil
            · rw [legible_cons nul]
              exact apart_cons.mpr (apart_cons.mp apart)
      rw [openQuote?_quoted, openQuote?_closed kept]

theorem Orderly.leaves {α : Type} {names : String → Prop} {fragments : List (Fragment α)}
    (orderly : Orderly names fragments) (n : Nat) :
    Leaves n (fragments.flatMap Fragment.text) (Fragment.broken? fragments) := by
  induction orderly generalizing n with
  | nil => rfl
  | verbatim worded _ ih => exact .plain worded (ih _)
  | slot bound _ ih =>
      have mark : Worded "?" := .of_known ["?"]
      exact .plain mark (ih _)
  | @name s rest known apart _ ih =>
      have broken : Fragment.broken? (.name s :: rest) =
          if hasNul s then some s else Fragment.broken? rest := by
        simp only [Fragment.broken?, List.flatMap_cons, Fragment.names, List.singleton_append,
          List.find?_cons]
        split <;> simp_all
      rw [broken]
      exact .name apart (ih _)
  | @column table field rest known knownField apart _ ih =>
      have broken : Fragment.broken? (.column table field :: rest) =
          if hasNul table then some table
          else if hasNul field then some field else Fragment.broken? rest := by
        simp only [Fragment.broken?, List.flatMap_cons, Fragment.names, List.cons_append,
          List.nil_append, List.find?_cons]
        split <;> split <;> simp_all
      have dot : Worded "." := .of_known ["."]
      rw [broken, List.flatMap_cons, Fragment.text, qualified_append]
      exact .name (apart_cons.mpr (by decide)) (.plain dot (.name apart (ih _)))

/-- A statement of orderly fragments is refused exactly if a name holds a NUL, and then with the
piece that is left of the first such name. -/
theorem requireWhole_render {α : Type} {names : String → Prop} {fragments : List (Fragment α)}
    (orderly : Orderly names fragments) :
    (requireWhole (Fragment.render fragments)).mapError Fault.bare =
      match Fragment.broken? fragments with
      | none => .ok ()
      | some s => .error (.unfinished (String.ofList (brokenName s))) := by
  have leaves := orderly.leaves 0
  have text : (Fragment.render fragments).toList = fragments.flatMap Fragment.text :=
    String.toList_ofList
  unfold requireWhole brokenPiece?
  rw [text]
  cases broken : Fragment.broken? fragments with
  | none =>
      rw [broken] at leaves
      have unbroken : openQuote? 0 none (legible (fragments.flatMap Fragment.text)) = none := leaves
      unfold legible at unbroken
      simp only [unbroken]
      rfl
  | some s =>
      rw [broken] at leaves
      obtain ⟨before, shown, found⟩ := leaves
      unfold legible at shown found
      simp only [found]
      simp only [shown, Option.map_some, Nat.zero_add, List.drop_left]
      rfl

end TableAccess.Sql

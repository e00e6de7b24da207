import TableAccess.Sql.Quoted

/-!
# Reading quoted names

A quoted name shows its own end: whatever follows it, as long as that does not begin with
another quote, reading gives back the name and what follows, and nothing else is read as this
name. Two texts that begin with quoted names are therefore equal only if the names are, and what
follows them.
-/

namespace TableAccess.Sql

/-- A quote that ends a piece of text is not taken for the first of a pair. -/
def Apart (rest : List Char) : Prop := rest.head? ≠ some '"'

theorem apart_nil : Apart [] := by
  simp [Apart]

theorem apart_cons {c : Char} {rest : List Char} : Apart (c :: rest) ↔ c ≠ '"' := by
  simp [Apart]

theorem apart_append {first second : List Char} (one : Apart first) (two : Apart second) :
    Apart (first ++ second) := by
  cases first with
  | nil => exact two
  | cons c rest => exact apart_cons.mpr (apart_cons.mp one)

/-- Reading an inner quote takes its pair and goes on. -/
theorem readInside?_pair (rest : List Char) :
    readInside? ('"' :: '"' :: rest) =
      (readInside? rest).map fun (name, after) => ('"' :: name, after) := by
  rw [readInside?]

theorem readInside?_close {rest : List Char} (apart : Apart rest) :
    readInside? ('"' :: rest) = some ([], rest) := by
  cases rest with
  | nil => rfl
  | cons c others =>
      have other := apart_cons.mp apart
      rw [readInside?]
      simpa using other

theorem readInside?_cons {c : Char} (other : c ≠ '"') (rest : List Char) :
    readInside? (c :: rest) =
      (readInside? rest).map fun (name, after) => (c :: name, after) := by
  rw [readInside?]
  · intro _ same
    exact absurd same other
  · intro same
    exact absurd same other

theorem readInside?_doubleQuotes (inner : List Char) {rest : List Char} (apart : Apart rest) :
    readInside? (doubleQuotes inner ++ '"' :: rest) = some (inner, rest) := by
  induction inner with
  | nil => exact readInside?_close apart
  | cons c tail ih =>
      rw [doubleQuotes]
      by_cases quote : c = '"'
      · rw [if_pos quote]
        calc readInside? ('"' :: '"' :: doubleQuotes tail ++ '"' :: rest)
            = (readInside? (doubleQuotes tail ++ '"' :: rest)).map
                fun (name, after) => ('"' :: name, after) := readInside?_pair _
          _ = some (c :: tail, rest) := by rw [ih, quote]; rfl
      · rw [if_neg quote]
        calc readInside? (c :: doubleQuotes tail ++ '"' :: rest)
            = (readInside? (doubleQuotes tail ++ '"' :: rest)).map
                fun (name, after) => (c :: name, after) := readInside?_cons quote _
          _ = some (c :: tail, rest) := by rw [ih]; rfl

theorem quoted_append (name : String) (rest : List Char) :
    quoted name ++ rest = '"' :: (doubleQuotes name.toList ++ '"' :: rest) := by
  simp [quoted]

/-- A name is read up to a closing quote exactly if it stands there with its quotes doubled, and
no other quote follows the closing one. -/
theorem readInside?_eq_some_iff {text inner rest : List Char} :
    readInside? text = some (inner, rest) ↔
      text = doubleQuotes inner ++ '"' :: rest ∧ Apart rest := by
  refine ⟨fun read => ?_, fun ⟨written, apart⟩ => written ▸ readInside?_doubleQuotes inner apart⟩
  fun_induction readInside? text generalizing inner with
  | case1 => cases read
  | case2 others ih =>
      obtain ⟨⟨name, after⟩, found, same⟩ := Option.map_eq_some_iff.mp read
      cases same
      obtain ⟨written, apart⟩ := ih found
      rw [written, doubleQuotes, if_pos rfl]
      exact ⟨rfl, apart⟩
  | case3 others single =>
      cases read
      -- a quote at the front of the rest would have made a pair with the one that closes
      refine ⟨rfl, fun quote => ?_⟩
      obtain ⟨tail, pair⟩ := List.head?_eq_some_iff.mp quote
      exact single tail pair
  | case4 c others notPair notQuote ih =>
      obtain ⟨⟨name, after⟩, found, same⟩ := Option.map_eq_some_iff.mp read
      cases same
      obtain ⟨written, apart⟩ := ih found
      rw [written, doubleQuotes, if_neg notQuote]
      exact ⟨rfl, apart⟩

/-- What is left after a name is shorter than the text that was read. -/
theorem length_of_readInside? {text name rest : List Char}
    (read : readInside? text = some (name, rest)) : rest.length < text.length := by
  obtain ⟨written, _⟩ := readInside?_eq_some_iff.mp read
  rw [written, List.length_append, List.length_cons]
  omega

/-- A name is read exactly where it was quoted and no quote follows it. -/
theorem readQuoted?_eq_some_iff {text inner rest : List Char} :
    readQuoted? text = some (inner, rest) ↔
      text = quoted (String.ofList inner) ++ rest ∧ Apart rest := by
  rw [quoted_append, String.toList_ofList]
  cases text with
  | nil => simp [readQuoted?]
  | cons c others =>
      by_cases quote : c = '"'
      · rw [quote, readQuoted?, readInside?_eq_some_iff]
        simp
      · have unread : readQuoted? (c :: others) = none := by
          rw [readQuoted?]
          intro _ same
          exact quote (List.cons.inj same).1
        simp [unread, quote]

/-- Reading a quoted name gives the name and leaves what follows it. -/
theorem readQuoted?_append (name : String) {rest : List Char} (apart : Apart rest) :
    readQuoted? (quoted name ++ rest) = some (name.toList, rest) :=
  readQuoted?_eq_some_iff.mpr ⟨by rw [String.ofList_toList], apart⟩

/-- Texts that begin with quoted names are equal only if they agree in name and remainder. -/
theorem quoted_append_inj {first second : String} {rest others : List Char}
    (apart : Apart rest) (apartOther : Apart others)
    (same : quoted first ++ rest = quoted second ++ others) : first = second ∧ rest = others := by
  have read := readQuoted?_append first apart
  rw [same, readQuoted?_append second apartOther] at read
  obtain ⟨names, left⟩ := Prod.mk.inj (Option.some.inj read)
  exact ⟨String.toList_inj.mp names.symm, left.symm⟩

theorem qualified_append (table field : String) (rest : List Char) :
    qualified table field ++ rest = quoted table ++ '.' :: (quoted field ++ rest) := by
  simp [qualified]

theorem qualified_append_inj {table field otherTable otherField : String}
    {rest others : List Char} (apart : Apart rest) (apartOther : Apart others)
    (same : qualified table field ++ rest = qualified otherTable otherField ++ others) :
    table = otherTable ∧ field = otherField ∧ rest = others := by
  rw [qualified_append, qualified_append] at same
  have dot (left : List Char) : Apart ('.' :: left) := apart_cons.mpr (by decide)
  obtain ⟨tables, left⟩ := quoted_append_inj (dot _) (dot _) same
  obtain ⟨fields, left⟩ := quoted_append_inj apart apartOther (List.cons.inj left).2
  exact ⟨tables, fields, left⟩

/-- Quoting can be undone, and a quoted name shows its own end: before a text that does not begin
with a quote, reading gives back the name and leaves that text, and nothing but this name is read
so. A column with its table therefore tells both names, even if they hold quotes, dots or what
stands between the two. -/
theorem quoting_is_reversible :
    (∀ (name : String) (rest : List Char), Apart rest →
      readQuoted? (quoted name ++ rest) = some (name.toList, rest)) ∧
    (∀ text inner rest : List Char, readQuoted? text = some (inner, rest) →
      text = quoted (String.ofList inner) ++ rest ∧ Apart rest) ∧
    ∀ table field otherTable otherField : String,
      qualified table field = qualified otherTable otherField →
        table = otherTable ∧ field = otherField := by
  refine ⟨fun name rest apart => readQuoted?_append name apart,
    fun text inner rest read => readQuoted?_eq_some_iff.mp read, ?_⟩
  intro table field otherTable otherField same
  have ended : qualified table field ++ [] = qualified otherTable otherField ++ [] :=
    congrArg (· ++ []) same
  obtain ⟨tables, fields, _⟩ := qualified_append_inj apart_nil apart_nil ended
  exact ⟨tables, fields⟩

/-- Names that end in quotes or imitate the end of another name are told apart all the same. -/
theorem quoting_is_reversible_imitations :
    (Apart ".\"c\"".toList ∧
      readQuoted? (quoted "a\".\"b\"\"" ++ ".\"c\"".toList) =
        some ("a\".\"b\"\"".toList, ".\"c\"".toList)) ∧
    (readQuoted? "\"a\"\"\".".toList = some (['a', '"'], ['.']) ∧
      "\"a\"\"\".".toList = quoted (String.ofList ['a', '"']) ++ ['.'] ∧ Apart ['.']) ∧
    (qualified (String.ofList ['a', '"']) "." = qualified "a\"" "." ∧
      String.ofList ['a', '"'] = "a\"" ∧ "." = ".") ∧
    qualified "a\".\"b" "c" ≠ qualified "a" "b\".\"c" := by
  obtain ⟨readBack, written, told⟩ := quoting_is_reversible
  have apart : Apart ".\"c\"".toList := by
    simp [Apart]
  have read : readQuoted? "\"a\"\"\".".toList = some (['a', '"'], ['.']) := by
    decide
  have same : qualified (String.ofList ['a', '"']) "." = qualified "a\"" "." := by
    decide
  refine ⟨⟨apart, readBack _ _ apart⟩, ⟨read, written _ _ _ read⟩, ⟨same, told _ _ _ _ same⟩, ?_⟩
  intro equal
  exact absurd (told _ _ _ _ equal).1 (by decide)

end TableAccess.Sql

import TableAccess.Proofs.Sql.Filling
import TableAccess.Proofs.Sql.Reading

/-!
# Scanning statements

A text is scanned from left to right: a double quote opens a name, doubled quotes inside it are
pairs, and the first quote without a partner closes it. What fragments write is scanned as it
was meant, whatever the names contain, if no name follows another one at once. The names that
are found are those that were put in, and everything outside of them is put together from a
fixed vocabulary, the numbers of a page apart.
-/

namespace TableAccess.Sql

/-- What is seen of a text: a character outside of names, or a whole name. -/
inductive Token where
  | char (c : Char)
  | name (s : String)
  deriving DecidableEq, Repr

/-- Scans a text; there is no answer if a name is not closed. -/
def scan? (text : List Char) : Option (List Token) :=
  match text with
  | [] => some []
  | c :: rest =>
      if c = '"' then
        match _found : readInside? rest with
        | some (name, after) => (scan? after).map (.name (String.ofList name) :: ·)
        | none => none
      else (scan? rest).map (.char c :: ·)
termination_by text.length
decreasing_by
  · have shorter := length_of_readInside? _found
    simp only [List.length_cons]
    omega
  · exact Nat.lt_succ_self _

theorem scan?_cons {c : Char} (other : c ≠ '"') (rest : List Char) :
    scan? (c :: rest) = (scan? rest).map (.char c :: ·) := by
  rw [scan?, if_neg other]

/-- A quoted name is seen as a whole. -/
theorem scan?_quoted (name : String) {rest : List Char} (apart : Apart rest) :
    scan? (quoted name ++ rest) = (scan? rest).map (.name name :: ·) := by
  have read := readInside?_doubleQuotes name.toList apart
  rw [quoted_append, scan?, if_pos rfl]
  split
  · rename_i inner after found
    rw [read] at found
    cases found
    rw [String.ofList_toList]
  · rename_i found
    rw [read] at found
    cases found

/-- Text without quotes is seen character by character. -/
theorem scan?_plain {text : List Char} (plain : '"' ∉ text) (rest : List Char) :
    scan? (text ++ rest) = (scan? rest).map (text.map .char ++ ·) := by
  induction text with
  | nil => simp
  | cons c tail ih =>
      have other : c ≠ '"' := fun same => plain (same ▸ List.mem_cons_self)
      have inner := ih fun found => plain (List.mem_cons_of_mem _ found)
      rw [List.cons_append, scan?_cons other, inner, Option.map_map]
      rfl

def Token.name? : Token → Option String
  | char _ => none
  | name s => some s

/-- The names that are seen in a statement, from left to right. -/
def namesIn? (sql : String) : Option (List String) :=
  (scan? sql.toList).map fun tokens => tokens.filterMap Token.name?

/-- No name is seen in text without quotes. -/
theorem filterMap_name?_plain (text : List Char) :
    (text.map Token.char).filterMap Token.name? = [] := by
  rw [List.filterMap_map]
  exact List.filterMap_eq_nil_iff.mpr fun _ _ => rfl

/-! ## Words -/

/-- Keywords, operators, punctuation and constants. -/
def vocabulary : List String :=
  ["SELECT", "DISTINCT", "COUNT", "SUM", "AVG", "MIN", "MAX", "AS", "FROM", "LEFT", "OUTER",
    "INNER", "JOIN", "ON", "WHERE", "AND", "OR", "NOT", "IS", "NULL", "IN", "LIKE", "GROUP",
    "ORDER", "BY", "ASC", "DESC", "INSERT", "INTO", "DEFAULT", "VALUES", "UPDATE", "SET", "DELETE"]
    ++ ["=", "!=", ">", ">=", "<", "<=", "+"]
    ++ ["(", ")", ",", ".", " ", "?"]
    ++ ["1 = 1", "1 = 0"]

/-- A piece of text that may stand outside of names. -/
inductive IsWord : String → Prop where
  | known {s : String} (found : s ∈ vocabulary) : IsWord s
  | limit (n : Nat) : IsWord ("LIMIT " ++ toString n)
  | noLimit : IsWord "LIMIT -1"
  | offset (n : Nat) : IsWord ("OFFSET " ++ toString n)

theorem IsWord.plain {s : String} (word : IsWord s) : '"' ∉ s.toList := by
  have number {before : String} (plain : '"' ∉ before.toList ∧ '?' ∉ before.toList) (n : Nat) :
      '"' ∉ (before ++ toString n).toList :=
    (Fragment.quiet_number (α := Unit) plain n).1
  cases word with
  | known found =>
      have all : ∀ known ∈ vocabulary, '"' ∉ known.toList := by decide +kernel
      exact all s found
  | limit n => exact number ⟨by decide, by decide⟩ n
  | noLimit => decide
  | offset n => exact number ⟨by decide, by decide⟩ n

/-- Text that is put together from words. -/
def Worded (s : String) : Prop :=
  ∃ words : List String, (∀ word ∈ words, IsWord word) ∧ s.toList = words.flatMap String.toList

theorem Worded.of_known {s : String} (words : List String)
    (known : ∀ word ∈ words, word ∈ vocabulary := by decide)
    (same : s.toList = words.flatMap String.toList := by decide) : Worded s :=
  ⟨words, fun word found => .known (known word found), same⟩

theorem Worded.plain {s : String} (worded : Worded s) : '"' ∉ s.toList := by
  obtain ⟨words, each, same⟩ := worded
  rw [same, List.mem_flatMap]
  rintro ⟨word, found, quote⟩
  exact (each word found).plain quote

theorem Worded.append {s after : String} (first : Worded s) (second : Worded after) :
    Worded (s ++ after) := by
  obtain ⟨words, each, same⟩ := first
  obtain ⟨others, all, equal⟩ := second
  refine ⟨words ++ others, List.forall_mem_append.mpr ⟨each, all⟩, ?_⟩
  rw [String.toList_append, same, equal, List.flatMap_append]

/-- Text made of words does not continue a name. -/
theorem Worded.apart {s : String} (worded : Worded s) (filled : s ≠ "") (rest : List Char) :
    Apart (s.toList ++ rest) := by
  have plain := worded.plain
  have some : s.toList ≠ [] := mt String.toList_eq_nil_iff.mp filled
  cases letters : s.toList with
  | nil => exact absurd letters some
  | cons c tail =>
      rw [letters] at plain
      exact apart_cons.mpr fun quote => plain (quote ▸ List.mem_cons_self)

/-- A word after a blank. -/
theorem Worded.blank {s : String} (word : IsWord s) : Worded (" " ++ s) := by
  have space : IsWord " " := .known (by decide)
  refine ⟨[" ", s], ?_, by simp [String.toList_append]⟩
  exact List.forall_mem_cons.mpr ⟨space, List.forall_mem_singleton.mpr word⟩

/-! ## Symbols -/

/-- A part of a statement as it was meant. -/
inductive Symbol where
  | word (s : String)
  | name (s : String)

/-- How a part of a statement is seen. -/
def Symbol.tokens : Symbol → List Token
  | word s => s.toList.map .char
  | name s => [.name s]

/-- A part is allowed if it is a word or a name that may occur. -/
def Symbol.Allowed (names : String → Prop) : Symbol → Prop
  | word s => IsWord s
  | name s => names s

/-- A text confines its names: it is scanned to its end as a sequence of words and of quoted
names, each of which may occur. -/
def Confined (names : String → Prop) (text : List Char) : Prop :=
  ∃ symbols : List Symbol, scan? text = some (symbols.flatMap Symbol.tokens) ∧
    ∀ symbol ∈ symbols, symbol.Allowed names

namespace Confined

variable {names : String → Prop}

theorem nil : Confined names [] :=
  ⟨[], by rw [scan?]; rfl, fun _ found => nomatch found⟩

theorem worded {s : String} (worded : Worded s) {rest : List Char}
    (confined : Confined names rest) :
    Confined names (s.toList ++ rest) := by
  have plain := worded.plain
  obtain ⟨words, each, same⟩ := worded
  obtain ⟨symbols, scanned, allowed⟩ := confined
  refine ⟨words.map .word ++ symbols, ?seen, ?allowed⟩
  case seen =>
    have seen : (words.map Symbol.word).flatMap Symbol.tokens = s.toList.map .char := by
      rw [same, List.flatMap_map, List.map_flatMap]
      rfl
    rw [scan?_plain plain, scanned, List.flatMap_append, seen]
    rfl
  case allowed =>
    refine List.forall_mem_append.mpr ⟨fun symbol found => ?_, allowed⟩
    obtain ⟨word, member, rfl⟩ := List.mem_map.mp found
    exact each word member

theorem name {s : String} (known : names s) {rest : List Char} (apart : Apart rest)
    (confined : Confined names rest) : Confined names (quoted s ++ rest) := by
  obtain ⟨symbols, scanned, allowed⟩ := confined
  refine ⟨.name s :: symbols, ?_, List.forall_mem_cons.mpr ⟨known, allowed⟩⟩
  rw [scan?_quoted s apart, scanned]
  rfl

theorem column {table field : String} (known : names table) (knownField : names field)
    {rest : List Char} (apart : Apart rest) (confined : Confined names rest) :
    Confined names (qualified table field ++ rest) := by
  have dot : Worded "." := .of_known ["."]
  rw [qualified_append]
  exact name known (apart_cons.mpr (by decide)) (worded dot (name knownField apart confined))

end Confined

/-! ## Fragments -/

def Fragment.names {α : Type} : Fragment α → List String
  | name s => [s]
  | column table field => [table, field]
  | verbatim _ | slot _ => []

def Fragment.tokens {α : Type} : Fragment α → List Token
  | verbatim s => s.toList.map .char
  | name s => [.name s]
  | column table field => [.name table, .char '.', .name field]
  | slot _ => [.char '?']

theorem Fragment.filterMap_name?_tokens {α : Type} (fragment : Fragment α) :
    fragment.tokens.filterMap Token.name? = fragment.names := by
  cases fragment with
  | verbatim s => exact Sql.filterMap_name?_plain s.toList
  | name s => rfl
  | column table field => rfl
  | slot bound => rfl

/-- The names in a separated list are those in its parts. -/
theorem Fragment.names_separated {α : Type} (separator : String)
    (parts : List (List (Fragment α))) :
    (separated separator parts).flatMap Fragment.names =
      parts.flatMap fun part => part.flatMap Fragment.names := by
  induction parts with
  | nil => rfl
  | cons first rest ih =>
      cases rest with
      | nil => simp [separated]
      | cons next others =>
          rw [separated, List.flatMap_append, List.flatMap_cons, ih, List.flatMap_cons]
          rfl

/-- Fragments with fixed text made of words and with names that may occur, none of which is
followed by another one at once. -/
inductive Orderly {α : Type} (names : String → Prop) : List (Fragment α) → Prop where
  | nil : Orderly names []
  | verbatim {s : String} {rest : List (Fragment α)} (worded : Worded s)
      (orderly : Orderly names rest) : Orderly names (.verbatim s :: rest)
  | slot (bound : α) {rest : List (Fragment α)} (orderly : Orderly names rest) :
      Orderly names (.slot bound :: rest)
  | name {s : String} {rest : List (Fragment α)} (known : names s)
      (apart : Apart (rest.flatMap Fragment.text)) (orderly : Orderly names rest) :
      Orderly names (.name s :: rest)
  | column {table field : String} {rest : List (Fragment α)} (known : names table)
      (knownField : names field) (apart : Apart (rest.flatMap Fragment.text))
      (orderly : Orderly names rest) : Orderly names (.column table field :: rest)

namespace Orderly

variable {α : Type} {names : String → Prop}

/-- The text of orderly fragments confines its names. -/
theorem confined {fragments : List (Fragment α)} (orderly : Orderly names fragments) :
    Confined names (fragments.flatMap Fragment.text) := by
  induction orderly with
  | nil => exact .nil
  | verbatim worded _ ih => exact .worded worded ih
  | slot bound _ ih =>
      have mark : Worded "?" := .of_known ["?"]
      exact .worded mark ih
  | name known apart _ ih => exact .name known apart ih
  | column known knownField apart _ ih => exact .column known knownField apart ih

theorem confined_render {fragments : List (Fragment α)} (orderly : Orderly names fragments) :
    Confined names (Fragment.render fragments).toList := by
  rw [Fragment.render, String.toList_ofList]
  exact orderly.confined

/-- The text of orderly fragments is seen as it was meant. -/
theorem scan?_text {fragments : List (Fragment α)} (orderly : Orderly names fragments) :
    scan? (fragments.flatMap Fragment.text) = some (fragments.flatMap Fragment.tokens) := by
  induction orderly with
  | nil => rw [List.flatMap_nil, scan?, List.flatMap_nil]
  | verbatim worded _ ih =>
      rw [List.flatMap_cons, Fragment.text, scan?_plain worded.plain, ih]
      rfl
  | slot bound _ ih =>
      rw [List.flatMap_cons, Fragment.text, List.singleton_append, scan?_cons (by decide), ih]
      rfl
  | @name s rest known apart _ ih =>
      rw [List.flatMap_cons, Fragment.text, scan?_quoted s apart, ih]
      rfl
  | @column table field rest known knownField apart _ ih =>
      rw [List.flatMap_cons, Fragment.text, qualified_append,
        scan?_quoted table (apart_cons.mpr (by decide)), scan?_cons (by decide),
        scan?_quoted field apart, ih]
      rfl

theorem scan?_render {fragments : List (Fragment α)} (orderly : Orderly names fragments) :
    scan? (Fragment.render fragments).toList = some (fragments.flatMap Fragment.tokens) := by
  rw [Fragment.render, String.toList_ofList]
  exact orderly.scan?_text

/-- The names that are seen in the text of orderly fragments are those that were put in. -/
theorem namesIn?_render {fragments : List (Fragment α)} (orderly : Orderly names fragments) :
    namesIn? (Fragment.render fragments) = some (fragments.flatMap Fragment.names) := by
  rw [namesIn?, orderly.scan?_render, Option.map_some, List.filterMap_flatMap]
  simp only [Fragment.filterMap_name?_tokens]

theorem append {first second : List (Fragment α)} (one : Orderly names first)
    (two : Orderly names second) (apart : Apart (second.flatMap Fragment.text)) :
    Orderly names (first ++ second) := by
  have joined {rest : List (Fragment α)} (before : Apart (rest.flatMap Fragment.text)) :
      Apart ((rest ++ second).flatMap Fragment.text) := by
    rw [List.flatMap_append]
    exact apart_append before apart
  induction one with
  | nil => exact two
  | verbatim worded _ ih => exact .verbatim worded ih
  | slot bound _ ih => exact .slot bound ih
  | name known before _ ih => exact .name known (joined before) ih
  | column known knownField before _ ih => exact .column known knownField (joined before) ih

/-- Fixed text after a name keeps it apart from what follows. -/
theorem nameThen {name s : String} (known : names name) (worded : Worded s)
    {rest : List (Fragment α)} (orderly : Orderly names rest) (filled : s ≠ "" := by decide) :
    Orderly names (.name name :: .verbatim s :: rest) :=
  .name known (worded.apart filled _) (.verbatim worded orderly)

theorem columnThen {table field s : String} (known : names table) (knownField : names field)
    (worded : Worded s) {rest : List (Fragment α)} (orderly : Orderly names rest)
    (filled : s ≠ "" := by decide) :
    Orderly names (.column table field :: .verbatim s :: rest) :=
  .column known knownField (worded.apart filled _) (.verbatim worded orderly)

/-- Orderly fragments may be followed by fixed text and more of them. -/
theorem followed {first rest : List (Fragment α)} {s : String} (one : Orderly names first)
    (worded : Worded s) (two : Orderly names rest) (filled : s ≠ "" := by decide) :
    Orderly names (first ++ .verbatim s :: rest) :=
  one.append (.verbatim worded two) (worded.apart filled _)

theorem separated {separator : String} {parts : List (List (Fragment α))}
    (worded : Worded separator) (each : ∀ part ∈ parts, Orderly names part)
    (filled : separator ≠ "" := by decide) :
    Orderly names (Fragment.separated separator parts) := by
  induction parts with
  | nil => exact .nil
  | cons first rest ih =>
      obtain ⟨here, later⟩ := List.forall_mem_cons.mp each
      cases rest with
      | nil => exact here
      | cons next others => exact here.followed worded (ih later) filled

end Orderly

/-- Orderly fragments that may follow a name: there are none, or they begin with fixed text. -/
structure Clause {α : Type} (names : String → Prop) (fragments : List (Fragment α)) : Prop where
  orderly : Orderly names fragments
  apart : Apart (fragments.flatMap Fragment.text)

namespace Clause

variable {α : Type} {names : String → Prop}

theorem nil : Clause names ([] : List (Fragment α)) :=
  ⟨.nil, apart_nil⟩

theorem verbatim {s : String} (worded : Worded s) {rest : List (Fragment α)}
    (orderly : Orderly names rest) (filled : s ≠ "" := by decide) :
    Clause names (.verbatim s :: rest) :=
  ⟨.verbatim worded orderly, worded.apart filled _⟩

theorem append {first second : List (Fragment α)} (one : Clause names first)
    (two : Clause names second) : Clause names (first ++ second) where
  orderly := one.orderly.append two.orderly two.apart
  apart := by
    rw [List.flatMap_append]
    exact apart_append one.apart two.apart

end Clause

end TableAccess.Sql

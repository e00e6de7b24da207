import Mathlib.Data.List.Chain
import TableAccess.Proofs.Sql.Scanning

/-!
# Parentheses outside of names

What is seen of a text is packed if it has no opening parenthesis directly before a closing one,
and this also stays so when other packed text is put before or after it, or parentheses around it.
For that, packed text is not empty, it does not begin with a closing parenthesis and does not end
with an opening one. The digit that constants begin with is not in it either.
-/

namespace TableAccess.Sql

/-- What is seen of a text in which no parentheses are empty, also after it has been put next to
other such text or into parentheses. -/
structure Packed (tokens : List Token) : Prop where
  nonempty : tokens ≠ []
  head : .char ')' ∉ tokens.head?
  last : .char '(' ∉ tokens.getLast?
  chain : tokens.IsChain fun first second => ¬ (first = .char '(' ∧ second = .char ')')
  digitless : .char '1' ∉ tokens

namespace Packed

variable {first second tokens : List Token}

theorem single {token : Token} (opening : token ≠ .char '(') (closing : token ≠ .char ')')
    (digit : token ≠ .char '1') : Packed [token] where
  nonempty := List.cons_ne_nil _ _
  head := by simpa using closing
  last := by simpa using opening
  chain := .singleton token
  digitless := by simpa using digit.symm

theorem append (one : Packed first) (two : Packed second) : Packed (first ++ second) where
  nonempty := List.append_ne_nil_of_left_ne_nil one.nonempty _
  head := by
    rw [List.head?_append_of_ne_nil _ one.nonempty]
    exact one.head
  last := by
    rw [List.getLast?_append_of_ne_nil _ two.nonempty]
    exact two.last
  chain := by
    refine List.isChain_append.mpr ⟨one.chain, two.chain, fun token found _ _ both => ?_⟩
    exact one.last (both.1 ▸ found)
  digitless := by
    rw [List.mem_append]
    exact not_or.mpr ⟨one.digitless, two.digitless⟩

theorem enclosed (inner : Packed tokens) : Packed (.char '(' :: (tokens ++ [.char ')'])) where
  nonempty := List.cons_ne_nil _ _
  head := by simp
  last := by
    rw [← List.cons_append, List.getLast?_concat]
    simp
  chain := by
    -- what stands inside begins with no closing parenthesis and ends with no opening one
    rw [← List.singleton_append]
    refine List.isChain_append.mpr ⟨.singleton _, ?_, fun _ _ token found both => ?_⟩
    · refine List.isChain_append.mpr ⟨inner.chain, .singleton _, fun token found _ _ both => ?_⟩
      exact inner.last (both.1 ▸ found)
    · rw [List.head?_append_of_ne_nil _ inner.nonempty] at found
      exact inner.head (both.2 ▸ found)
  digitless := by simp [inner.digitless]

theorem name (s : String) : Packed [.name s] :=
  single nofun nofun nofun

def isQuiet (c : Char) : Bool := c != '(' && c != ')' && c != '1'

theorem plain (text : List Char) (some : text ≠ []) (quiet : text.all isQuiet = true) :
    Packed (text.map .char) := by
  induction text with
  | nil => exact absurd rfl some
  | cons c rest ih =>
      obtain ⟨here, later⟩ := Bool.and_eq_true_iff.mp quiet
      have one : Packed [.char c] := by
        apply single
        all_goals
          rintro ⟨⟩
          cases here
      cases rest with
      | nil => exact one
      | cons next others => exact one.append (ih (List.cons_ne_nil _ _) later)

variable {α : Type}

theorem column (table field : String) :
    Packed (Fragment.tokens (.column table field : Fragment α)) :=
  (name table).append ((plain ['.'] (by decide) (by decide)).append (name field))

theorem slot (bound : α) : Packed (Fragment.tokens (.slot bound)) :=
  plain ['?'] (by decide) (by decide)

/-- Packed parts with packed text between them are packed, if there are any. -/
theorem separated {separator : String} {parts : List (List (Fragment α))} (some : parts ≠ [])
    (between : Packed (separator.toList.map .char))
    (each : ∀ part ∈ parts, Packed (part.flatMap Fragment.tokens)) :
    Packed ((Fragment.separated separator parts).flatMap Fragment.tokens) := by
  induction parts with
  | nil => exact absurd rfl some
  | cons first rest ih =>
      obtain ⟨here, later⟩ := List.forall_mem_cons.mp each
      cases rest with
      | nil => exact here
      | cons next others =>
          rw [Fragment.separated, List.flatMap_append, List.flatMap_cons]
          exact here.append (between.append (ih (List.cons_ne_nil _ _) later))

end Packed

/-- A piece of text is seen outside of names. -/
def Stands (piece : String) (tokens : List Token) : Prop := piece.toList.map .char <:+: tokens

instance (piece : String) (tokens : List Token) : Decidable (Stands piece tokens) :=
  inferInstanceAs (Decidable (_ <:+: _))

def constants : List String := ["1 = 1", "1 = 0"]

/-- A text that is seen to its end. Outside of its names there are no empty parentheses and no
empty list, and a constant only if it is the whole text. -/
def Tidy (sql : String) : Prop :=
  ∃ tokens, scan? sql.toList = some tokens ∧ ¬ Stands "()" tokens ∧ ¬ Stands "IN ()" tokens ∧
    ∀ constant ∈ constants, Stands constant tokens → sql = constant

theorem Packed.tidy {sql : String} {tokens : List Token} (packed : Packed tokens)
    (scanned : scan? sql.toList = some tokens) : Tidy sql := by
  have apart : ¬ Stands "()" tokens := by
    intro stands
    have pair := List.IsChain.infix packed.chain stands
    exact List.isChain_pair.mp pair ⟨rfl, rfl⟩
  refine ⟨tokens, scanned, apart, fun stands => ?_, fun constant found stands => ?_⟩
  · exact apart (List.IsInfix.trans (by decide) stands)
  · have digits : ∀ constant ∈ constants, Token.char '1' ∈ constant.toList.map .char := by
      decide
    exact absurd (stands.mem (digits constant found)) packed.digitless

theorem tidy_of_mem_constants {constant : String} (known : constant ∈ constants) :
    Tidy constant := by
  have each : ∀ constant ∈ constants, '"' ∉ constant.toList ∧
      ¬ Stands "()" (constant.toList.map .char) ∧ ¬ Stands "IN ()" (constant.toList.map .char) ∧
      ∀ other ∈ constants, Stands other (constant.toList.map .char) → constant = other := by
    decide
  obtain ⟨plain, tidy⟩ := each constant known
  have scanned := scan?_plain plain []
  rw [List.append_nil, scan?, Option.map_some, List.append_nil] at scanned
  exact ⟨_, scanned, tidy⟩

end TableAccess.Sql

import TableAccess.Store.Cell
import TableAccess.Text.Letters

/-!
# Patterns

In a pattern, a percent sign stands for any characters and an underscore for one
character; every other character stands for itself, letters in any case.
-/

namespace TableAccess.Like

def sameLetter (a b : Char) : Bool := a.toLower == b.toLower

def rest? : List Char → List Char → Option (List Char)
  | [], subject => some subject
  | _ :: _, [] => none
  | p :: segment, c :: subject =>
      if p = '_' ∨ sameLetter p c = true then rest? segment subject else none

/-- The rest of a text after the first place where a segment occurs. -/
def restAfter? (segment : List Char) : List Char → Option (List Char)
  | [] => rest? segment []
  | c :: subject =>
      match rest? segment (c :: subject) with
      | some rest => some rest
      | none => restAfter? segment subject

/-- Whether segments occur one after the other, the last one at the end. It is enough to
look for the first place of each, since that leaves most for those that follow. -/
def occurInOrder : List (List Char) → List Char → Bool
  | [], _ => true
  | [last], subject =>
      last.length ≤ subject.length
        && (rest? last (subject.drop (subject.length - last.length))).isSome
  | segment :: next :: later, subject =>
      match restAfter? segment subject with
      | some rest => occurInOrder (next :: later) rest
      | none => false

/-- Whether a text is of the form of a pattern: it begins with the first segment and
ends with the last one. Segments stand between percent signs. -/
def matchesPattern (pattern subject : List Char) : Bool :=
  match Text.split '%' pattern with
  | [] => subject.isEmpty
  | [only] => rest? only subject == some []
  | first :: next :: later =>
      match rest? first subject with
      | some rest => occurInOrder (next :: later) rest
      | none => false

/-- The characters of a cell that a pattern sees; they end at the first NUL. -/
def subject? (cell : Cell) : Option (List Char) :=
  let visible (source : List Char) := source.takeWhile fun c => c.toNat != 0
  match cell with
  | .null => none
  | .integer n => some (toString n.toInt).toList
  | .real x => some x.storeText.toList
  | .text s => some (visible s.toList)
  | .blob bs =>
      let decoded := (String.fromUTF8? (ByteArray.mk bs.toArray)).map String.toList
      some (visible (decoded.getD (bs.map fun b => Char.ofNat b.toNat)))

end TableAccess.Like

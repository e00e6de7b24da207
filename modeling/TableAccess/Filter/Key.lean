import TableAccess.Filter.Basic
import TableAccess.Schema.Table

/-!
# Keys

A key names a field, or a field with a suffix after the delimiter. Since names
of columns may hold the delimiter themselves, a key that is a column is taken
whole, and otherwise the delimiters are tried from the right, so that the
longest column wins. Delimiters found this way do not overlap.
-/

namespace TableAccess

/-- The ways to split a key at a delimiter, found from its end; the first argument
holds what is still to be searched, in reverse, the second what was passed. -/
def splitsBack : List Char → List Char → List (List Char × List Char)
  | '_' :: '_' :: before, after =>
      (before.reverse, after) :: splitsBack before ('_' :: '_' :: after)
  | c :: before, after => splitsBack before (c :: after)
  | [], _ => []

/-- The ways to split a key into a field and a suffix, longest field first. -/
def keySplits (key : String) : List (String × String) :=
  (splitsBack key.toList.reverse []).map fun (field, suffix) =>
    (String.ofList field, String.ofList suffix)

namespace Table

/-- Splits a key into a column of the table and a suffix, if it has one. -/
def splitKey (t : Table) (key : String) : Except Error (String × Option String) :=
  if t.hasColumn key then .ok (key, none)
  else
    match (keySplits key).find? fun split => t.hasColumn split.1 with
    | some (field, suffix) => .ok (field, some suffix)
    | none => .error (.unknownColumn t.name key)

/-- Reads a key as a column and the operator that its suffix chooses. -/
def parseKey (t : Table) (key : String) : Except Error (String × Operator) := do
  match ← t.splitKey key with
  | (field, none) => pure (field, .eq)
  | (field, some suffix) =>
      match Operator.ofSuffix? suffix with
      | some op => pure (field, op)
      | none => throw (.unsupportedOperator field suffix)

def plainColumn (t : Table) (key : String) : Except Error String := do
  match ← t.splitKey key with
  | (field, none) => pure field
  | (field, some suffix) => throw (.unsupportedOperator field suffix)

end Table

end TableAccess

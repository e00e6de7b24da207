import TableAccess.Filter.Basic
import TableAccess.Value.Document
import TableAccess.Error

/-!
# Filters from documents

A JSON object is read as a filter: scalars become scalar entries, arrays of
scalars become lists, and the group key holds an array of objects. Everything
else is refused.
-/

namespace TableAccess.Filter

def notAnObject : Error := .invalidRequest "filter must be a JSON object"

def groupNotAnArray : Error := .invalidRequest s!"'{orKey}' must be an array of objects"

def listNotScalar (key : String) : Error :=
  .invalidRequest s!"list for '{key}' must contain scalars only"

def valueIsObject (key : String) : Error :=
  .invalidRequest s!"value for '{key}' must be a scalar or a list"

mutual

def ofJson : Json → Except Error Filter
  | .object members => do pure (entries (← entriesOfMembers members))
  | _ => throw notAnObject

def entriesOfMembers : List (String × Json) → Except Error (List (String × FilterValue))
  | [] => pure []
  | (key, value) :: rest => do
      let entry ← entryOfMember key value
      pure ((key, entry) :: (← entriesOfMembers rest))

def entryOfMember (key : String) : Json → Except Error FilterValue
  | .array items =>
      if key = orKey then do pure (.group (← groupOfItems items))
      else if items.all Json.isScalar then pure (.list (items.map Value.ofJson))
      else throw (listNotScalar key)
  | .object _ =>
      if key = orKey then throw groupNotAnArray else throw (valueIsObject key)
  | value =>
      if key = orKey then throw groupNotAnArray else pure (.scalar (Value.ofJson value))

def groupOfItems : List Json → Except Error (List Filter)
  | [] => pure []
  | item :: rest => do
      let member ← ofJson item
      pure (member :: (← groupOfItems rest))

end

end TableAccess.Filter

import TableAccess.Fault
import TableAccess.Text.Letters

/-!
# Locations

Where a store is kept. A location is a path, or a text that begins with `file:` and
may go on with options: how the store may be accessed, whether its pages are shared,
and by which means files are reached. A store in memory is always there. Any other
one is a file that is not there yet, so it opens only where it may be created, which
is never the case inside a directory.
-/

namespace TableAccess

structure Location where
  path : List Char
  /-- The options with their values, in order. -/
  options : List (String × String) := []
  deriving DecidableEq, Repr

namespace Location

def readOption (text : List Char) : String × String :=
  let name := text.takeWhile (· != '=')
  (String.ofList name, String.ofList (text.drop (name.length + 1)))

/-- Reads what stands after the scheme and the authority: a path, then options after a
question mark; a number sign ends both. -/
def ofPath (text : List Char) : Location :=
  let shown := text.takeWhile (· != '#')
  let path := shown.takeWhile (· != '?')
  let query := shown.drop (path.length + 1)
  { path
    options := if query.isEmpty then [] else (Text.split '&' query).map readOption }

/-- Reads a location. Only this machine may be named as its authority. -/
def read (text : String) : Except Fault Location :=
  match text.toList with
  | 'f' :: 'i' :: 'l' :: 'e' :: ':' :: '/' :: '/' :: rest =>
      let authority := String.ofList (rest.takeWhile (· != '/'))
      if authority = "" ∨ authority = "localhost" then .ok (ofPath (rest.dropWhile (· != '/')))
      else .error (.invalidAuthority authority)
  | 'f' :: 'i' :: 'l' :: 'e' :: ':' :: rest => .ok (ofPath rest)
  | path => .ok { path }

/-- The values that an option may have; other options may have any. -/
def accepted? : String → Option (String × List String)
  | "mode" => some ("access mode", ["ro", "rw", "rwc", "memory"])
  | "cache" => some ("cache mode", ["shared", "private"])
  | _ => none

def systems : List String :=
  ["unix", "unix-none", "unix-dotfile", "unix-excl", "unix-namedsem", "memdb"]

/-- The value of an option; the last one counts. -/
def option? (l : Location) (name : String) : Option String :=
  (l.options.reverse.find? fun entry => entry.1 == name).map (·.2)

def checkOptions (l : Location) : Except Fault Unit := do
  l.options.forM fun (name, value) =>
    match accepted? name with
    | some (kind, values) =>
        if values.contains value then .ok () else .error (.noSuchOption kind value)
    | none => .ok ()
  match l.option? "vfs" with
  | some value => if systems.contains value then .ok () else .error (.noSuchOption "vfs" value)
  | none => .ok ()

/-- Whether a store can be opened at a location with acceptable options. -/
def isReachable (l : Location) : Bool :=
  match l.option? "mode" with
  | some "memory" => true
  | some "ro" | some "rw" => l.path.isEmpty
  | _ => !l.path.contains '/' && l.path != ['.'] && l.path != ['.', '.']

def check (text : String) : Except Fault Unit := do
  let l ← read text
  l.checkOptions
  if l.isReachable then .ok () else .error (.cannotOpen text)

end Location

end TableAccess

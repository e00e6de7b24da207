import TableAccess.Error
import TableAccess.Value.Reading

/-!
# Settings

What a pool of connections is set up with, read from named variables or given
directly. Times are in milliseconds.
-/

namespace TableAccess

structure Settings where
  connection : String := ""
  /-- The greatest number of open connections. -/
  maxSize : Nat := 16
  /-- How long to wait for a connection. -/
  timeout : Nat := 5000
  /-- How long a statement may run. -/
  operationTimeout : Nat := 30000
  /-- How long a store waits for a lock. -/
  busyTimeout : Nat := 5000
  /-- The pause between the chunks of a bulk update. -/
  chunkPause : Nat := 1000
  defaultChunkSize : Nat := 1000
  /-- Whether statements are logged. -/
  echo : Bool := false
  deriving DecidableEq, Repr, Inhabited

namespace Settings

def ofConnection (connection : String) : Settings := { connection }

def notANumber (key raw : String) : Error :=
  .invalidRequest s!"{key}: '{raw}' is not a valid number"

def number (key raw : String) : Except Error Nat :=
  match Number.uint64? (Text.trimmed raw) with
  | some n => .ok n.toNat
  | none => .error (notANumber key raw)

def flag (key raw : String) : Except Error Bool :=
  match Value.flag? (String.ofList (Text.trimmed raw)) with
  | some b => .ok b
  | none => .error (.invalidRequest s!"{key}: '{raw}' is not a boolean")

/-- Replaces a setting by what a reader makes of a variable, if that is there. -/
def readInto {α : Type} (lookup : String → Option String) (key : String)
    (read : String → String → Except Error α) (present : α) : Except Error α :=
  match lookup key with
  | some raw => read key raw
  | none => .ok present

/-- Reads settings from variables. Only the connection has to be there, and it
must not be blank. -/
def ofLookup (lookup : String → Option String) : Except Error Settings := do
  let some connection := (lookup "DATABASE_URL").filter fun url => !(Text.trimmed url).isEmpty
    | throw (.invalidRequest "DATABASE_URL is not set")
  let defaults := ofConnection connection
  let maxSize ← readInto lookup "DATABASE_POOL_SIZE" number defaults.maxSize
  let echo ← readInto lookup "DATABASE_ECHO" flag defaults.echo
  let chunkPause ← readInto lookup "DATABASE_CHUNK_PAUSE_MS" number defaults.chunkPause
  pure { defaults with maxSize, echo, chunkPause }

def validate (s : Settings) : Except Error Unit := do
  if s.connection.isEmpty then throw (.invalidRequest "connection string is empty")
  if s.maxSize = 0 then throw (.invalidRequest "pool max_size must be at least 1")
  if s.defaultChunkSize = 0 then throw (.invalidRequest "default_chunk_size must be at least 1")

end Settings

end TableAccess

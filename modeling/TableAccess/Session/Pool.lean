import TableAccess.Attempt
import TableAccess.Fault

/-!
# Pools

A pool opens connections up to a limit and lends them. Connections that come back
are lent again before new ones are opened. Connections are named by the order in
which they were opened.
-/

namespace TableAccess

structure Pool where
  /-- The open connections that are not lent, the next to be lent first. -/
  idle : List Nat := []
  /-- The number of open connections, idle or lent. -/
  total : Nat := 0
  /-- How many connections were ever opened. -/
  opened : Nat := 0
  deriving DecidableEq, Repr, Inhabited

/-- Which idle connection is lent next. -/
inductive LendingOrder where
  | lastReturned
  | firstReturned
  deriving DecidableEq, Repr

inductive Refusal where
  /-- As many connections as allowed are lent. -/
  | exhausted (active max : Nat)
  /-- A new connection could not be opened. -/
  | cannotOpen (fault : Fault)
  deriving DecidableEq, Repr

namespace Pool

/-- The connections that are open and those that can be lent at once. -/
structure Stats where
  size : Nat
  available : Nat
  deriving DecidableEq, Repr

def stats (p : Pool) : Stats := ⟨p.total, p.idle.length⟩

def active (p : Pool) : Nat := p.total - p.idle.length

def lendIdle? (p : Pool) : Option (Nat × Pool) :=
  match p.idle with
  | c :: rest => some (c, { p with idle := rest })
  | [] => none

/-- Opens a connection within the limit, if it can be opened, and lends it. -/
def lendNew (max : Nat) (opening : Except Fault Unit) : Attempt Pool Refusal Nat := .of fun p =>
  if max ≤ p.total then (.error (.exhausted p.active max), p)
  else
    match opening with
    | .ok () => (.ok p.opened, { p with total := p.total + 1, opened := p.opened + 1 })
    | .error fault => (.error (.cannotOpen fault), p)

/-- Puts a lent connection among the idle ones. -/
def keep (p : Pool) (order : LendingOrder) (c : Nat) : Pool :=
  match order with
  | .lastReturned => { p with idle := c :: p.idle }
  | .firstReturned => { p with idle := p.idle ++ [c] }

def discard (p : Pool) : Pool := { p with total := p.total - 1 }

end Pool

end TableAccess

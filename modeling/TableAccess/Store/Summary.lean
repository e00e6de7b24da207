import TableAccess.Query.Select
import TableAccess.Store.NumericText
import TableAccess.Fault
import TableAccess.Store.Affinity

/-!
# Summaries

The aggregate functions over the cells of a column. Nulls are left out. Integers
are summed exactly; from the first real or the first overflow on, the sum is a
double with a second double that collects what rounding lost. An overflow is a
fault unless a real comes after it.
-/

namespace TableAccess

open Number (Binary64)

structure RunningSum where
  /-- How many cells were added. -/
  count : Nat
  /-- The exact sum, as long as there was neither a real nor an overflow. -/
  whole : Int64
  approximate : Bool
  overflow : Bool
  high : Binary64
  low : Binary64
  deriving DecidableEq, Repr

namespace RunningSum

def start : RunningSum := ⟨0, 0, false, false, .zero, .zero⟩

/-- Adds a double and collects the rounding error. -/
def addReal (s : RunningSum) (x : Binary64) : RunningSum :=
  let total := s.high.add x
  let lost :=
    if x.abs.toFloat < s.high.abs.toFloat then (s.high.sub total).add x
    else (x.sub total).add s.high
  { s with high := total, low := s.low.add lost }

/-- An integer split so that both parts are exact as doubles. -/
def split (n : Int64) : Int64 × Int64 :=
  if n ≤ -4503599627370496 ∨ 4503599627370496 ≤ n then
    let small := n % 16384
    (n - small, small)
  else (n, 0)

def addWhole (s : RunningSum) (n : Int64) : RunningSum :=
  let (big, small) := split n
  if small = 0 then s.addReal (.ofInt64 big)
  else (s.addReal (.ofInt64 big)).addReal (.ofInt64 small)

/-- Goes over from the exact sum to doubles. -/
def toApproximate (s : RunningSum) : RunningSum :=
  let (big, small) := split s.whole
  { s with approximate := true, high := .ofInt64 big, low := .ofInt64 small }

def summand : Cell → Cell
  | .text t =>
      match NumericText.cell? t.toList with
      | some number => number
      | none => (NumericText.prefixCell t.toList).asReal
  | .blob bs => (NumericText.prefixCell (NumericText.ofBytes bs)).asReal
  | number => number

def add (s : RunningSum) (cell : Cell) : RunningSum :=
  let counted := { s with count := s.count + 1 }
  match summand cell with
  | .integer n =>
      if counted.approximate then counted.addWhole n
      else
        let exact := counted.whole.toInt + n.toInt
        if Int64.minValue.toInt ≤ exact ∧ exact ≤ Int64.maxValue.toInt then
          { counted with whole := Int64.ofInt exact }
        else ({ counted with overflow := true }).toApproximate.addWhole n
  | .real x =>
      if counted.approximate then ({ counted with overflow := false }).addReal x
      else counted.toApproximate.addReal x
  | _ => counted

def real (s : RunningSum) : Binary64 :=
  if !s.approximate then .ofInt64 s.whole
  else if s.low.isFinite then s.high.add s.low
  else s.high

/-- The sum as a cell; the sum of nothing is null. -/
def total (s : RunningSum) : Except Fault Cell :=
  if s.count = 0 then .ok .null
  else if !s.approximate then .ok (.integer s.whole)
  else if s.overflow then .error .integerOverflow
  else .ok (.ofReal s.real)

/-- The mean as a cell; the mean of nothing is null. -/
def mean (s : RunningSum) : Cell :=
  if s.count = 0 then .null
  else .ofReal (s.real.div (.ofInt64 (Int64.ofNat s.count)))

end RunningSum

namespace AggregateFunction

/-- The extreme cell in an order; the first of equal ones, and null of nothing. -/
def extreme (wanted : Ordering) : List Cell → Cell
  | [] => .null
  | first :: rest =>
      rest.foldl (fun best c => if c.order best == wanted then c else best) first

/-- The value of a function over the cells of a column. -/
def apply (f : AggregateFunction) (cells : List Cell) : Except Fault Cell :=
  let given := cells.filter fun c => !c.isNull
  let running := given.foldl RunningSum.add .start
  match f with
  | .count => .ok (.integer (Int64.ofNat given.length))
  | .sum => running.total
  | .avg => .ok running.mean
  | .min => .ok (extreme .lt given)
  | .max => .ok (extreme .gt given)

end AggregateFunction

end TableAccess

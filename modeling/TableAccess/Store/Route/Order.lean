import TableAccess.Store.Route.Choice

/-!
# Orders of routes

A route visits the tables one inside the other, each by its way. Which columns of a wanted
order does it give, and which of its ways have to be gone backwards for that? A way gives
the columns of its index as long as every column before is wanted too or bound to one
value. A table that is visited inside another one can only go on with the order if the
rows outside differ in it.
-/

namespace TableAccess

/-- How far a wanted order is given by the outer ways of a route. -/
structure Giving where
  wanted : Wanted
  /-- For each wanted column whether it is given. -/
  given : List Bool
  /-- Whether the rows so far differ in the wanted columns. -/
  apart : Bool := true
  /-- The tables whose rows differ in the wanted columns. -/
  settled : List Side := []
  /-- The tables of the ways outside. -/
  outside : List Side := []
  /-- For each way whether it is gone backwards. -/
  reversed : List Bool := []
  deriving Repr

/-- How an index gives a wanted order, column by column. -/
structure Following where
  given : List Bool
  apart : Bool
  /-- The direction, once it is known: whether the index is gone backwards. -/
  backwards : Option Bool := none
  /-- Whether the row number was wanted. -/
  numbered : Bool := false
  deriving Repr

namespace Giving

def isDone (g : Giving) : Bool := g.given.all id

/-- The relations that bind a column to one value. Where only the front is needed, each of
several values counts as one. -/
def binds (several : Bool) : Relation → Bool
  | .equal => true
  | .null => true
  | .among _ => several
  | _ => false

/-- Whether the condition binds a column to one value, or to one of the rows outside. -/
def isBound (o : Outline) (several : Bool) (outside : List Side) (w : Way) (c : SidePlace) :
    Bool :=
  let found := (o.allBoundsOf o.terms c).filter fun (_, b) =>
    binds several b.relation && (b.partner.map fun p => outside.contains p.side).getD true
  let used (t : Term) (b : Bound) : Bool :=
    match b.relation with
    | .among _ => w.ties.any fun tie => tie.part == t.part && tie.derived == t.derived
    | _ => true
  let preferred := found.find? fun (_, b) => b.relation == .equal && b.partner.isNone
  match preferred.or found.head? with
  | some (t, b) => used t b
  | none => false

/-- Wanted columns as given or not, with those that satisfy a test given. -/
def marking (g : Giving) (given : List Bool) (test : SidePlace → Bool) : List Bool :=
  (g.wanted.columns.zip given).map fun ((c, _), is) => is || test c

/-- The wanted column that a column of an index can give next: any that is not given, or
only the first of these. -/
def next? (g : Giving) (given : List Bool) (column : SidePlace) : Option (Nat × Direction) :=
  let missing := ((g.wanted.columns.zip given).zipIdx).filter fun ((_, is), _) => !is
  let allowed := if g.wanted.isLoose then missing else missing.take 1
  (allowed.find? fun (((c, _), _), _) => c == column).map fun (((_, d), _), n) => (n, d)

def follow (g : Giving) (t : Definition) (i : Index) (several : Bool) (w : Way) :
    Nat → List CellPlace → Following → Following
  | _, [], f => f
  | n, place :: rest, f =>
      let relation := if n < w.equals then (w.ties[n]?).map (·.relation) else none
      if (relation.map (binds several)).getD false then
        let asksNull := relation == some .null
        follow g t i several w (n + 1) rest { f with apart := f.apart && !asksNull }
      else
        let f := { f with apart := f.apart && !(w.equals ≤ n && t.canBeNull place) }
        let inKey := n == 0 || (i.kind != .numbers && n < i.keyLength)
        let ends := { f with apart := f.apart && !inKey }
        match g.next? f.given ⟨w.side, place⟩ with
        | none => ends
        | some (position, direction) =>
            let back := (direction == .descending) != (n == 0 && i.descending)
            let fitting := g.wanted.purpose == .groups || f.backwards.all (· == back)
            if !fitting || (g.wanted.nullsLast && n != w.equals) then ends
            else
              let backwards :=
                if g.wanted.purpose == .groups then f.backwards else f.backwards.or (some back)
              follow g t i several w (n + 1) rest
                { f with
                  given := f.given.set position true
                  backwards
                  numbered := f.numbered || place == .number }

/-- What a further way inside gives; nothing if it has no order of its own. -/
def step (o : Outline) (several : Bool) (g : Giving) (w : Way) : Option Giving :=
  let given := g.marking g.given fun c => c.side == w.side && isBound o several g.outside w c
  let close (given : List Bool) (apart backwards : Bool) : Giving :=
    let settled := if apart then w.side :: g.settled else g.settled
    let given := if apart then g.marking given fun c => settled.contains c.side else given
    { g with
      given
      apart
      settled
      outside := w.side :: g.outside
      reversed := g.reversed ++ [backwards] }
  if w.single then some (close given g.apart false)
  else
    match w.index?, o.tableUse? w.side with
    | some i, some t =>
        if i.kind = .made then none
        else
          let f := follow g t.definition i several w 0 i.places { given, apart := g.apart }
          some (close f.given (f.apart || f.numbered) (f.backwards.getD false))
    | _, _ => none

/-- What several ways give, the outermost first, until all is given or the rows so far do
not differ. -/
def steps (o : Outline) (several : Bool) : Giving → List Way → Option Giving
  | g, [] => some g
  | g, w :: rest =>
      if g.isDone || !g.apart then some g
      else (g.step o several w).bind fun g => steps o several g rest

end Giving

/-- How many wanted columns a route gives, from the first one on, and which of its ways are
gone backwards; the number is missing if further ways could give more. -/
structure Given where
  count : Option Nat
  reversed : List Bool
  deriving Repr

namespace Outline

def given (o : Outline) (wanted : Wanted) (several : Bool) (ways : List Way) : Given :=
  let start : Giving := { wanted, given := wanted.columns.map fun _ => false }
  match start.steps o several ways with
  | none => ⟨some 0, []⟩
  | some g =>
      let leading := (g.given.takeWhile id).length
      if g.isDone then ⟨some wanted.columns.length, g.reversed⟩
      else if g.apart then ⟨none, g.reversed⟩
      else ⟨some leading, g.reversed⟩

end Outline

end TableAccess

import TableAccess.Store.Route.Outline

/-!
# Ways

The ways to visit the rows of one table: all entries of an index, or those within bounds
that the condition sets. Each way is estimated by what it costs and by how many rows it
gives for one row of the other table.
-/

namespace TableAccess

structure Tie where
  part : Nat
  derived : Bool
  relation : Relation
  deriving DecidableEq, Repr

inductive Method where
  | index (i : Index)
  /-- The alternatives of a part, one after the other. -/
  | alternatives (part : Nat)
  deriving DecidableEq, Repr

structure Way where
  side : Side
  method : Method
  ties : List Tie := []
  /-- How many places of the index are bound to single values. -/
  equals : Nat := 0
  /-- Whether a row of the other table has to be at hand. -/
  needs : Bool := false
  /-- Whether the entries of the index are enough. -/
  covering : Bool := false
  /-- Whether there is at most one row. -/
  single : Bool := false
  /-- The rank of an index that may give a wanted order; zero for others. -/
  rank : Nat := 0
  setup : Estimate := 0
  run : Estimate
  rows : Estimate
  deriving DecidableEq, Repr

namespace Way

def index? (w : Way) : Option Index :=
  match w.method with
  | .index i => some i
  | .alternatives _ => none

def goesBy (w : Way) (kind : IndexKind) : Bool :=
  (w.index?.map fun i => i.kind == kind).getD false

def goesByKey (w : Way) : Bool := w.goesBy .primaryKey || w.goesBy .key

def isMade (w : Way) : Bool := w.goesBy .made

def isBounded (w : Way) : Bool := w.index?.isSome && !w.isMade && !w.ties.isEmpty

def uses (w : Way) (test : Relation → Bool) : Bool :=
  w.isBounded && w.ties.any fun t => test t.relation

/-- A way with fewer rows for the parts of the condition that it makes no use of; one
equality among them leaves a quarter of the rows of the table at most. -/
def thinned (w : Way) (o : Outline) (own : List Term) : Way :=
  let left := own.filter fun t =>
    !t.derived && t.concerns w.side && (w.needs || o.within || !t.concerns w.side.other)
      && !w.ties.any fun tie => tie.part == t.part
  let most := if left.any Term.isEquality then Definition.estimatedRows - 20
    else Definition.estimatedRows
  { w with rows := min (w.rows - (left.length : Int)) most }

end Way

structure Stretch where
  ties : List Tie := []
  equals : Nat := 0
  needs : Bool
  single : Bool := false
  /-- The rows for one choice of values. -/
  rows : Estimate := Definition.estimatedRows
  /-- The number of choices of values. -/
  choices : Estimate := 0
  deriving Repr

def Stretch.between (rows : Estimate) (relations : List Relation) : Estimate :=
  let narrowing := relations.filter (· != .present)
  let narrowed := rows - 20 * (narrowing.length : Int) - if relations.length = 2 then 20 else 0
  min (rows - (relations.length : Int)) (max narrowed 10)

structure Survey where
  outline : Outline
  side : Side
  tableUse : TableUse
  /-- The terms that may bound columns. -/
  terms : List Term
  /-- The terms whose parts make rows fewer. -/
  own : List Term
  /-- Whether rows are only visited for a row of the other table. -/
  needs : Bool

namespace Survey

def mayOrder (s : Survey) (i : Index) : Bool :=
  (s.outline.wanted.map fun wanted => wanted.columns.any fun (c, _) =>
    c.side == s.side && (c.place == .number || i.key.contains c.place)).getD false

/-- Whether the entries of an index are enough. A statement that shows nothing needs the
rows of a table that does not number them. -/
def isCovering (s : Survey) (i : Index) : Bool :=
  i.whole || (i.covers s.tableUse.used
    && (!s.tableUse.definition.withoutRowid || !(s.outline.changes || s.outline.within)))

def entryCost (s : Survey) (i : Index) (rows : Estimate) : Estimate :=
  if i.kind = .numbers then rows + 16
  else rows + 1 + (15 * i.width) / s.tableUse.definition.rowWidth

/-- The cost of finding all rows from their entries, less what the parts of the condition
spare that the entries can decide. -/
def lookupCost (s : Survey) (i : Index) : Estimate :=
  let decided := s.outline.terms.takeWhile fun t => t.mentions.all fun m =>
    m.side != s.side || i.places.contains m.place
  let spared := decided.map fun t => if t.isEquality then 20 else 1
  Definition.estimatedRows + 16 - spared.foldr (· + ·) 0

def wayBy (s : Survey) (rank : Nat) (i : Index) (run rows : Estimate) : Way where
  side := s.side
  method := .index i
  needs := s.needs
  covering := s.isCovering i
  rank := if s.mayOrder i then rank else 0
  run
  rows

def through? (s : Survey) (rank : Nat) (i : Index) : Option Way :=
  let rows := Definition.estimatedRows
  let covers := i.covers s.tableUse.used
  let useful := i.kind == .numbers || s.mayOrder i || s.tableUse.definition.withoutRowid
    || (covers && i.width < s.tableUse.definition.rowWidth && !s.outline.changes)
  let entries := s.entryCost i rows
  let run := if i.kind = .numbers || covers then entries else entries.plus (s.lookupCost i)
  if useful then some ((s.wayBy rank i run rows).thinned s.outline s.own) else none

def along (s : Survey) (rank : Nat) (i : Index) (stretch : Stretch) : Way :=
  let entries := (Estimate.search Definition.estimatedRows).plus (s.entryCost i stretch.rows)
  let run :=
    if i.kind = .numbers || s.isCovering i then entries else entries.plus (stretch.rows + 16)
  let way := s.wayBy rank i (run + stretch.choices) (stretch.rows + stretch.choices)
  { way with
    ties := stretch.ties
    equals := stretch.equals
    needs := stretch.needs
    single := stretch.single }.thinned s.outline s.own

/-- Whether a term can bound the next place of an index. -/
def admits (s : Survey) (place : CellPlace) (b : Bound) : Bool :=
  let asksNull := b.relation == .null || b.relation == .present
  (b.partner.map fun p => p.side != s.side).getD true
    && !(asksNull && !s.tableUse.definition.canBeNull place)

def tied (s : Survey) (stretch : Stretch) (t : Term) (b : Bound) : Stretch :=
  { stretch with
    ties := stretch.ties ++ [⟨t.part, t.derived, b.relation⟩]
    needs := stretch.needs || s.outline.asksFor b }

/-- A stretch in which one more place is bound to single values. -/
def fixed (s : Survey) (i : Index) (stretch : Stretch) (t : Term) (b : Bound) : Stretch :=
  let equals := stretch.equals + 1
  let choices := match b.relation with
    | .among count => .ofCount count
    | _ => 0
  let findsRow := i.kind == .numbers || i.keyLength < equals
  let findsKey := stretch.choices == 0 && equals == i.keyLength
    && (i.strict || i.keyLength == 1)
  { s.tied stretch t b with
    equals
    single := stretch.single || (b.relation == .equal && (findsRow || findsKey))
    rows := stretch.rows + i.rows equals - i.rows stretch.equals
      + if b.relation = .null then 10 else 0
    choices := stretch.choices + choices }

/-- The stretches within bounds of a place: from a lower bound on, from there to an upper
one, or up to an upper one. -/
def ranged (s : Survey) (place : CellPlace) (stretch : Stretch) (t : Term) (b : Bound) :
    List Stretch :=
  let first := { s.tied stretch t b with rows := Stretch.between stretch.rows [b.relation] }
  if b.relation = .below then [first]
  else
    let uppers := (s.outline.boundsOf s.terms ⟨s.side, place⟩).filter fun (_, upper) =>
      upper.relation == .below && s.admits place upper
    first :: uppers.map fun (later, upper) =>
      { s.tied (s.tied stretch t b) later upper with
        rows := Stretch.between stretch.rows [b.relation, upper.relation] }

/-- The stretches of an index that follow from a stretch by bounding further places. -/
def stretches (s : Survey) (i : Index) (stretch : Stretch) : List CellPlace → List Stretch
  | [] => []
  | place :: rest =>
      let bounds := s.outline.boundsOf s.terms ⟨s.side, place⟩
      (bounds.filter fun (_, b) => s.admits place b).flatMap fun (t, b) =>
        match b.relation with
        | .above | .below | .present => s.ranged place stretch t b
        | _ =>
            let next := s.fixed i stretch t b
            let ends := i.kind == .primaryKey && next.equals == i.keyLength
            next :: if ends then [] else stretches s i next rest

def waysBy (s : Survey) (rank : Nat) (i : Index) : List Way :=
  (s.through? rank i).toList
    ++ (s.stretches i { needs := s.needs } i.places).map (s.along rank i)

/-- The terms by which entries could be made: equalities of columns that no index of the
table begins with. -/
def making (s : Survey) : List (Term × Bound) :=
  s.own.filterMap fun t => t.bound.bind fun b =>
    let begins := s.tableUse.definition.indexes.any fun i =>
      i.places.head? == some b.column.place
    if b.column.side = s.side ∧ b.relation = .equal ∧ b.column.place ≠ .number
        ∧ begins = false ∧ s.outline.fits b.column b = true then some (t, b)
    else none

/-- The index that would be made: of the bound columns, the other cells that are looked
at, and the row number. -/
def madeIndex (s : Survey) : Index :=
  let key := (s.making.map fun (_, b) => b.column.place).eraseDups
  let rest := s.tableUse.definition.cellPlaces.filter fun place =>
    s.tableUse.used.contains place && !key.contains place
  { kind := .made
    places := key ++ rest ++ [.number]
    keyLength := key.length
    width := 0 }

def madeWays (s : Survey) : List Way :=
  if s.outline.within || s.tableUse.definition.withoutRowid then []
  else
    let search := Estimate.search Definition.estimatedRows
    s.making.map fun (t, b) =>
      { s.wayBy 0 s.madeIndex (search.plus 43) 43 with
        ties := [⟨t.part, t.derived, b.relation⟩]
        needs := s.needs || s.outline.asksFor b
        setup := search + Definition.estimatedRows + 28 }

def indexWays (s : Survey) : List Way :=
  s.tableUse.definition.indexes.zipIdx.flatMap fun (i, n) => s.waysBy (n + 1) i

end Survey

end TableAccess

import TableAccess.Store.Route.Way

/-!
# Choices

Of the ways to visit a table those are kept that no other one beats in every respect. A
disjunction is visited alternative by alternative if each of them has a way by an index.
-/

namespace TableAccess

namespace Way

/-- Whether a way makes use of fewer terms than another one, all of which that one uses
too, without costing more in every respect. -/
def isSubsumed (fewer more : Way) : Bool :=
  fewer.ties.length < more.ties.length
    && !(more.run < fewer.run && more.rows < fewer.rows)
    && fewer.ties.all more.ties.contains
    && !(fewer.covering && !more.covering)

/-- A way by a key with its estimates set right beside ways by keys of the same table: to
make use of more terms is never worse. -/
def adjusted (known : List Way) (w : Way) : Way :=
  if !w.goesByKey then w
  else known.foldl (fun w p =>
    if p.side ≠ w.side || !p.goesByKey then w
    else if p.isSubsumed w then { w with run := min p.run w.run, rows := min (p.rows - 1) w.rows }
    else if w.isSubsumed p then { w with run := max p.run w.run, rows := max (p.rows + 1) w.rows }
    else w) w

inductive Standing where
  | apart
  | beaten
  | better
  deriving DecidableEq, Repr

/-- How a new way stands to a known one: ways of different tables or ranks are kept apart. -/
def standing (known new : Way) : Standing :=
  let asksMore (a b : Way) : Bool := a.needs && !b.needs
  if known.side ≠ new.side || known.rank ≠ new.rank then .apart
  else if known.isMade && new.goesByKey && new.uses (· == .equal) && !asksMore new known then
    .better
  else if !asksMore known new && known.setup ≤ new.setup && known.run ≤ new.run
      && known.rows ≤ new.rows then .beaten
  else if !asksMore new known && new.run ≤ known.run && new.rows ≤ known.rows then .better
  else .apart

/-- Known ways without those that a new one beats, up to one that beats it. -/
def pruned (new : Way) : List Way → List Way
  | [] => []
  | known :: rest =>
      match known.standing new with
      | .apart => known :: pruned new rest
      | .beaten => known :: rest
      | .better => pruned new rest

/-- Known ways with a new one in the place of the first that it beats, or at the end;
nothing if it is beaten before. -/
def placed? (new : Way) : List Way → Option (List Way)
  | [] => some [new]
  | known :: rest =>
      match known.standing new with
      | .apart => (placed? new rest).map (known :: ·)
      | .beaten => none
      | .better => some (new :: pruned new rest)

def keep (known : List Way) (new : Way) : List Way :=
  ((new.adjusted known).placed? known).getD known

end Way

structure AlternativeCost where
  needs : Bool
  run : Estimate
  rows : Estimate
  deriving DecidableEq, Repr

namespace AlternativeCost

def isBest (a b : AlternativeCost) : Bool := a.run ≤ b.run && (b.needs || !a.needs)

def keep (new : AlternativeCost) : List AlternativeCost → List AlternativeCost
  | [] => [new]
  | known :: rest =>
      if new.isBest known then { new with rows := min known.rows new.rows } :: rest
      else if known.isBest new then known :: rest
      else known :: keep new rest

def both (a b : AlternativeCost) : AlternativeCost :=
  ⟨a.needs || b.needs, a.run.plus b.run, a.rows.plus b.rows⟩

/-- The costs of visiting one of several and one of several others. -/
def all (first second : List AlternativeCost) : List AlternativeCost :=
  (first.flatMap fun a => second.map a.both).foldl (fun costs c => keep c costs) []

end AlternativeCost

namespace Survey

def alternativeTerms (s : Survey) (alternative : Predicate) : List Term :=
  let number := (s.terms.map (·.part)).foldl max 0 + 1
  s.outline.termsFrom number (alternative.conjuncts.map (.condition s.side))

/-- Whether each alternative of a term bounds a column of the table. -/
def canChoose (s : Survey) (t : Term) : Bool :=
  !t.alternatives.isEmpty && t.concerns s.side && t.alternatives.all fun alternative =>
    (s.alternativeTerms alternative).any fun own => own.bound.isSome

/-- The ways by alternatives, each estimated by the ways of the alternatives. The number
bounds how deep alternatives are nested. -/
def alternativeWays (s : Survey) (known : List Way) : Nat → List Way
  | 0 => []
  | depth + 1 =>
      (s.own.filter s.canChoose).flatMap fun t =>
        let costs := t.alternatives.map fun alternative =>
          let terms := s.alternativeTerms alternative
          let inner := { s with terms := terms ++ s.terms, own := terms }
          let ways := inner.indexWays ++ alternativeWays inner known depth
          ((ways.filter fun w => !w.ties.isEmpty).map fun w =>
            let w := w.adjusted known
            (⟨w.needs, w.run, w.rows⟩ : AlternativeCost)).foldl
              (fun costs c => AlternativeCost.keep c costs) []
        let total := match costs with
          | [] => []
          | first :: rest => rest.foldl AlternativeCost.all first
        total.map fun c =>
          { side := s.side
            method := .alternatives t.part
            ties := [⟨t.part, t.derived, .present⟩]
            needs := c.needs
            run := c.run + 1
            rows := c.rows }

end Survey

namespace Outline

def choices (o : Outline) : Nat :=
  (o.parts.map fun
    | .condition _ p => p.choices
    | .join .. => 0).foldr (· + ·) 0

def survey (o : Outline) (side : Side) (tableUse : TableUse) : Survey :=
  { outline := o
    side
    tableUse
    terms := o.terms
    own := o.terms
    needs := tableUse.optional && !o.within }

def waysOf (o : Outline) (known : List Way) (side : Side) : List Way :=
  match o.tableUse? side with
  | none => known
  | some tableUse =>
      let s := o.survey side tableUse
      let byIndex := (s.madeWays ++ s.indexWays).foldl Way.keep known
      (s.alternativeWays byIndex o.choices).foldl Way.keep byIndex

def ways (o : Outline) : List Way := o.waysOf (o.waysOf [] .first) .second

end Outline

end TableAccess

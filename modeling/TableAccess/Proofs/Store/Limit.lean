import TableAccess.Store.Read

/-!
# Limits and routes

The limit of a query counts only where its rows are to be sorted: a small limit makes sorting
cheaper, so that it may be preferred to a route that gives the order by itself. A query that wants
no order visits its tables in the same way whatever its limit is.
-/

namespace TableAccess

def Outline.limited (o : Outline) (limit : Option Nat) : Outline := { o with limit }

def Survey.limited (s : Survey) (limit : Option Nat) : Survey :=
  { s with outline := s.outline.limited limit }

variable {limit : Option Nat}

/-! ## Ways -/

namespace Survey

theorem stretches_limited (s : Survey) (i : Index) (places : List CellPlace) (stretch : Stretch) :
    (s.limited limit).stretches i stretch places = s.stretches i stretch places := by
  induction places generalizing stretch with
  | nil => rfl
  | cons place rest ih =>
      simp only [stretches, ih]
      rfl

theorem indexWays_limited (s : Survey) : (s.limited limit).indexWays = s.indexWays := by
  simp only [indexWays, waysBy, stretches_limited]
  rfl

theorem alternativeWays_limited (known : List Way) (depth : Nat) (s : Survey) :
    (s.limited limit).alternativeWays known depth = s.alternativeWays known depth := by
  induction depth generalizing s with
  | zero => rfl
  | succ depth ih =>
      have inner (terms : List Term) :
          ({ s.limited limit with terms := terms ++ s.terms, own := terms } : Survey) =
            ({ s with terms := terms ++ s.terms, own := terms } : Survey).limited limit := rfl
      have termsOf (alternative : Predicate) : (s.limited limit).alternativeTerms alternative =
        s.alternativeTerms alternative := rfl
      have own : (s.limited limit).terms = s.terms := rfl
      simp only [alternativeWays, termsOf, own, inner, ih, indexWays_limited]
      rfl

end Survey

namespace Outline

variable (o : Outline)

theorem waysOf_limited (known : List Way) (side : Side) :
    (o.limited limit).waysOf known side = o.waysOf known side := by
  have survey (tableUse : TableUse) :
      (o.limited limit).survey side tableUse = (o.survey side tableUse).limited limit := rfl
  have tableUse? : (o.limited limit).tableUse? side = o.tableUse? side := by cases side <;> rfl
  unfold waysOf
  rw [tableUse?]
  cases o.tableUse? side with
  | none => rfl
  | some tableUse =>
      simp only [survey, Survey.indexWays_limited, Survey.alternativeWays_limited]
      rfl

theorem ways_limited : (o.limited limit).ways = o.ways := by
  simp only [ways, waysOf_limited]

theorem visit_limited (outside : List Side) (rows : Estimate) (w : Way) (backwards : Bool)
    (depth : Nat) : (o.limited limit).visit outside rows w backwards depth =
      o.visit outside rows w backwards depth := by
  cases depth with
  | zero => rfl
  | succ depth =>
      have tableUse? : (o.limited limit).tableUse? w.side = o.tableUse? w.side := by
        cases w.side <;> rfl
      have terms : (o.limited limit).terms = o.terms := rfl
      have inner (side : Side) (tableUse : TableUse) (part : Nat) (alternative : Predicate) :
          (o.limited limit).inner outside side tableUse part alternative =
            o.inner outside side tableUse part alternative := rfl
      simp only [visit, tableUse?, terms, inner]

/-- The route of a statement that wants no order does not depend on its limit. -/
theorem itinerary_limited (unsorted : o.wanted = none) :
    (o.limited limit).itinerary = o.itinerary := by
  have unsorted' : (o.limited limit).wanted = none := unsorted
  have route : (o.limited limit).route? 0 = o.route? 0 := by
    unfold route?
    rw [unsorted, unsorted', ways_limited]
    rfl
  unfold itinerary turned
  rw [unsorted, unsorted', route]
  simp only [visit_limited]
  rfl

end Outline

end TableAccess

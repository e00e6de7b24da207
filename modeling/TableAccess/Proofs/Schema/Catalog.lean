import TableAccess.Proofs.Schema.Snapshot
import TableAccess.Schema.Catalog

/-!
# Runs of a catalog

A catalog is used in steps: a snapshot is put in force, a discovery is tried, or somebody takes the
snapshot in force and keeps it. Only a snapshot that is put in force or discovered changes the
catalog, and the generation counts exactly those; what was taken stays what it was.
-/

namespace TableAccess.Catalog

inductive Step where
  /-- Puts a snapshot in force. -/
  | replace (s : Snapshot)
  /-- Tries a discovery and puts what it finds in force. -/
  | reload (discovered : Except Error Snapshot)
  /-- Takes the snapshot in force. -/
  | take

/-- A catalog, and the snapshots that were taken from it in the order of their taking. -/
structure Holders where
  catalog : Catalog
  taken : List Snapshot

namespace Step

/-- The snapshot that the step puts in force. -/
def installed? : Step → Option Snapshot
  | replace s => some s
  | reload (.ok s) => some s
  | reload (.error _) => none
  | take => none

/-- What the step reports: the error of its discovery, if that failed. -/
def verdict : Step → Except Error Unit
  | reload (.error e) => .error e
  | _ => .ok ()

def isTake : Step → Bool
  | take => true
  | _ => false

def act : Step → Holders → Except Error Unit × Holders
  | replace s, h => (.ok (), { h with catalog := h.catalog.replace s })
  | reload discovered, h =>
      let (outcome, catalog) := h.catalog.reload discovered
      (outcome, { h with catalog })
  | take, h => (.ok (), { h with taken := h.taken ++ [h.catalog.current] })

/-! ## One step -/

variable (step : Step) (h : Holders)

theorem act_verdict : (step.act h).1 = step.verdict := by
  rcases step with s | (e | s) | _ <;> rfl

theorem act_catalog :
    (step.act h).2.catalog = step.installed?.toList.foldl Catalog.replace h.catalog := by
  rcases step with s | (e | s) | _ <;> rfl

theorem act_taken :
    (step.act h).2.taken = h.taken ++ if step.isTake then [h.catalog.current] else [] := by
  rcases step with s | (e | s) | _
  · exact (List.append_nil _).symm
  · exact (List.append_nil _).symm
  · exact (List.append_nil _).symm
  · rfl

end Step

namespace Holders

def of (c : Catalog) : Holders := ⟨c, []⟩

/-- Does steps in order; the reports come with what the steps leave. -/
def run : List Step → Holders → List (Except Error Unit) × Holders
  | [], h => ([], h)
  | step :: rest, h =>
      let (report, next) := step.act h
      let (reports, last) := run rest next
      (report :: reports, last)

def reports (h : Holders) (steps : List Step) : List (Except Error Unit) := (run steps h).1

def after (h : Holders) (steps : List Step) : Holders := (run steps h).2

/-! ## Whole runs -/

variable (h : Holders) (steps : List Step)

theorem reports_eq : h.reports steps = steps.map Step.verdict := by
  induction steps generalizing h with
  | nil => rfl
  | cons step rest ih => exact congrArg₂ List.cons (step.act_verdict h) (ih (step.act h).2)

theorem after_cons (step : Step) (rest : List Step) :
    h.after (step :: rest) = (step.act h).2.after rest := rfl

theorem after_append (before rest : List Step) :
    h.after (before ++ rest) = (h.after before).after rest := by
  induction before generalizing h with
  | nil => rfl
  | cons step before ih => exact ih (step.act h).2

theorem after_catalog :
    (h.after steps).catalog = (steps.filterMap Step.installed?).foldl replace h.catalog := by
  induction steps generalizing h with
  | nil => rfl
  | cons step rest ih =>
      rw [after_cons, ih, Step.act_catalog, ← List.foldl_append]
      cases found : step.installed? with
      | none => rw [List.filterMap_cons_none found]; rfl
      | some s => rw [List.filterMap_cons_some found]; rfl

/-- Later steps add to what was taken, and leave what is there. -/
theorem after_taken :
    ∃ more, (h.after steps).taken = h.taken ++ more ∧ more.length = steps.countP Step.isTake := by
  induction steps generalizing h with
  | nil => exact ⟨[], (List.append_nil _).symm, rfl⟩
  | cons step rest ih =>
      obtain ⟨more, kept, counted⟩ := ih (step.act h).2
      rw [Step.act_taken, List.append_assoc] at kept
      refine ⟨_, kept, ?_⟩
      rw [List.length_append, counted, List.countP_cons, Nat.add_comm]
      cases step.isTake <;> rfl

end Holders

theorem generation_foldl_replace (c : Catalog) (installed : List Snapshot) :
    (installed.foldl replace c).generation = c.generation + installed.length := by
  induction installed generalizing c with
  | nil => rfl
  | cons s rest ih =>
      rw [List.foldl_cons, ih, List.length_cons, Nat.add_comm rest.length, ← Nat.add_assoc]
      rfl

theorem current_foldl_replace (c : Catalog) (installed : List Snapshot) :
    (installed.foldl replace c).current = installed.getLastD c.current := by
  induction installed generalizing c with
  | nil => rfl
  | cons s rest ih =>
      rw [List.foldl_cons, ih, List.getLastD_cons]
      rfl

/-- The snapshots of a catalog are replaced whole or not at all. Whatever steps are done, the
generation is the number of snapshots that were put in force, and the last of them is in force; a
discovery that fails reports its error and changes nothing; what was taken stays the snapshot that
was in force at the time. And a snapshot shows the tables of the list it was made of, the last one
of each name. -/
theorem replaced_whole_or_not (first : Snapshot) (steps : List Step) :
    let start := Holders.of (.ofSnapshot first)
    let installed := steps.filterMap Step.installed?
    ((start.after steps).catalog.generation = installed.length ∧
      (start.after steps).catalog.current = installed.getLastD first) ∧
    start.reports steps = steps.map Step.verdict ∧
    (∀ before e later,
      (start.reports (before ++ .reload (.error e) :: later))[before.length]? = some (.error e) ∧
        start.after (before ++ [.reload (.error e)]) = start.after before) ∧
    ((start.after steps).taken.length = steps.countP Step.isTake ∧
      ∀ before later, (start.after (before ++ .take :: later)).taken[before.countP Step.isTake]? =
        some (start.after before).catalog.current) ∧
    ∀ tables, (Snapshot.ofList tables).Shows tables := by
  intro start installed
  have takes (list : List Step) : (start.after list).taken.length = list.countP Step.isTake := by
    obtain ⟨more, kept, counted⟩ := start.after_taken list
    rw [kept, List.length_append, counted]
    exact Nat.zero_add _
  refine ⟨⟨?_, ?_⟩, start.reports_eq steps, fun before e later => ⟨?_, ?_⟩,
    ⟨takes steps, fun before later => ?_⟩, Snapshot.shows_ofList⟩
  · rw [Holders.after_catalog, generation_foldl_replace]
    exact Nat.zero_add _
  · rw [Holders.after_catalog, current_foldl_replace]
    rfl
  · rw [Holders.reports_eq, List.map_append, List.getElem?_append_right (by simp)]
    simp [Step.verdict]
  · rw [Holders.after_append]
    rfl
  · obtain ⟨more, kept, -⟩ := (Step.take.act (start.after before)).2.after_taken later
    rw [Holders.after_append, Holders.after_cons, kept, Step.act_taken, List.append_assoc,
      ← takes before]
    rw [List.getElem?_append_right (Nat.le_refl _), Nat.sub_self]
    rfl

end TableAccess.Catalog

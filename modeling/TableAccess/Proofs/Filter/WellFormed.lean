import TableAccess.Proofs.Predicate.Compilation
import TableAccess.Proofs.Predicate.Folding

/-!
# Well-formed filters

What a filter has to look like to be accepted, and everything that can be wrong with it,
from left to right and inside out. Compilation accepts exactly the well-formed filters,
and refuses the others with the first of their defects; that an entry would have been
folded away is no excuse for it.
-/

namespace TableAccess

def Operator.shape (op : Operator) : Shape := if op.takesList then .list else .scalar

/-- A plain entry is accepted if its key names a column and its value has the form that
the operator takes. -/
def Table.Accepts (t : Table) (key : String) (given : FilterValue) : Prop :=
  ∃ field op, t.parseKey key = .ok (field, op) ∧ given.shape = op.shape

namespace Filter

/-- Whether every entry is a group without members, so that nothing is asked for. -/
def isVacuous (f : Filter) : Bool :=
  f.toList.all fun
    | (key, .group []) => key == orKey
    | _ => false

/-- A filter is well formed if its plain entries are accepted, and its groups are groups,
of well-formed filters that ask for something. -/
inductive WellFormed (t : Table) : Filter → Prop where
  | entries {list : List (String × FilterValue)}
      (plain : ∀ key given, (key, given) ∈ list → key ≠ orKey → t.Accepts key given)
      (grouped : ∀ given, (orKey, given) ∈ list → given.shape = .group)
      (formed : ∀ members, (orKey, .group members) ∈ list →
        ∀ member ∈ members, WellFormed t member)
      (asking : ∀ members, (orKey, .group members) ∈ list →
        ∀ member ∈ members, member.isVacuous = false) :
      WellFormed t (.entries list)

/-! ## Defects -/

/-- What is wrong with a plain entry: its key, or else the form of its value. -/
def plainDefects (t : Table) (key : String) (given : FilterValue) : List Error :=
  match t.parseKey key with
  | .error e => [e]
  | .ok (_, op) => if given.shape = op.shape then [] else [wrongShape key op.shape given]

mutual

/-- What is wrong with a filter, from left to right. -/
def defects (t : Table) : Filter → List Error
  | .entries list => entryDefects t list

def entryDefects (t : Table) : List (String × FilterValue) → List Error
  | [] => []
  | (key, given) :: rest => valueDefects t key given ++ entryDefects t rest

def valueDefects (t : Table) (key : String) : FilterValue → List Error
  | .group members =>
      if key = orKey then memberDefects t members else plainDefects t key (.group members)
  | .scalar v =>
      if key = orKey then [wrongShape orKey .group (.scalar v)] else plainDefects t key (.scalar v)
  | .list vs =>
      if key = orKey then [wrongShape orKey .group (.list vs)] else plainDefects t key (.list vs)

/-- What is wrong with the members of a group; a vacuous one is a defect of its own. -/
def memberDefects (t : Table) : List Filter → List Error
  | [] => []
  | member :: rest =>
      defects t member ++ (if member.isVacuous then [vacuousMember] else [])
        ++ memberDefects t rest

end

/-! ## Filters without defects -/

/-- Induction on filters: what passes from the members of its groups to a filter holds of
every filter. -/
theorem nested_induction {motive : Filter → Prop}
    (entries : ∀ list : List (String × FilterValue),
      (∀ key members, (key, .group members) ∈ list → ∀ member ∈ members, motive member) →
        motive (.entries list))
    (f : Filter) : motive f := by
  refine @Filter.rec
    (fun given => ∀ members, given = .group members → ∀ member ∈ members, motive member)
    motive
    (fun members => ∀ member ∈ members, motive member)
    (fun list => ∀ key members, (key, .group members) ∈ list → ∀ member ∈ members, motive member)
    (fun entry => ∀ members, entry.2 = .group members → ∀ member ∈ members, motive member)
    ?scalar ?list ?group entries ?noMember ?member ?noEntry ?entry (fun _ _ ih => ih) f
  case scalar => exact fun _ _ same => nomatch same
  case list => exact fun _ _ same => nomatch same
  case group =>
    rintro members ih _ ⟨⟩
    exact ih
  case noMember => exact fun _ found => nomatch found
  case member => exact fun _ _ first later => List.forall_mem_cons.mpr ⟨first, later⟩
  case noEntry => exact fun _ _ found => nomatch found
  case entry =>
    intro head rest first later key members found
    rcases List.mem_cons.mp found with rfl | found
    · exact first members rfl
    · exact later key members found

variable {t : Table}

theorem plainDefects_eq_nil_iff {key : String} {given : FilterValue} :
    plainDefects t key given = [] ↔ t.Accepts key given := by
  unfold plainDefects Table.Accepts
  cases t.parseKey key with
  | error e => simp
  | ok read =>
      obtain ⟨field, op⟩ := read
      simp

theorem valueDefects_of_ne {key : String} (different : key ≠ orKey) (given : FilterValue) :
    valueDefects t key given = plainDefects t key given := by
  cases given with
  | scalar v => rw [valueDefects, if_neg different]
  | list vs => rw [valueDefects, if_neg different]
  | group members => rw [valueDefects, if_neg different]

theorem entryDefects_eq_nil_iff {list : List (String × FilterValue)} :
    entryDefects t list = [] ↔ ∀ entry ∈ list, valueDefects t entry.1 entry.2 = [] := by
  induction list with
  | nil => simp [entryDefects]
  | cons head rest ih => rw [entryDefects, List.append_eq_nil_iff, ih, List.forall_mem_cons]

theorem memberDefects_eq_nil_iff {members : List Filter} :
    memberDefects t members = [] ↔
      ∀ member ∈ members, member.defects t = [] ∧ member.isVacuous = false := by
  induction members with
  | nil => simp [memberDefects]
  | cons head rest ih =>
      rw [memberDefects, List.append_eq_nil_iff, List.append_eq_nil_iff, ih, List.forall_mem_cons]
      simp

/-- Nothing is wrong with a well-formed filter. -/
theorem WellFormed.defects_eq_nil {f : Filter} (formed : f.WellFormed t) : f.defects t = [] := by
  induction formed with
  | @entries list plain grouped _ asking ih =>
      refine entryDefects_eq_nil_iff.mpr ?_
      rintro ⟨key, given⟩ found
      by_cases group : key = orKey
      · subst group
        have shape := grouped given found
        cases given with
        | group members =>
            rw [valueDefects, if_pos rfl, memberDefects_eq_nil_iff]
            exact fun member inside =>
              ⟨ih members found member inside, asking members found member inside⟩
        | scalar v => cases shape
        | list vs => cases shape
      · rw [valueDefects_of_ne group]
        exact plainDefects_eq_nil_iff.mpr (plain key given found group)

/-- A filter with which nothing is wrong is well formed. -/
theorem wellFormed_of_defects_eq_nil {f : Filter} (sound : f.defects t = []) : f.WellFormed t := by
  induction f using nested_induction with
  | entries list ih =>
      have each := entryDefects_eq_nil_iff.mp sound
      have inside (members : List Filter) (found : (orKey, .group members) ∈ list) :
          ∀ member ∈ members, member.defects t = [] ∧ member.isVacuous = false := by
        have none := each _ found
        rw [valueDefects, if_pos rfl] at none
        exact memberDefects_eq_nil_iff.mp none
      refine .entries ?plain ?grouped ?formed ?asking
      case plain =>
        intro key given found different
        have none := each _ found
        rw [valueDefects_of_ne different] at none
        exact plainDefects_eq_nil_iff.mp none
      case grouped =>
        intro given found
        have none := each _ found
        cases given with
        | group members => rfl
        | scalar v => simp [valueDefects] at none
        | list vs => simp [valueDefects] at none
      case formed =>
        intro members found member here
        exact ih orKey members found member here (inside members found member here).1
      case asking =>
        intro members found member here
        exact (inside members found member here).2

/-- A filter is well formed exactly if nothing is wrong with it. -/
theorem wellFormed_iff_defects_eq_nil (f : Filter) : f.WellFormed t ↔ f.defects t = [] :=
  ⟨WellFormed.defects_eq_nil, wellFormed_of_defects_eq_nil⟩

/-! ## Compilation finds the first defect -/

theorem isVacuous_entries (list : List (String × FilterValue)) :
    (entries list).isVacuous = true ↔ ∀ entry ∈ list, entry = (orKey, .group []) := by
  rw [isVacuous, toList, List.all_eq_true]
  refine forall_congr' fun entry => imp_congr_right fun _ => ?_
  obtain ⟨key, given⟩ := entry
  match given with
  | .group [] => simp
  | .group (_ :: _) => simp
  | .scalar _ => simp
  | .list _ => simp

/-- A filter compiles to the predicate that restricts nothing exactly if it is vacuous. -/
theorem isUnrestricted_iff_isVacuous {f : Filter} {p : Predicate}
    (compiled : t.compile f = .ok p) : p.isUnrestricted = true ↔ f.isVacuous = true := by
  refine Table.compile_induction (fun f p => p.isUnrestricted = true ↔ f.isVacuous = true)
    (fun key given part => part.isUnrestricted = true ↔ (key, given) = (orKey, .group []))
    ?_ ?_ ?_ compiled
  · intro key given part different compiled
    have restricts : part.isUnrestricted = false := by
      obtain ⟨field, op, _, forms⟩ := Table.compileEntry_eq_ok compiled
      rcases forms with ⟨_, _, rfl⟩ | ⟨_, _, _, _, rfl⟩ | ⟨_, _, _, rfl⟩
      · rfl
      · rfl
      · rfl
    simp [restricts, different]
  · intro members parts related _
    rw [Predicate.isUnrestricted_disj]
    cases related with
    | nil => simp
    | cons _ _ => simp
  · intro list parts related
    rw [Predicate.isUnrestricted_conj, isVacuous_entries]
    exact forall_iff_of_forall₂ related

theorem answers_compileEntry (key : String) (given : FilterValue) :
    Answers (t.compileEntry key given) (plainDefects t key given) := by
  unfold Table.compileEntry plainDefects
  cases t.parseKey key with
  | error e => exact .error e []
  | ok read =>
      obtain ⟨field, op⟩ := read
      simp only [bind, Except.bind, Operator.shape]
      cases op with
      | isIn | notIn =>
          match given with
          | .list [] => exact .ok _
          | .list (_ :: _) => exact .ok _
          | .scalar _ => exact .error _ []
          | .group _ => exact .error _ []
      | eq | not | gt | gte | lt | lte | like =>
          match given with
          | .scalar _ => exact .ok _
          | .list _ => exact .error _ []
          | .group _ => exact .error _ []

/-- A member that compiles to the predicate that restricts nothing is refused as vacuous. -/
theorem answers_compileMembers {member : Filter} {rest : List Filter}
    (first : Answers (t.compile member) (member.defects t))
    (later : Answers (t.compileMembers rest) (memberDefects t rest)) :
    Answers (t.compileMembers (member :: rest)) (memberDefects t (member :: rest)) := by
  rw [Table.compileMembers, memberDefects, List.append_assoc]
  refine first.bind fun part compiled => ?_
  have vacuous := isUnrestricted_iff_isVacuous compiled
  cases unrestricted : part.isUnrestricted with
  | true =>
      rw [if_pos (vacuous.mp unrestricted)]
      exact .error _ _
  | false =>
      have asking : member.isVacuous = false := by
        rw [← Bool.not_eq_true, ← vacuous, unrestricted]
        exact Bool.false_ne_true
      rw [asking]
      exact later.bind_pure (part :: ·)

/-- Compilation ends in the first defect of a filter, or succeeds if there is none. -/
theorem answers_compile (f : Filter) : Answers (t.compile f) (f.defects t) := by
  have plainly {key : String} (different : key ≠ orKey) (given : FilterValue) :
      Answers (t.compileValue key given) (valueDefects t key given) := by
    rw [Table.compileValue_of_ne different, valueDefects_of_ne different]
    exact answers_compileEntry key given
  refine (Table.compile.mutual_induct
    (fun f => Answers (t.compile f) (f.defects t))
    (fun list => Answers (t.compileEntries list) (entryDefects t list))
    (fun key given => Answers (t.compileValue key given) (valueDefects t key given))
    (fun members => Answers (t.compileMembers members) (memberDefects t members))
    ?group (fun _ _ different => plainly different _)
    ?scalar (fun _ _ different => plainly different _)
    ?list (fun _ _ different => plainly different _)
    ?filter (.ok []) (fun _ _ => answers_compileMembers) (.ok []) ?entry).1 f
  case group =>
    intro members ih
    rw [Table.compileValue, if_pos rfl, valueDefects, if_pos rfl]
    exact ih.bind_pure Predicate.disj
  case scalar =>
    intro v
    rw [Table.compileValue, if_pos rfl, valueDefects, if_pos rfl]
    exact .error _ []
  case list =>
    intro vs
    rw [Table.compileValue, if_pos rfl, valueDefects, if_pos rfl]
    exact .error _ []
  case filter =>
    intro list ih
    rw [Table.compile, defects]
    exact ih.bind_pure Predicate.conj
  case entry =>
    intro key given rest ihEntry ihRest
    rw [Table.compileEntries, entryDefects]
    exact ihEntry.bind fun part _ => ihRest.bind_pure (part :: ·)

/-- Compilation accepts exactly the well-formed filters, and refuses any other with its
first defect. -/
theorem compile_accepts_iff_wellFormed (t : Table) (f : Filter) :
    ((∃ p, t.compile f = .ok p) ↔ f.WellFormed t) ∧
      ∀ e, t.compile f = .error e ↔ (f.defects t).head? = some e := by
  have answers := answers_compile (t := t) f
  refine ⟨?_, fun e => answers.eq_error_iff⟩
  rw [answers.exists_eq_ok_iff, wellFormed_iff_defects_eq_nil]

end Filter

end TableAccess

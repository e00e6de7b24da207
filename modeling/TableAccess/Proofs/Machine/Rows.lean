import TableAccess.Proofs.Machine.Laws

/-!
# Statements for several rows

A statement for several rows is taken up and then run for one row after the other. What every step
keeps is kept by all of them; and inside a transaction on a plain table the rows change the content
one after the other, up to the first that does not succeed.
-/

namespace TableAccess.Machine

open Attempt (Ends Keeps)

variable {σ : Type} [Machine σ] {c : Nat}

/-! ## Steps that keep something -/

section Keeping

variable {p : σ → Prop} {i : Insert} {b : BulkUpdate}

theorem insertRows_keeps
    (inserts : ∀ row, (Machine.insertRow c i row : Attempt σ Fault Unit).Keeps p)
    (rows : List (List Value)) : (insertRows c i rows : Attempt σ Fault Nat).Keeps p := by
  induction rows with
  | nil => exact .pure _
  | cons row rest ih => exact .bind (inserts row) fun _ => .bind ih fun _ => .pure _

theorem insert_keeps (taken : (Machine.takeInsert c i : Attempt σ Fault Unit).Keeps p)
    (inserts : ∀ row, (Machine.insertRow c i row : Attempt σ Fault Unit).Keeps p) :
    (insert c i : Attempt σ Fault Nat).Keeps p :=
  .bind taken fun _ => insertRows_keeps inserts i.rows

theorem updateRows_keeps
    (updates : ∀ row, (Machine.updateRow c b row : Attempt σ Fault Nat).Keeps p)
    (rows : List RowValues) : (updateRows c b rows : Attempt σ Fault Nat).Keeps p := by
  induction rows with
  | nil => exact .pure _
  | cons row rest ih => exact .bind (updates row) fun _ => .bind ih fun _ => .pure _

theorem updateBatch_keeps (taken : (Machine.takeBulk c b : Attempt σ Fault Unit).Keeps p)
    (updates : ∀ row, (Machine.updateRow c b row : Attempt σ Fault Nat).Keeps p)
    (rows : List RowValues) : (updateBatch c b rows : Attempt σ Fault Nat).Keeps p :=
  .bind taken fun _ => updateRows_keeps updates rows

end Keeping

/-! ## Rows on plain tables -/

namespace Laws

variable {v : Aspect σ} {steady plain : String → Prop} (laws : Laws v steady plain)
  {db : Database} {x : Content} {s : σ}

include laws

theorem insertRows_within {i : Insert} (clear : plain i.table) (rows : List (List Value))
    (within : v.Within c db x s) : (insertRows c i rows : Attempt σ Fault Nat).Ends s
      (fun n t => n = rows.length ∧ ∃ y, RowByRow i.rowChange rows x y ∧ v.Within c db y t)
      fun _ t => ∃ y, Interrupted i.rowChange rows x y ∧ v.Within c db y t := by
  induction rows generalizing x s with
  | nil => exact .pure ⟨rfl, x, .none x, within⟩
  | cons row rest ih =>
      refine (laws.insertRow row clear within).bind ?_ ?_
      · rintro _ reached ⟨number, y, first, held, _⟩
        refine (ih held).bind ?_ ?_
        · rintro later t ⟨rfl, z, done, kept⟩
          exact .pure ⟨rfl, z, .next first done, kept⟩
        · rintro fault t ⟨z, halted, kept⟩
          exact ⟨z, halted.after first, kept⟩
      · rintro fault reached ⟨y, ended, held⟩
        exact ⟨y, .first rest (i.steady_rowChange row) (ended.imp id fun failed => ⟨_, failed⟩),
          held⟩

/-- An insert that is refused when it is taken up has inserted nothing. -/
theorem insert_within {i : Insert} (known : v.known c) (clear : plain i.table)
    (within : v.Within c db x s) : (insert c i : Attempt σ Fault Nat).Ends s
      (fun n t => n = i.rows.length ∧
        ∃ y, RowByRow i.rowChange i.rows x y ∧ v.Within c db y t)
      fun _ t => ∃ y, (y = x ∨ Interrupted i.rowChange i.rows x y) ∧ v.Within c db y t := by
  refine (((laws.takeInsert i known).within db x).ends within).bind ?_
    fun _ _ held => ⟨x, .inl rfl, held⟩
  intro _ taken held
  refine (laws.insertRows_within clear i.rows held).mono (fun _ _ kept => kept) ?_
  rintro fault t ⟨y, halted, kept⟩
  exact ⟨y, .inr halted, kept⟩

theorem updateRows_within {b : BulkUpdate} (clear : plain b.table) (rows : List RowValues)
    (within : v.Within c db x s) : (updateRows c b rows : Attempt σ Fault Nat).Ends s
      (fun _ t => ∃ y, RowByRow b.rowChange rows x y ∧ v.Within c db y t)
      fun _ t => ∃ y, Interrupted b.rowChange rows x y ∧ v.Within c db y t := by
  induction rows generalizing x s with
  | nil => exact .pure ⟨x, .none x, within⟩
  | cons row rest ih =>
      refine (laws.updateRow row clear within).bind ?_ ?_
      · rintro _ reached ⟨y, first, held⟩
        refine (ih held).bind ?_ ?_
        · rintro later t ⟨z, done, kept⟩
          exact .pure ⟨z, .next first done, kept⟩
        · rintro fault t ⟨z, halted, kept⟩
          exact ⟨z, halted.after first, kept⟩
      · rintro fault reached ⟨y, ended, held⟩
        exact ⟨y, .first rest (b.steady_rowChange row) (ended.imp id fun failed => ⟨_, failed⟩),
          held⟩

theorem updateBatch_within {b : BulkUpdate} (known : v.known c) (clear : plain b.table)
    {rows : List RowValues} (some : rows ≠ []) (within : v.Within c db x s) :
    (updateBatch c b rows : Attempt σ Fault Nat).Ends s
      (fun _ t => ∃ y, RowByRow b.rowChange rows x y ∧ v.Within c db y t)
      fun _ t => ∃ y, Interrupted b.rowChange rows x y ∧ v.Within c db y t := by
  refine (((laws.takeBulk b known).within db x).ends within).bind ?_ ?_
  · exact fun _ taken held => laws.updateRows_within clear rows held
  · intro fault taken held
    obtain ⟨row, rest, rfl⟩ := List.exists_cons_of_ne_nil some
    exact ⟨x, .first rest (b.steady_rowChange row) (.inl rfl), held⟩

end Laws

end TableAccess.Machine

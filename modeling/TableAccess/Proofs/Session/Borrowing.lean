import TableAccess.Proofs.Session.Acquisition
import TableAccess.Proofs.Session.Joining

/-!
# Borrowed connections

The connections that callers have borrowed and those that are idle in the pool are different ones,
and only borrowed ones have a transaction open. Borrowing one more, working on it and giving it
back keeps this, whatever store is behind the handle.
-/

namespace TableAccess

open Attempt (Ends)
open Machine (Aspect Lends Transacts)

/-- The open connections of a pool, some of which are lent, are different ones. -/
structure Pool.Sound (lent : List Nat) (p : Pool) : Prop where
  distinct : (lent ++ p.idle).Nodup
  known : ∀ c ∈ lent ++ p.idle, c < p.opened

/-- A handle from which some connections are lent, with a sound pool and a sound store. -/
structure Handle.Sound (lent : List Nat) (h : Handle) : Prop where
  pool : h.pool.Sound lent
  store : h.store.Sound lent

/-! ## Pools -/

namespace Pool.Sound

variable {lent : List Nat} {p : Pool} {c : Nat}

theorem fresh (sound : p.Sound (c :: lent)) : c ∉ lent := by
  have apart := (List.nodup_cons.mp sound.distinct).1
  exact fun member => apart (List.mem_append_left p.idle member)

/-- A connection that is opened is none of those that were opened before. -/
theorem opened (sound : p.Sound lent) :
    ({ p with total := p.total + 1, opened := p.opened + 1 } : Pool).Sound (p.opened :: lent) := by
  constructor
  · refine List.nodup_cons.mpr ⟨fun member => ?_, sound.distinct⟩
    exact Nat.lt_irrefl _ (sound.known p.opened member)
  · refine List.forall_mem_cons.mpr ⟨Nat.lt_succ_self _, fun d member => ?_⟩
    exact Nat.lt_succ_of_lt (sound.known d member)

theorem lendIdle {rest : List Nat} (sound : p.Sound lent) (idle : p.idle = c :: rest) :
    ({ p with idle := rest } : Pool).Sound (c :: lent) := by
  obtain ⟨distinct, known⟩ := sound
  rw [idle] at distinct known
  constructor
  · exact List.perm_middle.nodup_iff.mp distinct
  · intro d member
    exact known d (List.perm_middle.mem_iff.mpr member)

theorem discard (sound : p.Sound (c :: lent)) : p.discard.Sound lent :=
  ⟨(List.nodup_cons.mp sound.distinct).2,
    fun d member => sound.known d (List.mem_cons_of_mem c member)⟩

theorem keep (sound : p.Sound (c :: lent)) (order : LendingOrder) :
    (p.keep order c).Sound lent := by
  have same : (lent ++ (p.keep order c).idle).Perm (c :: lent ++ p.idle) := by
    unfold Pool.keep
    cases order with
    | lastReturned => exact List.perm_middle
    | firstReturned =>
        rw [← List.append_assoc]
        exact List.perm_append_singleton c (lent ++ p.idle)
  have opened : (p.keep order c).opened = p.opened := by
    unfold Pool.keep
    cases order <;> rfl
  constructor
  · exact same.nodup_iff.mpr sound.distinct
  · intro d member
    rw [opened]
    exact sound.known d (same.mem_iff.mp member)

end Pool.Sound

/-! ## Handles -/

namespace Handle

/-- A handle from which some connections are lent. Its store holds a database, as far as an aspect
tells that knows all other connections. -/
structure Settled {σ : Type} (v : Aspect σ) (lent : List Nat) (db : Database) (h : Handle σ) :
    Prop where
  pool : h.pool.Sound lent
  store : v.Rest db h.store
  knows : ∀ c, c ∉ lent → v.known c

/-- A handle around the same catalog that serves callers in the same way. -/
structure Kin {σ : Type} (h next : Handle σ) : Prop where
  catalog : next.catalog = h.catalog
  settings : next.settings = h.settings
  engine : next.engine = h.engine

/-- A handle after some work on another one, apart from its store: some connections are lent. -/
structure Beside {σ : Type} (lent : List Nat) (h next : Handle σ) : Prop extends Kin h next where
  pool : next.pool.Sound lent

/-- A handle after some work on another one: its store holds some database. -/
structure After {σ : Type} (v : Aspect σ) (lent : List Nat) (h : Handle σ) (db : Database)
    (next : Handle σ) : Prop extends Beside lent h next where
  store : v.Rest db next.store

section Machine

variable {σ α : Type} {v : Aspect σ} {lent : List Nat} {h g next : Handle σ} {db later : Database}
  {c : Nat}

theorem Settled.after (settled : Settled v lent db h) : After v lent h db h :=
  ⟨⟨⟨rfl, rfl, rfl⟩, settled.pool⟩, settled.store⟩

theorem Beside.withStore (beside : Beside lent h g) (s : σ) :
    Beside lent h { g with store := s } :=
  ⟨⟨beside.catalog, beside.settings, beside.engine⟩, beside.pool⟩

namespace After

theorem trans (after : After v lent h db g) (last : After v lent g later next) :
    After v lent h later next :=
  ⟨⟨⟨last.catalog.trans after.catalog, last.settings.trans after.settings,
    last.engine.trans after.engine⟩, last.pool⟩, last.store⟩

theorem settled (after : After v lent h db next) (knows : ∀ c, c ∉ lent → v.known c) :
    Settled v lent db next :=
  ⟨after.pool, after.store, knows⟩

theorem withPool {more : List Nat} {p : Pool} (after : After v lent h db g) (pool : p.Sound more) :
    After v more h db { g with pool := p } :=
  ⟨⟨⟨after.catalog, after.settings, after.engine⟩, pool⟩, after.store⟩

theorem withStore {s : σ} (after : After v lent h db g) (rest : v.Rest later s) :
    After v lent h later { g with store := s } :=
  ⟨after.toBeside.withStore s, rest⟩

end After

theorem openConnection_after (after : After v lent h db g) :
    (openConnection : Attempt (Handle σ) Error Nat).Ends g
      (fun c next => c ∉ lent ∧ After v (c :: lent) h db next)
      fun _ next => After v lent h db next := by
  refine openConnection_of_cases (fun _ => after) (fun _ _ _ => after) fun _ _ => ?_
  exact ⟨after.pool.opened.fresh, after.withPool after.pool.opened⟩

/-! ### Giving back -/

theorem giveBack_beside (held : Beside (c :: lent) h g) : Beside lent h (giveBack c g) :=
  ⟨⟨held.catalog, held.settings, held.engine⟩, held.pool.keep _⟩

theorem giveBack_after (held : After v (c :: lent) h db g) : After v lent h db (giveBack c g) :=
  ⟨giveBack_beside held.toBeside, held.store⟩

variable [Machine σ]

theorem discard_after (laws : Lends v) (held : After v (c :: lent) h db g) (known : v.known c) :
    After v lent h db (discard c g) :=
  (held.withStore (laws.close known held.store)).withPool held.pool.discard

/-- A connection without a transaction is given back as it is. -/
theorem release_after (laws : Transacts v) (held : After v (c :: lent) h db g)
    (known : v.known c) : After v lent h db (release c g) := by
  rw [release_eq_giveBack (Connection.rollback_closed laws known held.store)]
  exact giveBack_after held

theorem settle_after (laws : Transacts v) (held : After v (c :: lent) h db g) (known : v.known c) :
    After v lent h db (settle c g) := by
  rw [settle_eq_giveBack (Connection.rollback_closed laws known held.store)]
  exact giveBack_after held

/-- What is still open on a connection is undone before it is given back. -/
theorem settle_within (laws : Transacts v) {x : Content} (beside : Beside (c :: lent) h g)
    (within : v.Within c db x g.store) : After v lent h db (settle c g) := by
  obtain ⟨_, s, ended, rest⟩ := (Connection.rollback_rest laws within).exists_ok
  unfold settle
  rw [ended]
  exact giveBack_after (g := { g with store := s }) ⟨beside.withStore s, rest⟩

/-! ### Borrowing -/

theorem configured_after (laws : Lends v) {refused : Handle σ → Handle σ}
    (held : After v (c :: lent) h db g) (known : v.known c)
    (back : ∀ next, After v (c :: lent) h db next → After v lent h db (refused next)) :
    (configured c refused).Ends g (fun d next => d = c ∧ After v (c :: lent) h db next)
      fun _ next => After v lent h db next := by
  have setUp : (Connection.configure c : Attempt σ Error Unit).Keeps (v.Rest db) :=
    .mapError (laws.configure known)
  refine configured_of_ends ((setUp.ends held.store).mono ?_ ?_)
  · exact fun _ _ rest => ⟨rfl, held.withStore rest⟩
  · exact fun _ _ rest => back _ (held.withStore rest)

/-- The idle connection that is lent answers; those before it are closed. -/
theorem lendAnswering_after (laws : Lends v) (knows : ∀ c, c ∉ lent → v.known c) (count : Nat)
    (after : After v lent h db g) : (lendAnswering count : Attempt (Handle σ) Error _).Ends g
      (fun found next => match found with
        | some c => c ∉ lent ∧ After v (c :: lent) h db next
        | none => After v lent h db next)
      fun _ _ => False := by
  induction count generalizing g with
  | zero => exact .pure after
  | succ count ih =>
      have held {c : Nat} {rest : List Nat} (idle : g.pool.idle = c :: rest) :=
        after.withPool (after.pool.lendIdle idle)
      refine lendAnswering_of_cases (fun _ => after) ?_ ?_
      · exact fun c rest idle _ =>
          ih (discard_after laws (held idle) (knows c (held idle).pool.fresh))
      · exact fun c rest idle _ => ⟨(held idle).pool.fresh, held idle⟩

/-- A connection that is lent was not lent before. -/
theorem acquire_after (laws : Transacts v) (settled : Settled v lent db h) :
    (acquire : Attempt (Handle σ) Error Nat).Ends h
      (fun c next => c ∉ lent ∧ After v (c :: lent) h db next)
      fun _ next => After v lent h db next := by
  have setUp {g : Handle σ} {c : Nat} (fresh : c ∉ lent) (held : After v (c :: lent) h db g)
      {refused : Handle σ → Handle σ}
      (back : ∀ next, After v (c :: lent) h db next → After v lent h db (refused next)) :
      (configured c refused).Ends g (fun c next => c ∉ lent ∧ After v (c :: lent) h db next)
        fun _ next => After v lent h db next := by
    refine (configured_after laws.toLends held (settled.knows c fresh) back).mono ?_
      fun _ _ kept => kept
    rintro _ next ⟨rfl, kept⟩
    exact ⟨fresh, kept⟩
  have back {c : Nat} (fresh : c ∉ lent) (next : Handle σ) (held : After v (c :: lent) h db next) :
      After v lent h db (release c next) :=
    release_after laws held (settled.knows c fresh)
  refine acquire_of_cases ?_ ?_ ?_
  · intro _ c rest idle
    have held := settled.after.withPool (settled.pool.lendIdle idle)
    exact ⟨held.pool.fresh, held⟩
  · intro _ _
    refine (openConnection_after settled.after).bind ?_ fun _ _ kept => kept
    rintro c next ⟨fresh, held⟩
    exact setUp fresh held fun _ kept => discard_after laws.toLends kept (settled.knows c fresh)
  · intro _
    refine (lendAnswering_after laws.toLends settled.knows _ settled.after).mono ?_
      fun _ _ never => never.elim
    rintro (_ | c) next kept
    · refine (openConnection_after kept).bind ?_ fun _ _ kept => kept
      rintro c last ⟨fresh, held⟩
      exact setUp fresh held (back fresh)
    · obtain ⟨fresh, held⟩ := kept
      exact setUp fresh held (back fresh)

/-- A handle that has been given everything back but some connections, none of the others having a
transaction open. -/
structure Returned (v : Aspect σ) (lent : List Nat) (h : Handle σ) (db : Database)
    (next : Handle σ) : Prop extends After v lent h db next where
  closed : ∀ c, c ∉ lent → Machine.isOpen next.store c = false

theorem After.returned (after : After v lent h later next) (laws : Lends v)
    (settled : Settled v lent db h) : Returned v lent h later next :=
  ⟨after, fun c fresh => laws.closed (settled.knows c fresh) after.store⟩

/-! ### Work on a borrowed connection -/

theorem withConnection_of_acquired {work : Nat → Attempt σ Error α} {result : Except Error α}
    {s : σ} (acquired : acquire.outcome h = (.ok c, g))
    (worked : (work c).outcome g.store = (result, s)) :
    (withConnection work).outcome h = (result, release c { g with store := s }) := by
  unfold withConnection onStore
  rw [Attempt.outcome_bind, acquired]
  dsimp only
  rw [Attempt.outcome_bind, Attempt.outcome_observe, Attempt.outcome_onPart, worked]
  rfl

/-- Work that leaves the store at rest can be done on a handle. -/
theorem withConnection_after (laws : Transacts v) {work : Nat → Attempt σ Error α}
    {q : α → Database → Prop} (settled : Settled v lent db h)
    (each : ∀ c s, v.known c → v.Rest db s → (work c).Ends s
      (fun w t => ∃ later, q w later ∧ v.Rest later t) fun _ t => v.Rest db t) :
    (withConnection work).Ends h (fun w next => ∃ later, q w later ∧ After v lent h later next)
      fun _ next => After v lent h db next := by
  unfold withConnection
  refine (acquire_after laws settled).bind ?_ fun _ _ kept => kept
  rintro c g ⟨fresh, held⟩
  have known : v.known c := settled.knows c fresh
  refine .observing (.onPart ((each c g.store known held.store).mono ?_ ?_))
  · rintro w t ⟨later, holds, rest⟩
    exact .after rfl (.of_eq_ok rfl ⟨later, holds, release_after laws (held.withStore rest) known⟩)
  · exact fun e t rest =>
      .after rfl (.of_eq_error rfl (release_after laws (held.withStore rest) known))

/-- A bracket on a borrowed connection. -/
theorem bracket_after (laws : Transacts v) {body : Nat → Attempt σ Error α}
    {q : α → Content → Prop} (settled : Settled v lent db h) (mode : Mode)
    (inner : ∀ c s, v.known c → v.Within c db { database := db } s →
      (body c).Ends s (fun w t => ∃ y, q w y ∧ v.Within c db y t) fun _ t => v.Inside c db t) :
    (withConnection fun c => Connection.inTransaction c mode (body c)).Ends h
      (fun w next => ∃ y, q w y ∧ ¬ 0 < y.owed ∧ After v lent h y.database next)
      fun _ next => After v lent h db next := by
  refine (withConnection_after laws (q := fun w later => ∃ y, q w y ∧ ¬ 0 < y.owed ∧
    y.database = later) settled fun c s known rest => ?_).mono ?_ fun _ _ kept => kept
  · refine (Connection.inTransaction_rest laws known rest mode (inner c · known)).mono ?_
      fun _ _ kept => kept
    rintro w t ⟨y, holds, settled, rest⟩
    exact ⟨y.database, ⟨y, holds, settled, rfl⟩, rest⟩
  · rintro w next ⟨_, ⟨y, holds, settled, rfl⟩, after⟩
    exact ⟨y, holds, settled, after⟩

end Machine

/-! ### The store -/

variable {lent : List Nat} {h : Handle}

theorem Sound.settled (sound : h.Sound lent) :
    Settled (Store.aspect (fun _ _ => True) lent h.store) lent h.store.database h :=
  ⟨sound.pool, ⟨.refl h.store, trivial⟩, fun _ fresh => fresh⟩

theorem Sound.transacts (sound : h.Sound lent) :
    Transacts (Store.aspect (fun _ _ => True) lent h.store) :=
  Store.aspect_transacts Store.upheld_true sound.store

end Handle

end TableAccess

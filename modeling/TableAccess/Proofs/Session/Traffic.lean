import TableAccess.Proofs.Session.Rejection

/-!
# Traffic at a pool

Callers ask a pool of waiting callers for connections, use them and give them back, in any order and
with any turn of events: a connection cannot be opened or not be set up, it comes back with a
transaction that is open, and that transaction cannot be undone. Through all of this the pool counts
its connections right, lends none of them twice, keeps none with an open transaction, and refuses
only when all that it may open are lent.
-/

namespace TableAccess

open Attempt (Ends)

/-- A pool with the connections that are lent from it and those that have a transaction open. -/
structure Traffic where
  pool : Pool
  lent : List Nat
  busy : List Nat

namespace Traffic

inductive Event where
  /-- A caller asks for a connection. A new one can be opened or not, and set up or not. -/
  | ask (opening setUp : Except Fault Unit)
  /-- A lent connection is used, and has a transaction open afterwards or none. -/
  | use (c : Nat) (busy : Bool)
  /-- A lent connection comes back. A transaction that is still open can be undone or not. -/
  | giveBack (c : Nat) (undone : Bool)

/-- A pool that has just opened its first connection. -/
def start : Traffic := ⟨{ idle := [0], total := 1, opened := 1 }, [], []⟩

/-- Lends an idle connection, or a new one within the limit. One that cannot be set up is closed. -/
def ask (max : Nat) (opening setUp : Except Fault Unit) : Attempt Traffic Refusal Nat := .of fun t =>
  match t.pool.lendIdle? with
  | some (c, pool) => (.ok c, { t with pool, lent := c :: t.lent })
  | none =>
      match (Pool.lendNew max opening).outcome t.pool, setUp with
      | (.error refusal, pool), _ => (.error refusal, { t with pool })
      | (.ok c, pool), .ok () => (.ok c, { t with pool, lent := c :: t.lent })
      | (.ok _, pool), .error fault => (.error (.cannotOpen fault), { t with pool := pool.discard })

/-- Takes note of a transaction that a lent connection has open, or no longer. -/
def use (t : Traffic) (c : Nat) (busy : Bool) : Traffic :=
  if c ∈ t.lent then
    { t with busy := if busy then c :: t.busy else t.busy.filter fun d => d != c }
  else t

/-- Takes a lent connection back, or closes it if its transaction cannot be undone. -/
def giveBack (t : Traffic) (c : Nat) (undone : Bool) : Traffic :=
  if c ∈ t.lent then
    { pool := if undone || !t.busy.contains c then t.pool.keep .lastReturned c else t.pool.discard
      lent := t.lent.erase c
      busy := t.busy.filter fun d => d != c }
  else t

def step (max : Nat) (t : Traffic) : Event → Traffic
  | .ask opening setUp => ((ask max opening setUp).outcome t).2
  | .use c busy => t.use c busy
  | .giveBack c undone => t.giveBack c undone

def run (max : Nat) (t : Traffic) (events : List Event) : Traffic := events.foldl (step max) t

/-- What may come of asking for a connection. -/
theorem ask_cases (max : Nat) (opening setUp : Except Fault Unit) (t : Traffic) :
    let asked := (ask max opening setUp).outcome t
    (∃ c rest, t.pool.idle = c :: rest ∧
      asked = (.ok c, { t with pool := { t.pool with idle := rest }, lent := c :: t.lent })) ∨
    (t.pool.idle = [] ∧ max ≤ t.pool.total ∧
      asked = (.error (.exhausted t.pool.active max), t)) ∨
    (t.pool.idle = [] ∧ t.pool.total < max ∧ ∃ fault, asked = (.error (.cannotOpen fault), t)) ∨
    (t.pool.idle = [] ∧ t.pool.total < max ∧ asked = (.ok t.pool.opened,
      { t with
        pool := { t.pool with total := t.pool.total + 1, opened := t.pool.opened + 1 }
        lent := t.pool.opened :: t.lent })) ∨
    (t.pool.idle = [] ∧ t.pool.total < max ∧ ∃ fault, asked = (.error (.cannotOpen fault),
      { t with pool := { t.pool with opened := t.pool.opened + 1 } })) := by
  unfold ask Pool.lendIdle? Pool.lendNew
  simp only [Attempt.outcome_of]
  cases idle : t.pool.idle with
  | cons c rest => exact .inl ⟨c, rest, rfl, rfl⟩
  | nil =>
      refine .inr ?_
      by_cases full : max ≤ t.pool.total
      · rw [if_pos full]
        exact .inl ⟨rfl, full, rfl⟩
      · have room : t.pool.total < max := Nat.lt_of_not_le full
        rw [if_neg full]
        refine .inr ?_
        cases opening with
        | error fault => exact .inl ⟨rfl, room, fault, rfl⟩
        | ok _ =>
            refine .inr ?_
            cases setUp with
            | ok _ => exact .inl ⟨rfl, room, rfl⟩
            | error fault => exact .inr ⟨rfl, room, fault, rfl⟩

/-! ## What every event keeps -/

/-- A pool that counts its connections right and knows them apart; only connections that are lent
have a transaction open. -/
structure Sound (max : Nat) (t : Traffic) : Prop where
  counted : t.pool.total = t.pool.idle.length + t.lent.length
  limited : t.pool.total ≤ max
  pool : t.pool.Sound t.lent
  settled : ∀ c ∈ t.busy, c ∈ t.lent

variable {max : Nat} {t : Traffic} {c : Nat}

theorem sound_start (positive : 1 ≤ max) : start.Sound max := by
  refine ⟨rfl, positive, ⟨by decide, ?_⟩, List.forall_mem_nil _⟩
  decide

namespace Sound

/-- A connection that is lent is a further one. -/
theorem lend {pool : Pool} (sound : t.Sound max) (apart : pool.Sound (c :: t.lent))
    (counted : pool.total = pool.idle.length + t.lent.length + 1) (limited : pool.total ≤ max) :
    Sound max { t with pool, lent := c :: t.lent } := by
  refine ⟨counted, limited, apart, fun d member => ?_⟩
  exact List.mem_cons_of_mem c (sound.settled d member)

theorem ask (sound : t.Sound max) (opening setUp : Except Fault Unit) :
    (Traffic.ask max opening setUp).Ends t (fun _ next => next.Sound max)
      fun _ next => next.Sound max := by
  have counted := sound.counted
  rcases ask_cases max opening setUp t with ⟨c, rest, idle, ended⟩ | ⟨_, _, ended⟩ |
    ⟨_, _, fault, ended⟩ | ⟨idle, room, ended⟩ | ⟨_, _, fault, ended⟩
  · rw [idle, List.length_cons] at counted
    refine .of_eq_ok ended (sound.lend (sound.pool.lendIdle idle) ?_ sound.limited)
    dsimp only
    omega
  · exact .of_eq_error ended sound
  · exact .of_eq_error ended sound
  · rw [idle, List.length_nil] at counted
    refine .of_eq_ok ended (sound.lend sound.pool.opened ?_ room)
    dsimp only
    rw [idle, List.length_nil]
    omega
  · exact .of_eq_error ended
      ⟨sound.counted, sound.limited, sound.pool.opened.discard, sound.settled⟩

theorem use (sound : t.Sound max) (c : Nat) (busy : Bool) : (t.use c busy).Sound max := by
  unfold Traffic.use
  split
  · rename_i lent
    refine ⟨sound.counted, sound.limited, sound.pool, fun d member => ?_⟩
    cases busy with
    | true =>
        rcases List.mem_cons.mp member with rfl | old
        · exact lent
        · exact sound.settled d old
    | false => exact sound.settled d (List.mem_filter.mp member).1
  · exact sound

/-- The connection that comes back is one of those that are lent. -/
theorem back (sound : t.Sound max) (lent : c ∈ t.lent) : t.pool.Sound (c :: t.lent.erase c) := by
  have same : (t.lent ++ t.pool.idle).Perm (c :: t.lent.erase c ++ t.pool.idle) :=
    (List.perm_cons_erase lent).append_right t.pool.idle
  refine ⟨same.nodup_iff.mp sound.pool.distinct, fun d member => ?_⟩
  exact sound.pool.known d (same.mem_iff.mpr member)

theorem giveBack (sound : t.Sound max) (c : Nat) (undone : Bool) :
    (t.giveBack c undone).Sound max := by
  unfold Traffic.giveBack
  split
  · rename_i lent
    have held := sound.back lent
    have counted := sound.counted
    have limited := sound.limited
    have fewer : (t.lent.erase c).length = t.lent.length - 1 := List.length_erase_of_mem lent
    have some : 0 < t.lent.length := List.length_pos_of_mem lent
    have settled : ∀ d ∈ t.busy.filter fun d => d != c, d ∈ t.lent.erase c := by
      intro d member
      obtain ⟨old, other⟩ := List.mem_filter.mp member
      exact (List.mem_erase_of_ne (by simpa using other)).mpr (sound.settled d old)
    split
    · refine ⟨?_, limited, held.keep .lastReturned, settled⟩
      change t.pool.total = t.pool.idle.length + 1 + (t.lent.erase c).length
      omega
    · refine ⟨?_, ?_, held.discard, settled⟩
      · change t.pool.total - 1 = t.pool.idle.length + (t.lent.erase c).length
        omega
      · change t.pool.total - 1 ≤ max
        omega
  · exact sound

theorem step (sound : t.Sound max) (event : Event) : (t.step max event).Sound max := by
  cases event with
  | ask opening setUp => exact (sound.ask opening setUp).leaves
  | use c busy => exact sound.use c busy
  | giveBack c undone => exact sound.giveBack c undone

theorem run (sound : t.Sound max) (events : List Event) : (t.run max events).Sound max := by
  induction events generalizing t with
  | nil => exact sound
  | cons event rest ih => exact ih (sound.step event)

end Sound

/-! ## Answers -/

/-- A caller is refused for want of connections only if all that may be open are lent, and then is
told so. -/
theorem ask_answers (sound : t.Sound max) (opening setUp : Except Fault Unit) :
    (ask max opening setUp).Ends t (fun _ _ => t.lent.length ≠ max) fun refusal next =>
      match refusal with
      | .exhausted active limit => t.lent.length = max ∧ active = max ∧ limit = max
      | .cannotOpen _ => t.lent.length ≠ max ∧ next.pool.total = t.pool.total := by
  have counted := sound.counted
  have limited := sound.limited
  rcases ask_cases max opening setUp t with ⟨c, rest, idle, ended⟩ | ⟨idle, full, ended⟩ |
    ⟨idle, room, fault, ended⟩ | ⟨idle, room, ended⟩ | ⟨idle, room, fault, ended⟩
  · rw [idle, List.length_cons] at counted
    exact .of_eq_ok ended (by omega)
  · have active : t.pool.active = t.pool.total := by
      unfold Pool.active
      rw [idle]
      rfl
    rw [idle, List.length_nil] at counted
    refine .of_eq_error ended ?_
    dsimp only
    omega
  · rw [idle, List.length_nil] at counted
    exact .of_eq_error ended ⟨by omega, rfl⟩
  · rw [idle, List.length_nil] at counted
    exact .of_eq_ok ended (by omega)
  · rw [idle, List.length_nil] at counted
    exact .of_eq_error ended ⟨by omega, rfl⟩

end Traffic

/-! ## Handles whose callers wait -/

namespace Store

variable (s : Store) (c : Nat)

theorem isOpen_iff : s.isOpen c = true ↔ c ∈ s.transactions.map (·.connection) := by
  simp [isOpen, transaction?, List.find?_isSome]

theorem connections_undo : (s.undo c).transactions.map (·.connection) =
    (s.transactions.map (·.connection)).filter fun d => d != c := by
  have released : (s.undo c).transactions = s.transactions.filter fun t => t.connection != c := by
    unfold undo
    dsimp only
    split <;> rfl
  rw [released, List.filter_map]
  rfl

/-- An open transaction is undone unless the set of tables is being changed elsewhere. -/
theorem outcome_rollback : (rollback c).outcome s =
    if s.isOpen c then
      if s.schemaLocked c then (.error .schemaLocked, s.counted) else (.ok (), s.counted.undo c)
    else (.ok (), s) := by
  have locked : s.counted.schemaLocked c = s.schemaLocked c := rfl
  unfold rollback announce requireSchema
  rw [Attempt.outcome_bind, Attempt.outcome_reading]
  dsimp only
  split
  · rw [Attempt.outcome_bind, Attempt.outcome_bind, Attempt.outcome_changing]
    dsimp only
    rw [Attempt.outcome_of, locked]
    cases s.schemaLocked c <;> rfl
  · rfl

end Store

namespace Handle

variable {lent : List Nat} {h : Handle} {c : Nat}

def traffic (lent : List Nat) (h : Handle) : Traffic :=
  ⟨h.pool, lent, h.store.transactions.map (·.connection)⟩

def settingUp (h : Handle) (c : Nat) : Except Fault Unit :=
  ((Store.requireSchema c).outcome h.store).1

theorem settingUp_eq (h : Handle) (c : Nat) :
    h.settingUp c = if h.store.schemaLocked c then .error .schemaLocked else .ok () := by
  unfold settingUp Store.requireSchema
  rw [Attempt.outcome_of]
  split <;> rfl

/-- What the pool of a handle answers now to a caller, and the traffic after that. -/
def answer (lent : List Nat) (h : Handle) : Except Refusal Nat × Traffic :=
  (Traffic.ask h.settings.maxSize (Location.check h.settings.connection)
    (h.settingUp h.pool.opened)).outcome (h.traffic lent)

theorem answer_idle {rest : List Nat} (idle : h.pool.idle = c :: rest) : h.answer lent =
    (.ok c, Handle.traffic (c :: lent) { h with pool := { h.pool with idle := rest } }) := by
  unfold answer Traffic.ask Pool.lendIdle? traffic
  rw [Attempt.outcome_of, idle]

/-- Without an idle connection the answer is a new one, if it can be opened and set up. -/
theorem answer_new (none : h.pool.idle = []) : h.answer lent =
    match (Pool.lendNew h.settings.maxSize (Location.check h.settings.connection)).outcome h.pool,
      h.settingUp h.pool.opened with
    | (.error refusal, pool), _ => (.error refusal, Handle.traffic lent { h with pool })
    | (.ok c, pool), .ok () => (.ok c, Handle.traffic (c :: lent) { h with pool })
    | (.ok _, pool), .error fault =>
        (.error (.cannotOpen fault), Handle.traffic lent { h with pool := pool.discard }) := by
  unfold answer Traffic.ask Pool.lendIdle? traffic
  rw [Attempt.outcome_of, none]

/-- Borrowing is what the pool is asked for. -/
theorem acquire_traffic (sound : h.Sound lent) (waits : h.engine = .blocking) :
    (acquire : Attempt Handle Error Nat).Ends h
      (fun c next => h.answer lent = (.ok c, next.traffic (c :: lent)))
      fun e next => ∃ refusal, h.answer lent = (.error refusal, next.traffic lent) ∧
        ∀ active limit, refusal = .exhausted active limit ↔ e = .poolExhausted active limit := by
  refine acquire_of_cases ?_ ?_ fun suspended => nomatch waits.symm.trans suspended
  · exact fun _ c rest idle => answer_idle idle
  · intro _ none
    have answer : h.answer lent = _ := answer_new none
    unfold Pool.lendNew at answer
    rw [Attempt.outcome_of] at answer
    refine .bind (openConnection_of_cases ?_ ?_ ?_) (fun _ _ ends => ends) fun _ _ kept => kept
    · intro full
      rw [if_pos full] at answer
      refine ⟨_, answer, fun active limit => ?_⟩
      simp [waits, Engine.ofRefusal]
    · intro fault room missing
      rw [if_neg (Nat.not_le.mpr room), missing] at answer
      refine ⟨_, answer, fun active limit => ?_⟩
      simp [waits, Engine.ofRefusal, Engine.openFailure]
    · intro room location
      rw [if_neg (Nat.not_le.mpr room), location, settingUp_eq] at answer
      refine configured_of_cases (fun ready => ?_) fun locked => ?_
      · have unlocked : h.store.schemaLocked h.pool.opened = false := ready
        rw [unlocked] at answer
        exact answer
      · have changing : h.store.schemaLocked h.pool.opened = true := locked
        have free : h.store.Free h.pool.opened := sound.store.free sound.pool.opened.fresh
        have closed : Machine.close h.pool.opened h.store = h.store := Store.undo_eq_self free
        rw [changing] at answer
        refine ⟨.cannotOpen .schemaLocked, answer.trans ?_, fun active limit => ?_⟩
        · unfold discard
          dsimp only
          rw [closed]
          rfl
        · simp

/-- Giving back is what the pool sees of it. -/
theorem release_traffic (loaned : c ∈ lent) (waits : h.engine = .blocking) :
    (release c h).traffic (lent.erase c) =
      (h.traffic lent).giveBack c
        ((Connection.rollback c : Attempt Store Error Unit).outcome h.store).1.isOk := by
  have member : c ∈ (h.traffic lent).lent := loaned
  unfold Traffic.giveBack
  rw [if_pos member]
  have rolled : (Connection.rollback c : Attempt Store Error Unit).outcome h.store =
      (((Store.rollback c).outcome h.store).1.mapError (Error.ofTransaction "roll back"),
        ((Store.rollback c).outcome h.store).2) := rfl
  rw [Store.outcome_rollback] at rolled
  cases opened : h.store.isOpen c with
  | false =>
      have other : c ∉ h.store.transactions.map (·.connection) := by
        rw [← Store.isOpen_iff, opened]
        exact Bool.false_ne_true
      have same : (h.store.transactions.map (·.connection)).filter (fun d => d != c) =
          h.store.transactions.map (·.connection) := by
        refine List.filter_eq_self.mpr fun d known => ?_
        exact bne_iff_ne.mpr fun found => other (found ▸ known)
      rw [release_closed opened, Connection.rollback_of_closed opened, waits]
      unfold traffic
      dsimp only
      rw [same]
      rfl
  | true =>
      have busy : c ∈ h.store.transactions.map (·.connection) := (h.store.isOpen_iff c).mp opened
      rw [opened] at rolled
      unfold release
      rw [waits]
      dsimp only
      unfold settle
      -- a transaction that cannot be undone ends with its connection, which is closed
      have undone := h.store.counted.connections_undo c
      cases locked : h.store.schemaLocked c with
      | false =>
          rw [locked] at rolled
          change _ = ((.ok () : Except Error Unit), h.store.counted.undo c) at rolled
          rw [rolled]
          dsimp only
          unfold giveBack traffic
          dsimp only
          rw [waits]
          exact congrArg (Traffic.mk _ _) undone
      | true =>
          rw [locked] at rolled
          rw [rolled]
          unfold traffic
          rw [List.contains_iff_mem.mpr busy]
          exact congrArg (Traffic.mk _ _) undone

/-- A handle that is opened has one idle connection, and may open at least that one. -/
theorem openWith_traffic {settings : Settings} {catalog : Catalog}
    (opened : openWith .blocking settings catalog = .ok h) :
    1 ≤ h.settings.maxSize ∧ h.traffic [] = .start := by
  let fresh : Handle := { engine := .blocking, settings, catalog, store := {} }
  have sound : fresh.Sound [] := by
    refine ⟨⟨.nil, List.forall_mem_nil _⟩, List.forall_mem_nil _, nofun⟩
  obtain ⟨_, valid, rest⟩ := bind_eq_ok_iff.mp opened
  have room : settings.maxSize ≠ 0 := Settings.maxSize_ne_zero valid
  have reached : (withConnection fun _ => (pure () : Attempt Store Error Unit)).Ends fresh
      (fun _ next => next.settings = settings ∧ next.traffic [] = .start) fun _ _ => True := by
    unfold withConnection
    refine ((acquire_after sound.transacts sound.settled).and (acquire_traffic sound rfl)).bind ?_
      fun _ _ _ => trivial
    rintro c g ⟨⟨isNew, held⟩, asked⟩
    -- the only way to be lent a connection by an empty pool is that it opens one
    have first : c = 0 ∧ g.traffic [c] = ⟨{ total := 1, opened := 1 }, [0], []⟩ := by
      rcases Traffic.ask_cases settings.maxSize (Location.check settings.connection)
        (fresh.settingUp 0) (fresh.traffic []) with ⟨_, _, idle, _⟩ | ⟨_, _, ended⟩ |
        ⟨_, _, _, ended⟩ | ⟨_, _, ended⟩ | ⟨_, _, _, ended⟩
      · cases idle
      all_goals
        have same := asked.symm.trans ended
        injection same with lent left
        cases lent
      exact ⟨rfl, left⟩
    obtain ⟨rfl, started⟩ := first
    refine .observing (.onPart (.pure (.after rfl (.of_eq_ok rfl ⟨?_, ?_⟩))))
    · exact (release_after sound.transacts held isNew).settings
    · have loaned : 0 ∈ [0] := List.mem_cons_self
      have back := release_traffic loaned held.engine
      rw [started] at back
      refine back.trans ?_
      cases ((Connection.rollback 0 : Attempt Store Error Unit).outcome g.store).1.isOk <;> rfl
  split at rest
  · rename_i same
    cases rest
    obtain ⟨kept, started⟩ := reached.holds_ok same
    exact ⟨kept ▸ Nat.one_le_iff_ne_zero.mpr room, started⟩
  · cases rest

end Handle

/-! ## The course of a pool -/

/-- What holds of a pool, at any moment, of the connections that it has lent and of what it
answers. -/
structure Traffic.Orderly (max : Nat) (t : Traffic) : Prop where
  counted : t.pool.total = t.pool.idle.length + t.lent.length
  limited : t.pool.total ≤ max
  distinct : (t.lent ++ t.pool.idle).Nodup
  closed : ∀ c ∈ t.pool.idle, c ∉ t.busy
  exhausted : ∀ opening setUp,
    (∃ active limit, ((ask max opening setUp).outcome t).1 = .error (.exhausted active limit)) ↔
      t.lent.length = max
  told : ∀ opening setUp active limit,
    ((ask max opening setUp).outcome t).1 = .error (.exhausted active limit) →
      active = max ∧ limit = max
  failed : ∀ opening setUp fault,
    ((ask max opening setUp).outcome t).1 = .error (.cannotOpen fault) →
      ((ask max opening setUp).outcome t).2.pool.total = t.pool.total
  returned : t.lent = [] → t.pool.stats.available = t.pool.stats.size

theorem Traffic.Sound.orderly {max : Nat} {t : Traffic} (sound : t.Sound max) : t.Orderly max where
  counted := sound.counted
  limited := sound.limited
  distinct := sound.pool.distinct
  closed c idle busy :=
    (List.nodup_append.mp sound.pool.distinct).2.2 c (sound.settled c busy) c idle rfl
  exhausted opening setUp := by
    rcases (ask_answers sound opening setUp).cases with
      ⟨c, next, ended, room⟩ | ⟨refusal, next, ended, answered⟩
    · rw [ended]
      exact iff_of_false (fun ⟨_, _, never⟩ => nomatch never) room
    · rw [ended]
      cases refusal with
      | exhausted active limit => exact iff_of_true ⟨active, limit, rfl⟩ answered.1
      | cannotOpen fault => exact iff_of_false (fun ⟨_, _, never⟩ => nomatch never) answered.1
  told opening setUp active limit answer := by
    have answered := (ask_answers sound opening setUp).holds_error (Prod.ext answer rfl)
    exact answered.2
  failed opening setUp fault answer := by
    have answered := (ask_answers sound opening setUp).holds_error (Prod.ext answer rfl)
    exact answered.2
  returned none := by
    have counted := sound.counted
    rw [none] at counted
    exact counted.symm

/-- Whatever happens at a pool, however long, it stays orderly. The pool of a handle whose callers
wait begins in this way when the handle is opened; borrowing a connection from it is what its pool
is asked for, and giving one back, with a transaction open or not, is what its pool sees of it. -/
theorem pools_stay_orderly :
    (∀ max, 1 ≤ max → ∀ events, (Traffic.start.run max events).Orderly max) ∧
    (∀ settings catalog h, Handle.openWith .blocking settings catalog = .ok h →
      1 ≤ h.settings.maxSize ∧ h.traffic [] = .start) ∧
    ∀ lent (h : Handle), h.Sound lent → h.engine = .blocking →
      ((Handle.acquire : Attempt Handle Error Nat).Ends h
        (fun c next => h.answer lent = (.ok c, next.traffic (c :: lent)))
        fun e next => ∃ refusal, h.answer lent = (.error refusal, next.traffic lent) ∧
          ∀ active limit, refusal = .exhausted active limit ↔ e = .poolExhausted active limit) ∧
      ∀ c ∈ lent, (h.release c).traffic (lent.erase c) =
        (h.traffic lent).giveBack c
          ((Connection.rollback c : Attempt Store Error Unit).outcome h.store).1.isOk := by
  refine ⟨fun max positive events => ?_, fun _ _ h opened => Handle.openWith_traffic opened,
    fun lent h sound waits => ⟨Handle.acquire_traffic sound waits, fun c loaned => ?_⟩⟩
  · exact ((Traffic.sound_start positive).run events).orderly
  · exact Handle.release_traffic loaned waits

/-! ## Two callers -/

/-- One caller leaves a transaction open; after a connection that cannot be opened, another caller
is lent the second one. -/
def twoCallers : List Traffic.Event :=
  [.ask (.ok ()) (.ok ()), .use 0 true, .ask (.error (.cannotOpen "pets")) (.ok ()),
    .ask (.ok ()) (.error .schemaLocked), .ask (.ok ()) (.ok ())]

/-- Both connections have come back; the transaction of the first could not be undone. -/
def allBack : Traffic :=
  Traffic.start.run 2 (twoCallers ++ [.giveBack 0 false, .giveBack 2 true])

theorem pools_stay_orderly_pair :
    (Traffic.start.run 2 twoCallers).lent.length = 2 ∧
    (∃ active limit, ((Traffic.ask 2 (.ok ()) (.ok ())).outcome
      (Traffic.start.run 2 twoCallers)).1 = .error (.exhausted active limit)) ∧
    (allBack.lent = [] ∧ allBack.pool.stats.available = allBack.pool.stats.size) ∧
    kennelHandle.Sound [] ∧ kennelHandle.engine = .blocking ∧
      kennelHandle.answer [] = (.ok 0, ⟨{ total := 1, opened := 1 }, [0], []⟩) ∧
      ((Handle.acquire.outcome kennelHandle).2.release 0).traffic [] = .start := by
  obtain ⟨orderly, _, handles⟩ := pools_stay_orderly
  have lent := orderly 2 (by decide) twoCallers
  have back : allBack.Orderly 2 := orderly 2 (by decide) _
  have borrowed := (handles [] kennelHandle (sound_kennelWhen "Rex") rfl).1
  exact ⟨rfl, (lent.exhausted (.ok ()) (.ok ())).mpr rfl, ⟨rfl, back.returned rfl⟩,
    sound_kennelWhen "Rex", rfl, borrowed.holds_ok rfl, rfl⟩

end TableAccess

import OracleThin.Pool.Shutdown

/-!
# No connection is lost

Every connection the create hook returned is in one of the pool's places or was passed to the close hook once.  The
books are kept by `places + closed = created`: a step adds a created id or moves ids between the three, except for the
two steps described by `Leaks`, which drop a connection on the floor:

* the worker puts a pinged connection back, but its request was abandoned before the worker picked it and a close has
  removed it meanwhile;
* a poll attaches a free connection to a request in whose slot `post_create_conn` has parked another one.

A run keeps the books exactly when it has no such step (`noLeak_iff`).
-/

namespace OracleThin.Pool

open Lib

variable {C : Type} {w w' : World C}

/-! ### The ledger of one step -/

/-- The slot of the polled request is overwritten: the request is free to be served, a connection is parked in its
slot, and one of the free connections that the poll tries is usable.  A request whose last ping failed tries only
one. -/
def Overwrites (env : Env C) (s : PoolState C) (r : Request C) : Prop :=
  s.isOpen = true ∧ r.error = none ∧ r.completed = false ∧ r.bgProcessing = false ∧ r.conn ≠ none ∧
    if r.requiresPing then ∃ c, (candidates s r).head? = some c ∧ usable env s.config c = true
    else ∃ c ∈ candidates s r, usable env s.config c = true

/-- The steps that lose a connection. -/
def Leaks (w : World C) : Action C → Prop
  | .poll env requestId => ∃ r, w.state.request? requestId = some r ∧ Overwrites env w.state r
  | .work _ =>
    match w.worker with
    | .pinged requestId _ => w.state.request? requestId = none
    | _ => False
  | _ => False

private theorem chosen_isSome_iff (env : Env C) (config : PoolConfig) (stale : Bool) (l : List (PooledConn C)) :
    (chosen env config stale l).isSome = true ↔
      if stale then ∃ c, l.head? = some c ∧ usable env config c = true else ∃ c ∈ l, usable env config c = true := by
  induction l with
  | nil => cases stale <;> simp [chosen]
  | cons c cs ih =>
    rw [chosen]
    by_cases hu : usable env config c = true
    · cases stale <;> simp [hu]
    · cases stale
      · simpa [hu] using ih
      · simp [hu]

private theorem overwritten_ne_zero_iff (env : Env C) (s : PoolState C) (rid : Nat) :
    overwritten env s rid ≠ 0 ↔ ∃ r, s.request? rid = some r ∧ Overwrites env s r := by
  unfold overwritten Overwrites
  cases hr : s.request? rid with
  | none => simp
  | some r =>
    simp only [Option.some.injEq, exists_eq_left', ← chosen_isSome_iff env s.config r.requiresPing, attachLoss]
    by_cases hfree : (s.isOpen && r.error.isNone && !r.completed && !r.bgProcessing) = true
    · simp only [Bool.and_eq_true, Bool.not_eq_true', Option.isNone_iff_eq_none] at hfree
      obtain ⟨⟨⟨ho, he⟩, hc⟩, hb⟩ := hfree
      cases (chosen env s.config r.requiresPing (candidates s r)).isSome <;> simp [ho, he, hc, hb, slot_eq_zero]
    · rw [if_neg hfree]
      simp only [Bool.and_eq_true, Bool.not_eq_true', Option.isNone_iff_eq_none] at hfree
      simp only [ne_eq, not_true_eq_false, false_iff]
      rintro ⟨ho, he, hc, hb, -⟩
      exact hfree ⟨⟨⟨ho, he⟩, hc⟩, hb⟩

private theorem lostBy_ne_zero_iff (w : World C) (action : Action C) : lostBy w action ≠ 0 ↔ Leaks w action := by
  cases action with
  | poll env rid => exact overwritten_ne_zero_iff env w.state rid
  | work answers =>
    unfold lostBy Leaks
    cases w.worker with
    | pinged rid conn => cases h : w.state.request? rid <;> simp [h]
    | _ => simp
  | _ => simp [lostBy, Leaks]

/-! ### The books over a run -/

/-- The created ids and the reserved ids are distinct, and no place or close log holds an id that was not created. -/
structure LedgerInv (w : World C) : Prop where
  nodup : ((w.created : Multiset Nat) +
    ((w.worker.reserved : Multiset Nat) + (w.state.openEffects : Multiset Nat))).Nodup
  lt : ∀ i ∈ (w.created : Multiset Nat) + ((w.worker.reserved : Multiset Nat) + (w.state.openEffects : Multiset Nat)),
    i < w.state.nextConnId
  le : w.places + (w.closed : Multiset Nat) ≤ (w.created : Multiset Nat)

/-- The books balance: every created connection is in one place or closed once. -/
def Balanced (w : World C) : Prop := w.places + (w.closed : Multiset Nat) = (w.created : Multiset Nat)

theorem LedgerInv.created_nodup (h : LedgerInv w) : (w.created : Multiset Nat).Nodup :=
  (Multiset.nodup_add.1 h.nodup).1

/-- What is in a place or in the close log after a step, together with what the step loses, was there before or has
just been created. -/
theorem Booked.balance {lost : Multiset Nat} {new shut : List Nat} (h : Booked w w' lost new shut) :
    w'.places + (w'.closed : Multiset Nat) + lost = w.places + (w.closed : Multiset Nat) + (new : Multiset Nat) := by
  rw [h.closed, ← Multiset.coe_add]
  calc w'.places + ((w.closed : Multiset Nat) + (shut : Multiset Nat)) + lost
      = w'.places + (shut : Multiset Nat) + lost + (w.closed : Multiset Nat) := by abel
    _ = w.places + (w.closed : Multiset Nat) + (new : Multiset Nat) := by rw [h.places]; abel

theorem LedgerInv.booked {lost : Multiset Nat} {new shut : List Nat} (h : LedgerInv w)
    (hb : Booked w w' lost new shut) : LedgerInv w' := by
  obtain ⟨n, hn, hle⟩ := hb.fresh
  have hcreated : (w'.created : Multiset Nat) = (w.created : Multiset Nat) + (new : Multiset Nat) := by
    rw [hb.created, Multiset.coe_add]
  have hmono : (w'.created : Multiset Nat) +
    ((w'.worker.reserved : Multiset Nat) + (w'.state.openEffects : Multiset Nat)) ≤
      (w.created : Multiset Nat) + ((w.worker.reserved : Multiset Nat) + (w.state.openEffects : Multiset Nat)) +
        (List.range' w.state.nextConnId n : Multiset Nat) := by
    rw [hcreated, add_assoc, add_assoc, ← add_assoc (new : Multiset Nat)]
    exact add_le_add_right hle _
  obtain ⟨hnd, hlt⟩ := nodup_add_range' h.nodup h.lt n
  refine ⟨Multiset.nodup_of_le hmono hnd, fun i hi => ?_, ?_⟩
  · rw [hn]
    exact hlt i (Multiset.mem_of_le hmono hi)
  · calc w'.places + (w'.closed : Multiset Nat) ≤ w'.places + (w'.closed : Multiset Nat) + lost :=
          Multiset.le_add_right _ _
      _ = w.places + (w.closed : Multiset Nat) + (new : Multiset Nat) := hb.balance
      _ ≤ (w.created : Multiset Nat) + (new : Multiset Nat) := add_le_add_left h.le _
      _ = (w'.created : Multiset Nat) := hcreated.symm

/-- A step keeps the books balanced exactly when it loses nothing. -/
theorem Booked.balanced_iff {lost : Multiset Nat} {new shut : List Nat} (hb : Booked w w' lost new shut)
    (h : Balanced w) : Balanced w' ↔ lost = 0 := by
  have hbal : w'.places + (w'.closed : Multiset Nat) + lost = (w'.created : Multiset Nat) := by
    rw [hb.balance, h, hb.created, Multiset.coe_add]
  unfold Balanced
  constructor
  · intro h'
    rw [h'] at hbal
    exact add_eq_left.1 hbal
  · rintro rfl
    rw [← hbal, add_zero]

private theorem ledgerInv_start (config : PoolConfig) : LedgerInv (World.start config : World C) := by
  have h := nodup_add_range' (m := 0) (a := 1) Multiset.nodup_zero (by simp) config.min
  refine ⟨?_, ?_, by simp [World.start, World.places, PoolState.start, scheduleOpenEffects, PoolState.held,
    Worker.hand]⟩
  · simpa [World.start, PoolState.start, scheduleOpenEffects, Worker.reserved] using h.1
  · simp [World.start, PoolState.start, scheduleOpenEffects, Worker.reserved]

/-- Every connection the create hook returned is held by the pool, or was passed to the close hook once and is not
held any more; once close has finished, all of them were. -/
def NoLeak (w : World C) : Prop :=
  (∀ i ∈ w.created, (i ∈ w.places ∧ w.closed.count i = 0) ∨ (i ∉ w.places ∧ w.closed.count i = 1)) ∧
    (w.closeFinished = true → ∀ i ∈ w.created, w.closed.count i = 1)

private theorem noLeak_iff_balanced (hl : LedgerInv w) (hs : ShutInv w) : NoLeak w ↔ Balanced w := by
  constructor
  · rintro ⟨h, -⟩
    refine le_antisymm hl.le (Multiset.le_iff_subset hl.created_nodup |>.2 fun i hi => ?_)
    rw [Multiset.mem_add, Multiset.mem_coe]
    rcases h i hi with h | h
    · exact Or.inl h.1
    · exact Or.inr (List.count_pos_iff.1 (by omega))
  · intro hb
    have hcount : ∀ i ∈ w.created, w.places.count i + w.closed.count i = 1 := by
      intro i hi
      rw [← Multiset.coe_count i w.closed, ← Multiset.count_add, hb]
      exact Multiset.count_eq_one_of_mem hl.created_nodup hi
    refine ⟨fun i hi => ?_, fun hf i hi => ?_⟩
    · have := hcount i hi
      by_cases hp : i ∈ w.places
      · have := Multiset.count_pos.2 hp
        exact Or.inl ⟨hp, by omega⟩
      · rw [Multiset.count_eq_zero.2 hp] at this
        exact Or.inr ⟨hp, by omega⟩
    · have := hcount i hi
      rw [hs.places_eq_zero hf, Multiset.count_zero] at this
      omega

/-- The invariants of every run, leaking or not. -/
structure RunInv (w : World C) : Prop where
  inv : Inv w
  ledger : LedgerInv w
  shut : ShutInv w

private theorem runInv_step (w : World C) (action : Action C) (w' : World C)
    (h : RunInv w ∧ RequestsInv w.state w.worker)
    (hs : step w action = some w') : RunInv w' ∧ RequestsInv w'.state w'.worker := by
  obtain ⟨⟨hinv, hledger, hshut⟩, hreq⟩ := h
  obtain ⟨new, shut, hb⟩ := booked_step hinv.core.keyed hreq hs
  obtain ⟨hinv', hreq'⟩ := inv_requestsInv_step ⟨hinv, hreq⟩ hs
  exact ⟨⟨hinv', hledger.booked hb, shutInv_step hinv.core.keyed hreq hshut hs⟩, hreq'⟩

private theorem noLeak_step (w : World C) (action : Action C) (w' : World C)
    (h : RunInv w ∧ RequestsInv w.state w.worker)
    (hn : NoLeak w) (hs : step w action = some w') : NoLeak w' ↔ ¬Leaks w action := by
  have h' := (runInv_step w action w' h hs).1
  obtain ⟨h, hreq⟩ := h
  obtain ⟨new, shut, hb⟩ := booked_step h.inv.core.keyed hreq hs
  rw [noLeak_iff_balanced h'.ledger h'.shut, hb.balanced_iff ((noLeak_iff_balanced h.ledger h.shut).1 hn),
    ← lostBy_ne_zero_iff, not_not]

/-- Along every run of the pool no connection is lost, if and only if no step of the run is one of the two leaking
steps. -/
theorem noLeak_iff (config : PoolConfig) (actions : List (Action C)) :
    Along step NoLeak (World.start config) actions ↔
      EachStep step (fun w action => ¬Leaks w action) (World.start config) actions := by
  refine along_iff_eachStep (I := fun w => RunInv w ∧ RequestsInv w.state w.worker) runInv_step noLeak_step
    ⟨⟨inv_start config, ledgerInv_start config, shutInv_start config⟩, requestsInv_start config⟩ ?_
  rw [noLeak_iff_balanced (ledgerInv_start config) (shutInv_start config)]
  simp [Balanced, World.start, World.places, PoolState.start, scheduleOpenEffects, PoolState.held, Worker.hand]

private theorem runInv_reachable {config : PoolConfig} (h : Reachable config w) : RunInv w ∧
    RequestsInv w.state w.worker := by
  obtain ⟨actions, h⟩ := h
  exact exec_induct (I := fun w => RunInv w ∧ RequestsInv w.state w.worker) runInv_step
    ⟨⟨inv_start config, ledgerInv_start config, shutInv_start config⟩, requestsInv_start config⟩ h

/-- In every run, leaking or not, no connection is closed twice or kept once closed, and those that the callers
of an open pool hold are busy. -/
theorem closed_at_most_once (config : PoolConfig) (h : Reachable config w) :
    w.closed.Nodup ∧ (∀ i ∈ w.closed, i ∈ w.created ∧ i ∉ w.places) ∧
      (w.state.isOpen = true → ∀ i ∈ w.guards, i ∈ ids w.state.busy ∧ i ∉ w.closed) := by
  obtain ⟨⟨hinv, hledger, -⟩, -⟩ := runInv_reachable h
  have hnodup := Multiset.nodup_of_le hledger.le hledger.created_nodup
  obtain ⟨-, hclosed, hdisjoint⟩ := Multiset.nodup_add.1 hnodup
  have hplaces : ∀ i ∈ w.closed, i ∉ w.places := fun i hi hp => Multiset.disjoint_left.1 hdisjoint hp hi
  refine ⟨hclosed, fun i hi => ⟨?_, hplaces i hi⟩, fun hopen i hi => ?_⟩
  · exact Multiset.mem_of_le hledger.le (Multiset.mem_add.2 (Or.inr hi))
  · have hbusy := hinv.guard.busy hopen i (List.mem_append_left _ hi)
    have hheld := Multiset.mem_of_le (ids_busy_le_held w.state) hbusy
    exact ⟨hbusy, fun hc => hplaces i hc (Multiset.mem_add.2 (Or.inl hheld))⟩

/-- Two connections are created and handed out, and the second guard is dropped from the pool. -/
def droppingRun : List (Action Unit) :=
  List.replicate 8 (.work .calm) ++
    [.acquire .calm {}, .poll .calm 1, .acquire .calm {}, .poll .calm 2, .dropFromPool .calm 2]

theorem closed_at_most_once_droppingRun :
    ∃ w, exec step (World.start (PoolConfig.new 2 2 1)) (droppingRun ++ List.replicate 8 (.work .calm)) = some w ∧
      w.closed = [2] ∧ w.guards = [1] ∧ w.closed.Nodup ∧ (∀ i ∈ w.closed, i ∈ w.created ∧ i ∉ w.places) ∧
      ∀ i ∈ w.guards, i ∈ ids w.state.busy ∧ i ∉ w.closed :=
  have h := closed_at_most_once (PoolConfig.new 2 2 1) ⟨droppingRun ++ List.replicate 8 (.work .calm), rfl⟩
  ⟨_, rfl, rfl, rfl, h.1, h.2.1, h.2.2 rfl⟩

private theorem isOpen_step {action : Action C} (hclosed : w.state.isOpen = false) (hs : step w action = some w') :
    w'.state.isOpen = false := by
  refine (edits_step hs).induct (P := fun s _ => s.isOpen = false) hclosed fun s wk t wk' hclosed he => ?_
  obtain hsame | ⟨rfl, -⟩ := he.frame.2
  · exact hsame.trans hclosed
  · rfl

/-- A closed pool stays closed, keeps connections only in the drop queue and in the slot of the request that the
worker is about to finish, and hands none out. -/
theorem closed_pool_drains (config : PoolConfig) (h : Reachable config w) (hclosed : w.state.isOpen = false)
    (actions : List (Action C)) (hrun : exec step w actions = some w') :
    Frozen w'.state w'.worker.filling ∧ ∀ env rid, handedOut (pollRequestCompletion env w'.state rid).1 = none := by
  have hinv := exec_induct (I := fun w => RunInv w ∧ RequestsInv w.state w.worker) runInv_step
    (runInv_reachable h) hrun
  have hshut : w'.state.isOpen = false :=
    exec_induct (I := fun w => w.state.isOpen = false) (fun _ _ _ => isOpen_step) hclosed hrun
  refine ⟨hinv.1.shut.frozen hshut, fun env rid => ?_⟩
  have hout := (pollRequestCompletion_spec env w'.state rid).2
  cases hnone : handedOut (pollRequestCompletion env w'.state rid).1 with
  | none => rfl
  | some connId =>
    rw [hnone] at hout
    exact absurd (hshut.symm.trans hout.1) Bool.false_ne_true

theorem closed_pool_drains_forced :
    ∃ v w w',
      exec step (World.start (PoolConfig.new 2 2 1)) (droppingRun ++ [.acquire .calm {}, .poll .calm 3]) = some v ∧
      v.guards = [1] ∧ ids v.state.toDrop = [2] ∧ v.state.requests.map (·.waiting) = [true] ∧
      exec step v [.close .calm true false] = some w ∧ ids w.state.toDrop = [2, 1] ∧
      exec step w ([.poll .calm 3, .release .calm 1] ++ List.replicate 8 (.work .calm)) = some w' ∧
      w'.closed = [1, 2] ∧ Frozen w'.state w'.worker.filling ∧
      ∀ env rid, handedOut (pollRequestCompletion env w'.state rid).1 = none :=
  ⟨_, _, _, rfl, rfl, rfl, rfl, rfl, rfl, rfl, rfl,
    closed_pool_drains (PoolConfig.new 2 2 1)
      ⟨droppingRun ++ [.acquire .calm {}, .poll .calm 3, .close .calm true false], rfl⟩ rfl
      ([.poll .calm 3, .release .calm 1] ++ List.replicate 8 (.work .calm)) rfl⟩

/-! ### The two leaks -/

/-- A pool of one connection that pings before every use. -/
def pingingConfig : PoolConfig := { PoolConfig.new 1 1 1 with pingIntervalSecs := 0 }

/-- The acquire of the only connection is abandoned while a ping is due, the worker takes the connection to ping it,
the pool is closed, and the worker finds the request gone. -/
def removedRequestRun : List (Action Unit) :=
  List.replicate 4 (.work .calm) ++ [.acquire .calm {}, .poll .calm 1, .abandon 1] ++
    List.replicate 2 (.work .calm) ++ [.close .calm false false] ++ List.replicate 7 (.work .calm) ++ [.closeReturn]

/-- A connection of class `X` is free, a connection for growth is being created, an acquire of class `X` is queued but
not yet polled: the created connection is parked in its slot, and its first poll attaches the free one. -/
def parkedConnectionRun : List (Action Unit) :=
  [.acquire .calm { cclass := some "X" }, .poll .calm 1] ++ List.replicate 5 (.work .calm) ++
    [.poll .calm 1, .release .calm 1, .acquire .calm { wantsNew := true }, .poll .calm 2, .abandon 2] ++
    List.replicate 6 (.work .calm) ++
    [.acquire .calm { cclass := some "X" }] ++ List.replicate 2 (.work .calm) ++ [.poll .calm 3]

/-- In the first run close has finished and the connection was never closed; in the second the connection created for
growth is neither held nor closed. -/
theorem noLeak_fails :
    (∃ w, exec step (World.start pingingConfig) removedRequestRun = some w ∧ w.closeFinished = true ∧
      w.created = [1] ∧ w.closed = [] ∧ ¬NoLeak w) ∧
    ∃ w, exec step (World.start (PoolConfig.new 0 2 1)) parkedConnectionRun = some w ∧
      w.created = [1, 2] ∧ 2 ∉ w.places ∧ w.closed = [] ∧ ¬NoLeak w := by
  refine ⟨⟨_, rfl, rfl, rfl, rfl, fun h => ?_⟩, ⟨_, rfl, rfl, by decide, rfl, fun h => ?_⟩⟩
  · have := h.2 rfl 1 (by decide)
    revert this
    decide
  · have := h.1 2 (by decide)
    revert this
    decide

end OracleThin.Pool

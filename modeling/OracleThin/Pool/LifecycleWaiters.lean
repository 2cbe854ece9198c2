import OracleThin.Pool.LifecycleSound

/-!
# Waiters and idle slots

A waiter queues only while every slot is taken and no further slot may be opened (`Attended`).  The loop over the
queue ends in such a state, and every transition that frees a slot runs it, except one: after a failed ping the waiter
goes back to the queue and nobody looks for another slot.
-/

namespace OracleThin.Pool.Lifecycle

open Lib PurePoolState

variable {pool : PurePoolState} {p : PoolSlot → Bool} {ix : Nat}

/-- No slot is idle and no further one may be opened. -/
structure Full (pool : PurePoolState) : Prop where
  taken : ∀ slot ∈ pool.slots, slot.state ≠ .idle
  live : pool.max ≤ pool.liveSlotCount

/-- A waiter queues only in a full pool. -/
def Attended (pool : PurePoolState) : Prop := pool.closing = false → pool.waiters ≠ [] → Full pool

/-- The slot is neither idle nor closed. -/
abbrev Works (state : PoolSlotState) : Prop := state ≠ .idle ∧ state ≠ .closed

private theorem full_setState (hix : pool.slots.findIdx? p = some ix) {state : PoolSlotState}
    (hold : Works (pool.slotAt ix).state) (hnew : Works state) : Full (pool.setState ix state) ↔ Full pool := by
  obtain ⟨-, l, r, hslots, hset⟩ := slots_split hix
  have hlive : (pool.setState ix state).liveSlotCount = pool.liveSlotCount := by
    simp [liveSlotCount, hset, hslots, hold.2, hnew.2]
  have htaken : (∀ slot ∈ (pool.setState ix state).slots, slot.state ≠ .idle) ↔
      ∀ slot ∈ pool.slots, slot.state ≠ .idle := by
    rw [hset, hslots]
    simp only [List.forall_mem_append, List.forall_mem_cons]
    simp [hold.1, hnew.1]
  constructor
  · exact fun h => ⟨htaken.1 h.taken, hlive ▸ h.live⟩
  · exact fun h => ⟨htaken.2 h.taken, hlive.symm ▸ h.live⟩

/-- The loop over the queue stops only in a full pool. -/
theorem attended_driveLoop (waiters : List WaiterId) (pool : PurePoolState) : Attended (driveLoop waiters pool) := by
  induction waiters generalizing pool with
  | nil => exact fun _ h => absurd rfl h
  | cons waiter waiters ih =>
    unfold driveLoop
    split
    · exact ih _
    · rename_i hnone
      split
      · exact ih _
      · rename_i hlive
        refine fun _ _ => ⟨fun slot hslot => ?_, Nat.le_of_not_lt hlive⟩
        simpa using List.findIdx?_eq_none_iff.1 hnone slot hslot

private theorem attended_driveWaiters (pool : PurePoolState) : Attended pool.driveWaiters := by
  unfold driveWaiters
  split
  · rename_i hclosing
    exact fun hopen => absurd (hclosing.symm.trans hopen) nofun
  · exact attended_driveLoop _ _

/-- Below the minimum nobody waits. -/
theorem Attended.openingLoop (h : Attended pool) (hmin : pool.min ≤ pool.max) (fuel : Nat) :
    Attended (openingLoop fuel pool) := by
  induction fuel generalizing pool with
  | zero => exact h
  | succ fuel ih =>
    unfold PurePoolState.openingLoop
    split
    · rename_i hmissing
      refine ih (fun _ hne => ?_) hmin
      have := (h hmissing.1 hne).live
      omega
    · exact h

private theorem min_max_driveLoop (waiters : List WaiterId) (pool : PurePoolState) :
    (driveLoop waiters pool).min = pool.min ∧ (driveLoop waiters pool).max = pool.max := by
  induction waiters generalizing pool with
  | nil => exact ⟨rfl, rfl⟩
  | cons waiter waiters ih =>
    unfold driveLoop
    split
    · exact ih _
    · split
      · exact ih _
      · exact ⟨rfl, rfl⟩

private theorem attended_driven (hmin : pool.min ≤ pool.max) : Attended pool.driveWaiters.ensureMinOpening := by
  refine (attended_driveWaiters pool).openingLoop ?_ _
  unfold driveWaiters
  split
  · exact hmin
  · obtain ⟨h₁, h₂⟩ := min_max_driveLoop pool.waiters pool
    rw [h₁, h₂]
    exact hmin

theorem Attended.setState (h : Attended pool) (hix : pool.slots.findIdx? p = some ix) {state : PoolSlotState}
    (hold : Works (pool.slotAt ix).state) (hnew : Works state) : Attended (pool.setState ix state) :=
  fun hopen hne => (full_setState hix hold hnew).2 (h hopen hne)

theorem Attended.grant (h : Attended pool) (hix : pool.slots.findIdx? p = some ix)
    (hold : Works (pool.slotAt ix).state) (slot : SlotId) (waiter : Option WaiterId) :
    Attended (pool.grant ix slot waiter) := by
  unfold PurePoolState.grant
  split
  · rename_i hclosing
    exact fun hopen => absurd (hclosing.symm.trans hopen) nofun
  · cases waiter with
    | some waiter => exact h.setState hix hold ⟨nofun, nofun⟩
    | none => exact attended_driveWaiters _

theorem Attended.cancelAcquire (h : Attended pool) (waiter : WaiterId) : Attended (pool.cancelAcquire waiter) := by
  have hleft : Attended { pool with waiters := pool.waiters.filter (· ≠ waiter) } := by
    intro hopen hne
    have hfull := h hopen fun hnil => hne (by rw [hnil]; rfl)
    exact ⟨hfull.taken, hfull.live⟩
  unfold PurePoolState.cancelAcquire leaveSlot
  split
  · rename_i ix hix
    split
    · rename_i hstate
      exact hleft.setState hix (hstate ▸ ⟨nofun, nofun⟩) ⟨nofun, nofun⟩
    · rename_i hstate
      exact hleft.setState hix (hstate ▸ ⟨nofun, nofun⟩) ⟨nofun, nofun⟩
    · exact attended_driveWaiters _
    · exact hleft
  · exact hleft

/-- A failed ping of a slot that is validated for a waiter finds a full pool. -/
def PingsFull (world : World) : Action → Prop
  | .completePing slot false => world.pool.closing = false → ∀ ix waiter, world.pool.slotIndex slot = .ok ix →
      (world.pool.slotAt ix).state = .validating (some waiter) → Full world.pool
  | _ => True

/-- After a failed ping the waiter is left alone unless the pool was full. -/
theorem attended_completePing {slot : SlotId} {pool' : PurePoolState} (h : Attended pool)
    (hok : pool.completePing slot false = .ok pool') :
    Attended pool' ↔ (pool.closing = false → ∀ ix waiter, pool.slotIndex slot = .ok ix →
      (pool.slotAt ix).state = .validating (some waiter) → Full pool) := by
  obtain ⟨ix, hix, hok⟩ := except_bind_eq_ok.1 hok
  split at hok
  · rename_i waiter hstate
    cases hok
    have hfind := (slotIndex_eq_ok hix).1
    have hfull : Full (((pool.setState ix .retiring).emit (.close slot .unhealthy)).requeue waiter) ↔ Full pool := by
      have hretire : Full (pool.setState ix .retiring) ↔ Full pool :=
        full_setState hfind (hstate ▸ ⟨nofun, nofun⟩) ⟨nofun, nofun⟩
      rw [← hretire]
      unfold requeue
      split <;> exact ⟨fun h => ⟨h.taken, h.live⟩, fun h => ⟨h.taken, h.live⟩⟩
    have hclosing : (((pool.setState ix .retiring).emit (.close slot .unhealthy)).requeue waiter).closing =
        pool.closing := by
      unfold requeue
      split <;> rfl
    rw [Attended, hfull, hclosing]
    constructor
    · intro hatt hopen ix' waiter' hix' hstate'
      cases hix.symm.trans hix'
      cases hstate.symm.trans hstate'
      refine hatt hopen ?_
      simp [requeue, emit, setState, hopen]
    · intro hcond hopen hne
      cases waiter with
      | some waiter => exact hcond hopen ix waiter hix hstate
      | none =>
        refine h hopen fun hnil => hne ?_
        simp [requeue, emit, setState, hopen, hnil]
  · cases hok

private theorem attended_called {world : World} {result : Except PoolLifecycleError PurePoolState}
    (h : Attended world.pool)
    (hok : ∀ pool', result = .ok pool' → Attended pool') : Attended (world.called result).pool := by
  cases result with
  | error e => exact h
  | ok pool' => exact hok pool' rfl

private theorem attended_reported {world : World} {key : EffectKind × SlotId}
    {result : Except PoolLifecycleError PurePoolState}
    (h : Attended world.pool) (hok : ∀ pool', result = .ok pool' → Attended pool') :
    Attended (world.reported key result).pool := by
  cases result with
  | error e => exact h
  | ok pool' => exact hok pool' rfl

/-- A step keeps the waiters attended exactly if it is not the failed ping of a slot in a pool that is not full. -/
theorem attended_step {world : World} (h : Attended world.pool) (hmin : world.pool.min ≤ world.pool.max)
    (action : Action) : Attended (world.step action).pool ↔ PingsFull world action := by
  cases action with
  | completePing slot healthy =>
    cases healthy with
    | true =>
      refine iff_of_true (attended_reported h fun pool' hok => ?_) trivial
      obtain ⟨ix, hix, hok⟩ := except_bind_eq_ok.1 hok
      split at hok
      · rename_i hst
        cases hok
        exact h.grant (slotIndex_eq_ok hix).1 (hst ▸ ⟨nofun, nofun⟩) slot _
      · cases hok
    | false =>
      cases hok : world.pool.completePing slot false with
      | ok pool' => rw [World.step, hok]; exact attended_completePing h hok
      | error e =>
        rw [World.step, hok]
        refine iff_of_true h fun hopen ix waiter hix hst => ?_
        simp [PurePoolState.completePing, hix, hst, bind, Except.bind, pure, Except.pure] at hok
  | acquire =>
    refine iff_of_true (attended_called h fun pool' hok => ?_) trivial
    obtain ⟨⟨waiter, _⟩, hacquire, rfl⟩ := except_map_eq_ok.1 hok
    unfold requestAcquire at hacquire
    split at hacquire
    · cases hacquire
    · cases hacquire; exact attended_driveWaiters _
  | cancel waiter => exact iff_of_true (h.cancelAcquire waiter) trivial
  | completeOpen slot healthy =>
    refine iff_of_true (attended_reported h fun pool' hok => ?_) trivial
    obtain ⟨ix, hix, hok⟩ := except_bind_eq_ok.1 hok
    split at hok
    · rename_i waiter hst
      split at hok
      · cases hok
        exact h.grant (slotIndex_eq_ok hix).1 (hst ▸ ⟨nofun, nofun⟩) slot _
      · cases hok
        refine attended_driven ?_
        unfold requeue
        split <;> exact hmin
    · cases hok
  | completeClose slot =>
    refine iff_of_true (attended_reported h fun pool' hok => ?_) trivial
    obtain ⟨ix, hix, hok⟩ := except_bind_eq_ok.1 hok
    split at hok
    · cases hok; exact attended_driven hmin
    · cases hok; exact attended_driven hmin
    · cases hok
  | release slot =>
    refine iff_of_true (attended_called h fun pool' hok => ?_) trivial
    obtain ⟨ix, hix, hok⟩ := except_bind_eq_ok.1 hok
    split at hok
    · cases hok; exact attended_driveWaiters _
    · cases hok
  | reapIdle slot =>
    refine iff_of_true (attended_called h fun pool' hok => ?_) trivial
    obtain ⟨ix, hix, hok⟩ := except_bind_eq_ok.1 hok
    split at hok
    · rename_i hst
      cases hok
      -- with an idle slot nobody waits
      intro hopen hne
      obtain ⟨-, l, r, hslots, -⟩ := slots_split (slotIndex_eq_ok hix).1
      exact absurd hst ((h hopen hne).taken (world.pool.slotAt ix) (by rw [hslots]; simp))
    · cases hok
  | beginClose force =>
    refine iff_of_true (attended_called h fun pool' hok => ?_) trivial
    unfold beginClose at hok
    split at hok
    · cases hok
    · cases hok; exact nofun
  | takeEffects => exact iff_of_true (fun hopen hne => ⟨(h hopen hne).taken, (h hopen hne).live⟩) trivial

/-- A machine that starts with `min` slots of at most `max` leaves a waiter beside an idle slot, or below the maximum,
in some state of a run exactly if the run has a failed ping for a waiter in a pool that is not full. -/
theorem no_waiter_beside_idle_iff {min max : Nat} (hmin : min ≤ max) (actions : List Action) :
    Along (fun world action => some (World.step world action)) (fun world => world.pool.closing = false →
        world.pool.waiters ≠ [] → (∀ slot ∈ world.pool.slots, slot.state ≠ .idle) ∧ world.pool.liveSlotCount = max)
      { pool := .new min max } actions ↔
    EachStep (fun world action => some (World.step world action)) PingsFull { pool := .new min max } actions := by
  have hiff : ∀ {world : World}, Sound max world.taken world.completed world.pool →
      ((world.pool.closing = false → world.pool.waiters ≠ [] →
        (∀ slot ∈ world.pool.slots, slot.state ≠ .idle) ∧ world.pool.liveSlotCount = max) ↔ Attended world.pool) := by
    intro world hsound
    have hmax := hsound.max_eq
    have hlive := hsound.live
    constructor
    · exact fun h hopen hne => ⟨(h hopen hne).1, Nat.le_of_eq (hmax.trans (h hopen hne).2.symm)⟩
    · intro h hopen hne
      have := (h hopen hne).live
      exact ⟨(h hopen hne).taken, by omega⟩
  refine along_iff_eachStep (I := fun world : World => Sound max world.taken world.completed world.pool)
    (fun world action world' h hs => by cases hs; exact h.step action) (fun world action world' hsound h hs => ?_)
    (sound_new hmin) ((hiff (sound_new hmin)).2 (Attended.openingLoop (fun _ hne => absurd rfl hne) hmin _))
  cases hs
  rw [hiff (hsound.step action)]
  exact attended_step ((hiff hsound).1 h) hsound.min_le action

/-- Of two slots one is checked out and the other one fails its ping, so the waiter finds a full pool. -/
def fullPingRun : List Action :=
  [.completeOpen 1 true, .completeOpen 2 true, .acquire, .completePing 1 true, .acquire, .completePing 2 false]

theorem no_waiter_beside_idle_fullPingRun :
    Along (fun world action => some (World.step world action)) (fun world => world.pool.closing = false →
        world.pool.waiters ≠ [] → (∀ slot ∈ world.pool.slots, slot.state ≠ .idle) ∧ world.pool.liveSlotCount = 2)
      { pool := .new 2 2 } fullPingRun :=
  (no_waiter_beside_idle_iff (Nat.le_refl 2) fullPingRun).2 (by
    refine .cons rfl trivial
      (.cons rfl trivial (.cons rfl trivial (.cons rfl trivial (.cons rfl trivial (.cons rfl ?_ trivial)))))
    exact fun _ _ _ _ _ => ⟨by decide, by decide⟩)

/-- The ping of one of two idle slots fails, and the waiter is queued beside the other one. -/
theorem waiter_beside_idle_after_ping :
    ∃ world, exec (fun world action => some (World.step world action)) { pool := .new 2 2 }
        [.completeOpen 1 true, .completeOpen 2 true, .acquire, .completePing 1 false] = some world ∧
      world.pool.closing = false ∧ world.pool.waiters = [1] ∧ ⟨2, .idle⟩ ∈ world.pool.slots :=
  ⟨_, rfl, rfl, rfl, by decide⟩

end OracleThin.Pool.Lifecycle

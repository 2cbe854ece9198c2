import OracleThin.Pool.Lifecycle

/-!
# Soundness of the pure lifecycle

The invariant of the lifecycle machine and its step and run lemmas. A transition changes one slot, opens slots or
serves the queue; what it has to respect is said once for a change of one slot (`Sound.setsState`) and for a new slot
(`Sound.opens`), and the loops over the queue and over missing slots repeat these.
-/

namespace OracleThin.Pool.Lifecycle

open Lib PurePoolState

/-- The effect that a state of a slot waits for. -/
def pendingOf (id : SlotId) : PoolSlotState → Option (EffectKind × SlotId)
  | .opening _ => some (.open, id)
  | .validating _ => some (.ping, id)
  | .retiring | .closing => some (.close, id)
  | .idle | .checkedOut _ | .closed => none

def PoolSlot.pending (slot : PoolSlot) : Option (EffectKind × SlotId) := pendingOf slot.id slot.state

/-- Where the waiters are: in the queue, or with a slot. -/
def places (pool : PurePoolState) : List WaiterId := pool.waiters ++ pool.slots.filterMap (·.state.waiter)

/-- The invariant of the machine with a bound on its slots, the effects that were taken and the completions that were
reported. -/
structure Sound (limit : Nat) (taken : List PoolEffect) (completed : List (EffectKind × SlotId))
    (pool : PurePoolState) :
    Prop where
  max_eq : pool.max = limit
  min_le : pool.min ≤ pool.max
  live : pool.liveSlotCount ≤ pool.max
  ids : (pool.slots.map PoolSlot.id).Nodup
  fresh : ∀ slot ∈ pool.slots, slot.id < pool.nextSlot
  alone : (places pool).Nodup
  issued : ∀ waiter ∈ places pool, waiter < pool.nextWaiter
  effects : ((taken ++ pool.effects).map PoolEffect.key).Perm (completed ++ pool.slots.filterMap PoolSlot.pending)
  quiet : pool.closing = true → pool.waiters = [] ∧ ∀ slot ∈ pool.slots, canClose slot.state = false

variable {limit : Nat} {taken : List PoolEffect} {completed done : List (EffectKind × SlotId)}
    {pool pool' : PurePoolState}

/-! ### One slot -/

variable {slot : SlotId} {ix : Nat} {p : PoolSlot → Bool} {state : PoolSlotState} {world : World} {α β : Type}
  {waiters : List WaiterId}

theorem slots_split (h : pool.slots.findIdx? p = some ix) :
    p (pool.slotAt ix) = true ∧ ∃ l r, pool.slots = l ++ ⟨(pool.slotAt ix).id, (pool.slotAt ix).state⟩ :: r ∧
      ∀ state, (pool.setState ix state).slots = l ++ ⟨(pool.slotAt ix).id, state⟩ :: r := by
  obtain ⟨hlt, hp, -⟩ := List.findIdx?_eq_some_iff_getElem.1 h
  have hslot : pool.slotAt ix = pool.slots[ix] := by simp [slotAt, List.getD_eq_getElem?_getD, hlt]
  rw [hslot]
  refine ⟨hp, pool.slots.take ix, pool.slots.drop (ix + 1), ?_, fun state => ?_⟩
  · rw [List.getElem_cons_drop, List.take_append_drop]
  · rw [setState, List.modify_eq_take_cons_drop hlt]

private theorem filterMap_cons_toList (f : α → Option β) (a : α) (r : List α) :
    (a :: r).filterMap f = (f a).toList ++ r.filterMap f := by
  cases h : f a <;> simp [h]

private theorem filterMap_split (f : α → Option β) (l : List α) (a : α) (r : List α) :
    (l ++ a :: r).filterMap f = l.filterMap f ++ ((f a).toList ++ r.filterMap f) := by
  rw [List.filterMap_append, filterMap_cons_toList]

private theorem filterMap_singleton (f : α → Option β) (a : α) : [a].filterMap f = (f a).toList := by
  rw [filterMap_cons_toList, List.filterMap_nil, List.append_nil]

private theorem subperm_of_none {state : PoolSlotState} (h : state.waiter = none) (others : List WaiterId) :
    (waiters ++ state.waiter.toList).Subperm (waiters ++ others) := by
  rw [h, Option.toList_none, List.append_nil]
  exact (List.sublist_append_left ..).subperm

section

variable (h : Sound limit taken completed pool)

include h

private theorem alone_of_count_le
    (hcount : ∀ waiter, (places pool').count waiter ≤ (places pool).count waiter) :
    (places pool').Nodup ∧ ∀ waiter ∈ places pool', waiter < pool.nextWaiter := by
  refine ⟨List.nodup_iff_count_le_one.2 fun waiter => ?_, fun waiter hwaiter => h.issued waiter ?_⟩
  · exact Nat.le_trans (hcount waiter) (List.nodup_iff_count_le_one.1 h.alone waiter)
  have hpos := List.count_pos_iff.2 hwaiter
  exact List.count_pos_iff.1 (Nat.lt_of_lt_of_le hpos (hcount waiter))

/-- A slot changes its state. It does not come back from `closed`, the waiters stay where they are or leave, and what
the slot waits for is asked for, or was reported. -/
theorem Sound.setsState (hix : pool.slots.findIdx? p = some ix)
    (hstate : (pool.slotAt ix).state = state) (state' : PoolSlotState) (waiters : List WaiterId)
    (new : List PoolEffect) (done : List (EffectKind × SlotId)) (hlive : state = .closed → state' = .closed)
    (hplaces : (waiters ++ state'.waiter.toList).Subperm (pool.waiters ++ state.waiter.toList))
    (hkeys : (new.map PoolEffect.key ++ (pendingOf (pool.slotAt ix).id state).toList).Perm
      (done ++ (pendingOf (pool.slotAt ix).id state').toList))
    (hquiet : pool.closing = true → waiters = [] ∧ canClose state' = false) :
    Sound limit taken (completed ++ done)
    { pool.setState ix state' with waiters, effects := pool.effects ++ new } := by
  obtain ⟨-, l, r, hslots, hset⟩ := slots_split hix
  have hslots' := hset state'
  rw [hstate] at hslots
  have hcount : ∀ waiter,
    (places { pool.setState ix state' with waiters, effects := pool.effects ++ new }).count waiter ≤
      (places pool).count waiter := by
    intro waiter
    have hle := hplaces.count_le waiter
    rw [places, places, hslots, hslots', filterMap_split, filterMap_split]
    simp only [List.count_append] at hle ⊢
    omega
  obtain ⟨halone, hissued⟩ := alone_of_count_le h hcount
  have hmem : ∀ slot ∈ (pool.setState ix state').slots, slot = ⟨(pool.slotAt ix).id, state'⟩ ∨ slot ∈ pool.slots := by
    rw [hslots, hslots']
    simp only [List.mem_append, List.mem_cons]
    tauto
  refine ⟨h.max_eq, h.min_le, ?_, ?_, fun slot hslot => ?_, halone, hissued, List.perm_iff_count.2 fun key => ?_,
    fun hclose => ⟨(hquiet hclose).1, fun slot hslot => ?_⟩⟩
  · have hlive' := h.live
    rw [liveSlotCount, hslots, List.countP_append, List.countP_cons] at hlive'
    rw [liveSlotCount, hslots', List.countP_append, List.countP_cons]
    by_cases hclosed : state = .closed
    · rw [hlive hclosed]
      simp only [hclosed] at hlive'
      exact hlive'
    · simp only [hclosed, ne_eq, not_false_eq_true, decide_true, if_true] at hlive' ⊢
      refine Nat.le_trans ?_ hlive'
      split <;> omega
  · have hids := h.ids
    rw [hslots] at hids
    rw [hslots']
    simpa using hids
  · rcases hmem slot hslot with rfl | hold
    · exact h.fresh ⟨_, state⟩ (by simp [hslots])
    · exact h.fresh slot hold
  · have hold := h.effects.count_eq key
    have hnew := hkeys.count_eq key
    rw [hslots, filterMap_split] at hold
    rw [hslots', filterMap_split]
    simp only [List.map_append, List.count_append, PoolSlot.pending] at hold hnew ⊢
    omega
  · rcases hmem slot hslot with rfl | hold
    · exact (hquiet hclose).2
    · exact (h.quiet hclose).2 slot hold

/-! ### New slots and the queue -/

/-- A slot is opened for a waiter of the queue, or for none. -/
theorem Sound.opens (hopen : pool.closing = false)
    (hlive : pool.liveSlotCount < pool.max) {waiter : Option WaiterId}
    (hplaces : (waiters ++ waiter.toList).Subperm pool.waiters) :
    Sound limit taken completed { pool.openSlot waiter with waiters } := by
  have hcount : ∀ w, (places { pool.openSlot waiter with waiters }).count w ≤ (places pool).count w := by
    intro w
    have hle := hplaces.count_le w
    simp only [places, openSlot, List.filterMap_append, List.count_append] at hle ⊢
    rw [filterMap_singleton]
    simp only [PoolSlotState.waiter]
    omega
  obtain ⟨halone, hissued⟩ := alone_of_count_le h hcount
  have hnew : ∀ slot ∈ pool.slots, slot.id ≠ pool.nextSlot := fun slot hslot =>
    Nat.ne_of_lt (h.fresh slot hslot)
  refine ⟨h.max_eq, h.min_le, ?_, ?_, ?_, halone, hissued, ?_, ?_⟩
  · simp only [liveSlotCount, openSlot, List.countP_append, List.countP_singleton]
    unfold liveSlotCount at hlive
    split <;> omega
  · simp only [openSlot, List.map_append, List.map_singleton]
    refine List.Nodup.append h.ids (List.nodup_singleton _) ?_
    intro id hid hsingle
    obtain ⟨slot, hslot, rfl⟩ := List.mem_map.1 hid
    exact hnew slot hslot (List.mem_singleton.1 hsingle)
  · intro slot hslot
    rcases List.mem_append.1 hslot with hold | hlast
    · exact Nat.lt_succ_of_lt (h.fresh slot hold)
    · rw [List.mem_singleton.1 hlast]
      exact Nat.lt_succ_self _
  · have hold := h.effects
    simp only [openSlot, List.filterMap_append, filterMap_singleton, ← List.append_assoc, List.map_append]
    rw [List.map_append] at hold
    exact hold.append_right _
  · intro hclose
    exact absurd (hopen.symm.trans hclose) nofun

theorem Sound.leaves (hwaiters : waiters.Subperm pool.waiters) :
    Sound limit taken completed { pool with waiters } := by
  have hcount : ∀ w, (places { pool with waiters }).count w ≤ (places pool).count w := by
    intro w
    have hle := hwaiters.count_le w
    simp only [places, List.count_append] at hle ⊢
    omega
  obtain ⟨halone, hissued⟩ := alone_of_count_le h hcount
  refine ⟨h.max_eq, h.min_le, h.live, h.ids, h.fresh, halone, hissued, h.effects, fun hclose => ?_⟩
  obtain ⟨hnil, hslots⟩ := h.quiet hclose
  rw [hnil] at hwaiters
  exact ⟨List.subperm_nil.1 hwaiters, hslots⟩

theorem Sound.arrives (hopen : pool.closing = false) :
    Sound limit taken completed
      { pool with nextWaiter := pool.nextWaiter + 1, waiters := pool.waiters ++ [pool.nextWaiter] } := by
  have hplaces : (places
    { pool with nextWaiter := pool.nextWaiter + 1, waiters := pool.waiters ++ [pool.nextWaiter] }).Perm
      (pool.nextWaiter :: places pool) := by
    simp only [places, List.append_assoc, List.singleton_append]
    exact List.perm_middle
  refine ⟨h.max_eq, h.min_le, h.live, h.ids, h.fresh, ?_, fun waiter hwaiter => ?_, h.effects, fun hclose => ?_⟩
  · refine hplaces.nodup_iff.2 (List.nodup_cons.2 ⟨fun hmem => ?_, h.alone⟩)
    exact Nat.lt_irrefl _ (h.issued _ hmem)
  · rcases List.mem_cons.1 (hplaces.mem_iff.1 hwaiter) with rfl | hold
    · exact Nat.lt_succ_self _
    · exact Nat.lt_succ_of_lt (h.issued waiter hold)
  · exact absurd (hopen.symm.trans hclose) nofun

end

/-- The loop over the queue gives idle slots and new ones to the waiters. -/
theorem Sound.driveLoop (h : Sound limit taken completed { pool with waiters }) (hopen : pool.closing = false) :
    Sound limit taken completed (driveLoop waiters pool) := by
  induction waiters generalizing pool with
  | nil => exact h
  | cons waiter waiters ih =>
    have hback : (waiters ++ [waiter]).Perm (waiter :: waiters) := List.perm_append_singleton waiter waiters
    unfold PurePoolState.driveLoop
    split
    · rename_i ix hix
      have hidle : (pool.slotAt ix).state = .idle := of_decide_eq_true (slots_split hix).1
      have hsound :=
        h.setsState hix hidle (.validating (some waiter)) waiters [.ping (pool.slotAt ix).id waiter] [] nofun
        (by simpa [PoolSlotState.waiter] using hback.subperm) (List.Perm.refl _)
        fun hclose => absurd (hopen.symm.trans hclose) nofun
      rw [List.append_nil] at hsound
      exact ih hsound hopen
    · split
      · rename_i hnone hlive
        exact ih (h.opens hopen hlive hback.subperm) hopen
      · exact h

theorem Sound.driveWaiters (h : Sound limit taken completed pool) :
    Sound limit taken completed pool.driveWaiters := by
  unfold PurePoolState.driveWaiters
  split
  · exact h
  · rename_i hopen
    exact Sound.driveLoop h (Bool.eq_false_iff.2 hopen)

/-- Slots are opened up to `min`, so not beyond `max`. -/
theorem Sound.openingLoop (h : Sound limit taken completed pool) (fuel : Nat) :
    Sound limit taken completed (openingLoop fuel pool) := by
  induction fuel generalizing pool with
  | zero => exact h
  | succ fuel ih =>
    unfold PurePoolState.openingLoop
    split
    · rename_i hmissing
      have hlive : pool.liveSlotCount < pool.max := Nat.lt_of_lt_of_le hmissing.2 h.min_le
      have hnone : (pool.waiters ++ (none : Option WaiterId).toList).Subperm pool.waiters := by
        rw [Option.toList_none, List.append_nil]
      exact ih (h.opens hmissing.1 hlive hnone)
    · exact h

theorem Sound.ensureMinOpening (h : Sound limit taken completed pool) :
    Sound limit taken completed pool.ensureMinOpening :=
  h.openingLoop pool.min

/-! ### Transitions -/

theorem slotIndex_eq_ok (h : pool.slotIndex slot = .ok ix) :
    pool.slots.findIdx? (·.id = slot) = some ix ∧ (pool.slotAt ix).id = slot := by
  unfold slotIndex at h
  split at h
  · rename_i hix
    cases h
    exact ⟨hix, of_decide_eq_true (slots_split hix).1⟩
  · cases h

section

variable (h : Sound limit taken completed pool)

include h

/-- A slot that waited for an effect is closed, given away or idle. -/
theorem Sound.grant (hix : pool.slotIndex slot = .ok ix)
    (hstate : (pool.slotAt ix).state = state) {waiter : Option WaiterId} (hwaiter : state.waiter = waiter)
    {kind : EffectKind} (hkind : pendingOf slot state = some (kind, slot)) :
    Sound limit taken (completed ++ [(kind, slot)]) (pool.grant ix slot waiter) := by
  obtain ⟨hfind, hid⟩ := slotIndex_eq_ok hix
  have hlive : state ≠ .closed := by
    rintro rfl
    cases hkind
  unfold PurePoolState.grant
  split
  · rename_i hclose
    refine h.setsState hfind hstate .closing pool.waiters [.close slot .force] [(kind, slot)]
      (fun hclosed => absurd hclosed hlive) (subperm_of_none rfl _) ?_ fun _ => ⟨(h.quiet hclose).1, rfl⟩
    rw [hid, hkind]
    exact List.Perm.swap ..
  · rename_i hopen
    have hgone (state' : PoolSlotState) (hidle : pendingOf slot state' = none)
        (hplaces : state'.waiter.toList.Subperm waiter.toList) :
        Sound limit taken (completed ++ [(kind, slot)]) (pool.setState ix state') := by
      have hsound :=
        h.setsState hfind hstate state' pool.waiters [] [(kind, slot)] (fun hclosed => absurd hclosed hlive)
        (by rw [hwaiter]; exact (List.subperm_append_left _).2 hplaces)
        (by rw [hid, hkind, hidle]; exact List.Perm.refl _) fun hclose => absurd hclose hopen
      rwa [List.append_nil] at hsound
    split
    · exact hgone _ rfl (List.Subperm.refl _)
    · exact (hgone .idle rfl (List.Subperm.refl _)).driveWaiters

/-- A slot fails and its waiter goes back to the queue, or is forgotten by a closing pool. -/
theorem Sound.fails (hix : pool.slots.findIdx? p = some ix)
    (hstate : (pool.slotAt ix).state = state) {waiter : Option WaiterId} (hwaiter : state.waiter = waiter)
    (state' : PoolSlotState) (hnone : state'.waiter = none) (hclosed : canClose state' = false)
    (hlive : state = .closed → state' = .closed) (new : List PoolEffect)
    (hkeys : (new.map PoolEffect.key ++ (pendingOf (pool.slotAt ix).id state).toList).Perm
      (done ++ (pendingOf (pool.slotAt ix).id state').toList)) :
    Sound limit taken (completed ++ done)
    ({ pool.setState ix state' with effects := pool.effects ++ new }.requeue waiter) := by
  unfold requeue
  split
  · rename_i hclose
    exact h.setsState hix hstate state' pool.waiters new done hlive (subperm_of_none hnone _) hkeys fun _ =>
      ⟨(h.quiet hclose).1, hclosed⟩
  · rename_i hopen
    refine h.setsState hix hstate state' (waiter.toList ++ pool.waiters) new done hlive ?_ hkeys
      fun hclose => absurd hclose hopen
    rw [hnone, hwaiter, Option.toList_none, List.append_nil]
    exact List.perm_append_comm.subperm

theorem Sound.completeOpen {healthy : Bool}
    (hok : pool.completeOpen slot healthy = .ok pool') : Sound limit taken (completed ++ [(.open, slot)]) pool' := by
  obtain ⟨ix, hix, hok⟩ := except_bind_eq_ok.1 hok
  obtain ⟨hfind, hid⟩ := slotIndex_eq_ok hix
  split at hok
  · rename_i waiter hstate
    split at hok
    · cases hok
      exact h.grant hix hstate rfl rfl
    · cases hok
      have hfailed := h.fails hfind hstate rfl .closed rfl rfl nofun []
        (by rw [hid]; exact List.Perm.refl ([(EffectKind.open, slot)] ++ []))
      rw [List.append_nil] at hfailed
      exact hfailed.driveWaiters.ensureMinOpening
  · cases hok

theorem Sound.completePing {healthy : Bool}
    (hok : pool.completePing slot healthy = .ok pool') : Sound limit taken (completed ++ [(.ping, slot)]) pool' := by
  obtain ⟨ix, hix, hok⟩ := except_bind_eq_ok.1 hok
  obtain ⟨hfind, hid⟩ := slotIndex_eq_ok hix
  split at hok
  · rename_i waiter hstate
    split at hok
    · cases hok
      exact h.grant hix hstate rfl rfl
    · cases hok
      exact h.fails hfind hstate rfl .retiring rfl rfl nofun [.close slot .unhealthy]
        (by rw [hid]; exact List.Perm.swap ..)
  · cases hok

/-- A slot that was checked out is idle, or closed by a closing pool. -/
theorem Sound.releaseSlotAt (hix : pool.slots.findIdx? p = some ix)
    {waiter : WaiterId} (hstate : (pool.slotAt ix).state = .checkedOut waiter) (reason : PoolCloseReason) :
    Sound limit taken completed (pool.releaseSlotAt ix reason) := by
  unfold PurePoolState.releaseSlotAt
  split
  · rename_i hclose
    have hsound := h.setsState hix hstate .closing pool.waiters [.close (pool.slotAt ix).id reason] [] nofun
      (subperm_of_none rfl _) (List.Perm.refl _) fun _ => ⟨(h.quiet hclose).1, rfl⟩
    rwa [List.append_nil] at hsound
  · rename_i hopen
    have hsound := h.setsState hix hstate .idle pool.waiters [] [] nofun (subperm_of_none rfl _) (List.Perm.refl _)
      fun hclose => absurd hclose hopen
    rwa [List.append_nil, List.append_nil] at hsound

theorem Sound.release (hok : pool.release slot = .ok pool') :
    Sound limit taken completed pool' := by
  obtain ⟨ix, hix, hok⟩ := except_bind_eq_ok.1 hok
  split at hok
  · rename_i waiter hstate
    cases hok
    exact (h.releaseSlotAt (slotIndex_eq_ok hix).1 hstate .graceful).driveWaiters
  · cases hok

theorem Sound.reapIdle (hok : pool.reapIdle slot = .ok pool') :
    Sound limit taken completed pool' := by
  obtain ⟨ix, hix, hok⟩ := except_bind_eq_ok.1 hok
  obtain ⟨hfind, hid⟩ := slotIndex_eq_ok hix
  split at hok
  · rename_i hstate
    cases hok
    have hsound := h.setsState hfind hstate .retiring pool.waiters [.close slot .reap] [] nofun (List.Subperm.refl _)
      (by rw [hid]; exact List.Perm.refl _) fun hclose => ⟨(h.quiet hclose).1, rfl⟩
    rwa [List.append_nil] at hsound
  · cases hok

theorem Sound.completeClose (hok : pool.completeClose slot = .ok pool') :
    Sound limit taken (completed ++ [(.close, slot)]) pool' := by
  obtain ⟨ix, hix, hok⟩ := except_bind_eq_ok.1 hok
  obtain ⟨hfind, hid⟩ := slotIndex_eq_ok hix
  have hclosed {state : PoolSlotState} (hstate : (pool.slotAt ix).state = state) (hwaiter : state.waiter = none)
      (hpending : pendingOf slot state = some (.close, slot)) :
      Sound limit taken (completed ++ [(.close, slot)]) (pool.setState ix .closed).driveWaiters.ensureMinOpening := by
    have hsound := h.setsState hfind hstate .closed pool.waiters [] [(.close, slot)] (fun _ => rfl)
      (by rw [hwaiter]; exact List.Subperm.refl _) (by rw [hid, hpending]; exact List.Perm.refl _)
      fun hclose => ⟨(h.quiet hclose).1, rfl⟩
    rw [List.append_nil] at hsound
    exact hsound.driveWaiters.ensureMinOpening
  split at hok
  · rename_i hstate
    cases hok
    exact hclosed hstate rfl rfl
  · rename_i hstate
    cases hok
    exact hclosed hstate rfl rfl
  · cases hok

theorem Sound.requestAcquire {waiter : WaiterId}
    (hok : pool.requestAcquire = .ok (waiter, pool')) : Sound limit taken completed pool' := by
  unfold PurePoolState.requestAcquire at hok
  split at hok
  · cases hok
  · rename_i hopen
    cases hok
    exact (h.arrives (Bool.eq_false_iff.2 hopen)).driveWaiters

theorem Sound.leaveSlot (waiter : WaiterId) :
    Sound limit taken completed (pool.leaveSlot waiter) := by
  unfold PurePoolState.leaveSlot
  split
  · rename_i ix hix
    -- A slot that waits for an effect goes on waiting for it, for nobody.
    have hnobody {state state' : PoolSlotState} (hstate : (pool.slotAt ix).state = state)
      (hnone : state'.waiter = none)
        (hpending : pendingOf (pool.slotAt ix).id state' = pendingOf (pool.slotAt ix).id state)
        (hlive : state ≠ .closed) (hclosed : canClose state' = false) :
        Sound limit taken completed (pool.setState ix state') := by
      have hsound := h.setsState hix hstate state' pool.waiters [] [] (fun hc => absurd hc hlive)
        (subperm_of_none hnone _) (by rw [hpending]; exact List.Perm.refl _)
          fun hclose => ⟨(h.quiet hclose).1, hclosed⟩
      rwa [List.append_nil, List.append_nil] at hsound
    split
    · rename_i hstate
      exact hnobody hstate rfl rfl nofun rfl
    · rename_i hstate
      exact hnobody hstate rfl rfl nofun rfl
    · rename_i hstate
      exact (h.releaseSlotAt hix hstate .graceful).driveWaiters
    · exact h
  · exact h

theorem Sound.cancelAcquire (waiter : WaiterId) :
    Sound limit taken completed (pool.cancelAcquire waiter) :=
  (h.leaves List.filter_sublist.subperm).leaveSlot waiter

end

/-- A slot as a closing pool leaves it. -/
private def closeSlot (slot : PoolSlot) : PoolSlot :=
  if canClose slot.state then { slot with state := .closing } else slot

private theorem closeSlot_id (slot : PoolSlot) : (closeSlot slot).id = slot.id := by
  unfold closeSlot
  split <;> rfl

private theorem closeSlot_canClose (slot : PoolSlot) : canClose (closeSlot slot).state = false := by
  unfold closeSlot
  split
  · rfl
  · rename_i h
    exact Bool.eq_false_iff.2 h

private theorem closeSlot_closed (slot : PoolSlot) : (closeSlot slot).state = .closed ↔ slot.state = .closed := by
  unfold closeSlot
  split
  · rename_i h
    refine iff_of_false nofun fun hclosed => ?_
    rw [hclosed] at h
    cases h
  · rfl

private theorem closeSlot_waiters (slots : List PoolSlot) :
    ((slots.map closeSlot).filterMap (·.state.waiter)).Sublist (slots.filterMap (·.state.waiter)) := by
  induction slots with
  | nil => exact List.Sublist.refl _
  | cons slot slots ih =>
    have hhead : (closeSlot slot).state.waiter.toList.Sublist slot.state.waiter.toList := by
      unfold closeSlot
      split
      · exact List.nil_sublist _
      · exact List.Sublist.refl _
    rw [List.map_cons, filterMap_cons_toList, filterMap_cons_toList]
    exact hhead.append ih

private theorem closeSlot_pending (slots : List PoolSlot) :
    (slots.filterMap PoolSlot.pending ++ (slots.filter (canClose ·.state)).map fun slot =>
      (EffectKind.close, slot.id)).Perm
      ((slots.map closeSlot).filterMap PoolSlot.pending) := by
  induction slots with
  | nil => exact List.Perm.refl _
  | cons slot slots ih =>
    rw [List.map_cons, filterMap_cons_toList, filterMap_cons_toList, List.filter_cons]
    by_cases hclose : canClose slot.state = true
    · have hold : slot.pending = none := by
        unfold PoolSlot.pending
        cases hstate : slot.state <;> simp_all [canClose, pendingOf]
      have hnew : (closeSlot slot).pending = some (.close, slot.id) := by
        rw [closeSlot, if_pos hclose]
        rfl
      rw [if_pos hclose, hold, hnew, List.map_cons]
      exact List.perm_middle.trans (ih.cons _)
    · rw [if_neg hclose, show closeSlot slot = slot from if_neg hclose, List.append_assoc]
      exact ih.append_left _

/-- Every slot that waits for nothing is closed, and so the queue is empty and no slot is idle or checked out. -/
theorem Sound.beginClose (h : Sound limit taken completed pool) {force : Bool}
    (hok : pool.beginClose force = .ok pool') :
    Sound limit taken completed pool' := by
  unfold PurePoolState.beginClose at hok
  split at hok
  · cases hok
  · rename_i hbusy
    cases hok
    have hwaiters : (if force then [] else pool.waiters) = [] := by
      cases force with
      | true => rfl
      | false =>
        by_contra hne
        exact hbusy ⟨rfl, Or.inr hne⟩
    have hslots : (pool.slots.map fun slot => if canClose slot.state then { slot with state := .closing } else slot) =
        pool.slots.map closeSlot := rfl
    rw [hwaiters, hslots]
    have hcount : ∀ w, (places { pool with waiters := [], slots := pool.slots.map closeSlot }).count w ≤
        (places pool).count w := by
      intro w
      have hle := (closeSlot_waiters pool.slots).count_le w
      simp only [places, List.nil_append, List.count_append]
      omega
    obtain ⟨halone, hissued⟩ := alone_of_count_le h hcount
    refine ⟨h.max_eq, h.min_le, ?_, ?_, ?_, halone, hissued, ?_, fun _ => ⟨rfl, fun slot hslot => ?_⟩⟩
    · have hlive := h.live
      unfold liveSlotCount at hlive ⊢
      simpa [Function.comp_def, closeSlot_closed] using hlive
    · simpa [Function.comp_def, closeSlot_id] using h.ids
    · intro slot hslot
      obtain ⟨old, hold, rfl⟩ := List.mem_map.1 hslot
      rw [closeSlot_id]
      exact h.fresh old hold
    · rw [← List.append_assoc, List.map_append, List.map_map]
      refine (h.effects.append_right _).trans ?_
      rw [List.append_assoc]
      exact (closeSlot_pending pool.slots).append_left completed
    · obtain ⟨old, -, rfl⟩ := List.mem_map.1 hslot
      exact closeSlot_canClose old

theorem Sound.takeEffects (h : Sound limit taken completed pool) :
    Sound limit (taken ++ pool.takeEffects.1) completed pool.takeEffects.2 := by
  refine { h with effects := ?_ }
  rw [PurePoolState.takeEffects, List.append_nil]
  exact h.effects

/-! ### Steps and runs -/

/-- Every step keeps the invariant. -/
theorem Sound.step (h : Sound limit world.taken world.completed world.pool) (action : Action) :
    Sound limit (world.step action).taken (world.step action).completed (world.step action).pool := by
  have hcalled {result : Except PoolLifecycleError PurePoolState}
      (hok : ∀ pool', result = .ok pool' → Sound limit world.taken world.completed pool') :
      Sound limit (world.called result).taken (world.called result).completed (world.called result).pool := by
    cases result with
    | error e => exact h
    | ok pool' => exact hok pool' rfl
  have hreported {key : EffectKind × SlotId} {result : Except PoolLifecycleError PurePoolState}
      (hok : ∀ pool', result = .ok pool' → Sound limit world.taken (world.completed ++ [key]) pool') :
      Sound limit (world.reported key result).taken (world.reported key result).completed
        (world.reported key result).pool := by
    cases result with
    | error e => exact h
    | ok pool' => exact hok pool' rfl
  cases action with
  | acquire =>
    refine hcalled fun pool' hok => ?_
    obtain ⟨⟨waiter, _⟩, hacquire, rfl⟩ := except_map_eq_ok.1 hok
    exact h.requestAcquire hacquire
  | cancel waiter => exact h.cancelAcquire waiter
  | completeOpen slot healthy => exact hreported fun _ => h.completeOpen
  | completePing slot healthy => exact hreported fun _ => h.completePing
  | completeClose slot => exact hreported fun _ => h.completeClose
  | release slot => exact hcalled fun _ => h.release
  | reapIdle slot => exact hcalled fun _ => h.reapIdle
  | beginClose force => exact hcalled fun _ => h.beginClose
  | takeEffects => exact h.takeEffects

theorem sound_new {min max : Nat} (hmin : min ≤ max) : Sound max [] [] (.new min max) := by
  have hempty : Sound max [] [] { min, max } :=
    ⟨rfl, hmin, Nat.zero_le _, List.nodup_nil, nofun, List.nodup_nil, nofun, List.Perm.refl _, nofun⟩
  exact hempty.ensureMinOpening

/-- The state after a sequence of actions. -/
def run (min max : Nat) (actions : List Action) : World := actions.foldl World.step { pool := .new min max }

theorem Sound.foldl (h : Sound limit world.taken world.completed world.pool) (actions : List Action) :
    Sound limit (actions.foldl World.step world).taken (actions.foldl World.step world).completed
      (actions.foldl World.step world).pool := by
  induction actions generalizing world with
  | nil => exact h
  | cons action actions ih => exact ih (h.step action)

/-! ### Outstanding effects -/

private theorem pending_ids (slots : List PoolSlot) :
    ((slots.filterMap PoolSlot.pending).map Prod.snd).Sublist (slots.map PoolSlot.id) := by
  induction slots with
  | nil => exact List.Sublist.refl _
  | cons slot slots ih =>
    have hhead : (slot.pending.toList.map Prod.snd).Sublist [slot.id] := by
      unfold PoolSlot.pending
      cases slot.state <;> simp [pendingOf]
    rw [filterMap_cons_toList, List.map_append, List.map_cons, ← List.singleton_append]
    exact hhead.append ih

private theorem pending_snd {slot : PoolSlot} {key : EffectKind × SlotId} (h : slot.pending = some key) :
    key.2 = slot.id := by
  unfold PoolSlot.pending at h
  cases hstate : slot.state <;> rw [hstate] at h <;> cases h <;> rfl

/-- The effects that are not done are those that the slots wait for. -/
theorem Sound.outstanding_perm (h : Sound limit world.taken world.completed world.pool) :
    world.outstanding.Perm (world.pool.slots.filterMap PoolSlot.pending) := by
  refine List.perm_iff_count.2 fun key => ?_
  have hcount := h.effects.count_eq key
  rw [World.outstanding, List.count_diff]
  rw [List.count_append] at hcount
  omega

theorem Sound.outstanding_count (h : Sound limit world.taken world.completed world.pool) {slot : PoolSlot}
    (hslot : slot ∈ world.pool.slots) (kind : EffectKind) :
    world.outstanding.count (kind, slot.id) =
      if pendingOf slot.id slot.state = some (kind, slot.id) then 1 else 0 := by
  rw [h.outstanding_perm.count_eq]
  have hnodup : (world.pool.slots.filterMap PoolSlot.pending).Nodup := .of_map _ ((pending_ids _).nodup h.ids)
  split
  · rename_i hpending
    exact List.count_eq_one_of_mem hnodup (List.mem_filterMap.2 ⟨slot, hslot, hpending⟩)
  · rename_i hother
    refine List.count_eq_zero.2 fun hmem => ?_
    -- Another slot with the same id would be the same slot.
    obtain ⟨slot', hslot', hpending⟩ := List.mem_filterMap.1 hmem
    have hid : slot.id = slot'.id := pending_snd hpending
    have hsame : slot = slot' := List.inj_on_of_nodup_map h.ids hslot hslot' hid
    subst hsame
    exact hother hpending

/-- The machine keeps to its bound, has every waiter in one place at most, has exactly the effect outstanding that
each slot waits for, and has closed all slots when it is closing and nothing is outstanding. -/
theorem lifecycle_sound {min max : Nat} (hmin : min ≤ max) (actions : List Action) :
    (run min max actions).pool.liveSlotCount ≤ max ∧ (places (run min max actions).pool).Nodup ∧
      (∀ slot ∈ (run min max actions).pool.slots, ∀ kind, (run min max actions).outstanding.count (kind, slot.id) =
        if pendingOf slot.id slot.state = some (kind, slot.id) then 1 else 0) ∧
      ((run min max actions).pool.closing = true → (run min max actions).outstanding = [] →
        ∀ slot ∈ (run min max actions).pool.slots, slot.state = .closed) := by
  have h : Sound max (run min max actions).taken (run min max actions).completed (run min max actions).pool :=
    Sound.foldl (sound_new hmin) actions
  have hlive := h.live
  rw [h.max_eq] at hlive
  refine ⟨hlive, h.alone, fun slot hslot => h.outstanding_count hslot, fun hclosing hnone slot hslot => ?_⟩
  have hidle := (h.quiet hclosing).2 slot hslot
  have hwaits (kind : EffectKind) : pendingOf slot.id slot.state ≠ some (kind, slot.id) := by
    intro hpending
    have hcount := h.outstanding_count hslot kind
    rw [hnone, if_pos hpending] at hcount
    cases hcount
  cases hstate : slot.state with
  | closed => rfl
  | idle | checkedOut _ =>
    rw [hstate] at hidle
    cases hidle
  | opening _ => exact absurd (by rw [hstate]; rfl) (hwaits .open)
  | validating _ => exact absurd (by rw [hstate]; rfl) (hwaits .ping)
  | retiring | closing => exact absurd (by rw [hstate]; rfl) (hwaits .close)

/-- A waiter gets the only slot, the pool is closed by force, and the close is reported. -/
theorem lifecycle_sound_forced :
    (run 0 1 [.acquire, .completeOpen 1 true, .acquire, .beginClose true, .completeClose 1]).pool.slots.all
      (·.state = .closed) :=
  List.all_eq_true.2 fun slot hslot => decide_eq_true ((lifecycle_sound (Nat.zero_le 1)
    [.acquire, .completeOpen 1 true, .acquire, .beginClose true, .completeClose 1]).2.2.2 rfl rfl slot hslot)

end OracleThin.Pool.Lifecycle

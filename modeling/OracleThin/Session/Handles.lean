import OracleThin.Lib.Transition
import OracleThin.Session.Recovery

/-!
# The recovery phase between a connection and its cancel handles

The owner of a connection and any number of cancel handles share the phase and the write half of the socket. Each
load, compare-and-exchange and store of the phase is one step, and so is each lock and each write. A handle looks at
the phase, writes its BREAK under the write lock and then updates the phase; the owner enters a drain by
compare-and-exchange, but it leaves the drain by a store.
-/

namespace OracleThin.Session.Handles

open Lib SessionRecoveryPhase

/-! ### Actors -/

/-- The loop of `mark_break_sent`: it loads the phase and then, when the session is live and no break was sent, tries
to exchange what it has seen. -/
inductive Marking
  | loading
  | exchanging (seen : SessionRecoveryPhase) (live : seen = .ready ∨ seen = .inFlight)
deriving DecidableEq, Repr

/-- Where the owner is between two of its steps. -/
inductive Owner
  | idle
  /-- A request is being sent; a speculative one is in flight already. -/
  | sending (speculative locked : Bool)
  | sendFailed
  /-- The guard of a read is armed. -/
  | reading
  /-- `ensure_clean_before_request` has seen a response in flight. -/
  | cleaning
  /-- Before `begin_pending_drain`, called from `ensure_clean_before_request` or after a break was marked. -/
  | entering (afterBreak : Bool)
  | marking (loop : Marking)
  | draining (locked : Bool)
  | drained
  | drainFailed
  /-- `__pyshim_reconcile_completed_cancel_response` has seen that a break was sent. -/
  | reconciling
deriving DecidableEq, Repr

/-- Where a handle is between two of its steps; `recovery` is `cancel_for_recovery`, which gives the lock back with
the marker, and not `cancel`, which keeps it to its end. -/
inductive Handle
  | idle
  | waiting
  | holding
  | trying
  | writing (recovery : Bool)
  | marking (loop : Marking) (locked : Bool)
  | failed (locked : Bool)
deriving DecidableEq, Repr

structure Shared where
  phase : SessionRecoveryPhase := .ready
  writeLocked : Bool := false
  owner : Owner := .idle
  handles : List Handle := []
deriving DecidableEq, Repr

/-- A fresh connection with `n` handles. -/
def start (n : Nat) : Shared := { handles := List.replicate n .idle }

inductive OwnerAction
  | send
  | beginOperation
  | lock
  | sent
  | sendFail
  | dropSend
  | arm
  | disarm
  | dropGuard
  | markDead
  | ensureClean
  | markBreakRequired
  | breakSession
  | markBreakSent
  | beginPendingDrain
  | tryLock
  | write
  | finishDrain
  | failDrain
  | reconcile
  | finishDrainReady
deriving DecidableEq, Repr

inductive HandleAction
  | cancel
  | lock
  | check
  | cancelForRecovery
  | tryLock
  | write
  | fail
  | markBreakSent
  | markDead
  | abandon
deriving DecidableEq, Repr

inductive Action
  | owner (action : OwnerAction)
  | handle (index : Nat) (action : HandleAction)
deriving DecidableEq, Repr

/-! ### Steps -/

/-- One step of `mark_break_sent`: the phase after, and the loop or, when it is left, whether it succeeded. -/
def markStep (phase : SessionRecoveryPhase) : Marking → SessionRecoveryPhase × (Marking ⊕ Bool)
  | .loading =>
    match phase with
    | dead => (phase, .inr false)
    | breakSent | draining => (phase, .inr true)
    | ready => (phase, .inl (.exchanging ready (Or.inl rfl)))
    | inFlight => (phase, .inl (.exchanging inFlight (Or.inr rfl)))
  | .exchanging seen _ => if phase = seen then (breakSent, .inr true) else (phase, .inl .loading)

/-- `should_send_break_request`, with its error as `false`: a handle goes on only with a `true`. -/
def shouldSendBreakRequest : SessionRecoveryPhase → Bool
  | dead | breakSent | draining => false
  | ready | inFlight => true

def ownerStep (s : Shared) (action : OwnerAction) : Option Shared :=
  match action, s.owner with
  | .send, .idle => some { s with owner := .sending false false }
  | .beginOperation, .idle =>
    match s.phase.beginOperation with
    | .error _ => some s
    | .ok phase => some { s with phase, owner := .sending true false }
  | .lock, .sending speculative false =>
    if s.writeLocked then none else some { s with writeLocked := true, owner := .sending speculative true }
  | .sent, .sending _ true => some { s with writeLocked := false, owner := .idle }
  | .sendFail, .sending speculative locked =>
    some { s with
      writeLocked := s.writeLocked && !locked
      owner := if speculative then .sendFailed else .idle }
  | .dropSend, .sending _ locked => some { s with writeLocked := s.writeLocked && !locked, owner := .idle }
  | .arm, .idle =>
    match s.phase.beginOrAdoptOperation with
    | .error _ => some s
    | .ok phase => some { s with phase, owner := .reading }
  | .disarm, .reading => some { s with phase := s.phase.completeOperation, owner := .idle }
  | .dropGuard, .reading => some { s with phase := s.phase.markBreakRequired, owner := .idle }
  -- A protocol error of a read, a cancellation that closes the session and a fatal server error.
  | .markDead, .reading | .markDead, .idle => some { s with phase := s.phase.markDead }
  | .markDead, .sendFailed | .markDead, .drainFailed => some { s with phase := s.phase.markDead, owner := .idle }
  | .ensureClean, .idle => some { s with owner := if s.phase = .inFlight then .cleaning else .entering false }
  | .markBreakRequired, .cleaning => some { s with phase := s.phase.markBreakRequired, owner := .entering false }
  -- `break_and_drain`, `drain_cancel_response` and `cancel`.
  | .breakSession, .idle => some { s with owner := .marking .loading }
  | .markBreakSent, .marking loop =>
    match markStep s.phase loop with
    | (phase, .inl loop) => some { s with phase, owner := .marking loop }
    | (phase, .inr true) => some { s with phase, owner := .entering true }
    | (phase, .inr false) => some { s with phase, owner := .idle }
  | .beginPendingDrain, .entering _ =>
    match s.phase.beginPendingDrain with
    | .ok (true, phase) => some { s with phase, owner := .draining false }
    | _ => some { s with owner := .idle }
  | .tryLock, .draining false =>
    some (if s.writeLocked then { s with owner := .drainFailed }
      else { s with writeLocked := true, owner := .draining true })
  | .write, .draining true => some { s with writeLocked := false, owner := .draining false }
  | .finishDrain, .draining false => some { s with owner := .drained }
  | .failDrain, .draining locked => some { s with writeLocked := s.writeLocked && !locked, owner := .drainFailed }
  | .reconcile, .idle => some { s with owner := if s.phase = .breakSent then .reconciling else .idle }
  | .finishDrainReady, .drained | .finishDrainReady, .reconciling =>
    some { s with phase := s.phase.finishDrainReady, owner := .idle }
  | _, _ => none

/-- The step of one handle: the phase, the lock and the handle after it. -/
def handleStep (phase : SessionRecoveryPhase) (writeLocked : Bool) (handle : Handle) (action : HandleAction) :
    Option (SessionRecoveryPhase × Bool × Handle) :=
  match action, handle with
  | .cancel, .idle => some (phase, writeLocked, if shouldSendBreakRequest phase then .waiting else .idle)
  | .lock, .waiting => if writeLocked then none else some (phase, true, .holding)
  | .check, .holding =>
    some (if shouldSendBreakRequest phase then (phase, writeLocked, .writing false) else (phase, false, .idle))
  | .cancelForRecovery, .idle => some (phase, writeLocked, if shouldSendBreakRequest phase then .trying else .idle)
  | .tryLock, .trying =>
      some (if writeLocked then (phase, writeLocked, .failed false) else (phase, true, .writing true))
  | .write, .writing recovery => some (phase, !recovery, .marking .loading !recovery)
  | .fail, .writing recovery => some (phase, !recovery, .failed !recovery)
  -- The recovery thread does not start.
  | .fail, .trying => some (phase, writeLocked, .failed false)
  | .markBreakSent, .marking loop locked =>
    match markStep phase loop with
    | (phase, .inl loop) => some (phase, writeLocked, .marking loop locked)
    | (phase, .inr _) => some (phase, writeLocked && !locked, .idle)
  | .markDead, .failed locked => some (phase.markDead, writeLocked && !locked, .idle)
  -- The future of `cancel` is dropped, or its context is cancelled while it waits.
  | .abandon, .waiting => some (phase, writeLocked, .idle)
  | .abandon, .writing false => some (phase, false, .idle)
  | _, _ => none

def step (s : Shared) : Action → Option Shared
  | .owner action => ownerStep s action
  | .handle index action => do
    let handle ← s.handles[index]?
    let (phase, writeLocked, handle) ← handleStep s.phase s.writeLocked handle action
    return { s with phase, writeLocked, handles := s.handles.set index handle }

/-! ### What a step does to the phase -/

variable {s t : Shared} {phase : SessionRecoveryPhase}

private theorem markStep_eq_self (hphase : phase ≠ ready ∧ phase ≠ inFlight) (loop : Marking) :
    (markStep phase loop).1 = phase := by
  cases loop with
  | loading => cases phase <;> rfl
  | exchanging seen live =>
    have hne : phase ≠ seen := by
      rintro rfl
      exact live.elim hphase.1 hphase.2
    rw [markStep, if_neg hne]

/-- Once a break was sent, a handle leaves the phase as it is or marks the session dead. -/
theorem handleStep_phase {phase' : SessionRecoveryPhase} {writeLocked writeLocked' : Bool} {handle handle' : Handle}
    {action : HandleAction} (hphase : phase ≠ ready ∧ phase ≠ inFlight)
    (h : handleStep phase writeLocked handle action = some (phase', writeLocked', handle')) :
    phase' = phase ∨ phase' = dead := by
  unfold handleStep at h
  split at h
  case h_9 loop _ =>
    have hmark := markStep_eq_self hphase loop
    split at h <;> cases h <;> simp_all
  all_goals grind [markDead]

private theorem ownerStep_dead {action : OwnerAction} (hs : s.phase = dead) (h : ownerStep s action = some t)
    (haction : action ≠ .finishDrainReady) : t.phase = dead := by
  obtain ⟨phase, writeLocked, owner, handles⟩ := s
  obtain rfl : phase = dead := hs
  have hmark (loop : Marking) : (markStep dead loop).1 = dead := markStep_eq_self (by decide) loop
  unfold ownerStep at h
  split at h
  case h_3 => split at h <;> cases h; rfl
  case h_17 loop _ =>
    have hphase := hmark loop
    split at h <;> cases h <;> simp_all
  case h_19 => cases h; split <;> rfl
  case h_24 | h_25 => exact absurd rfl haction
  case h_26 => cases h
  all_goals
    cases h
    rfl

private theorem step_handle_eq_some {index : Nat} {action : HandleAction} :
    step s (.handle index action) = some t ↔ ∃ handle phase writeLocked handle', s.handles[index]? = some handle ∧
      handleStep s.phase s.writeLocked handle action = some (phase, writeLocked, handle') ∧
      t = { s with phase, writeLocked, handles := s.handles.set index handle' } := by
  simp only [step, Option.bind_eq_bind, Option.bind_eq_some_iff]
  constructor
  · rintro ⟨handle, hget, ⟨phase, writeLocked, handle'⟩, hstep, ht⟩
    exact ⟨handle, phase, writeLocked, handle', hget, hstep, (Option.some.inj ht).symm⟩
  · rintro ⟨handle, phase, writeLocked, handle', hget, hstep, rfl⟩
    exact ⟨handle, hget, _, hstep, rfl⟩

/-- Every step but the store of `finish_drain_ready` leaves a dead session dead. -/
theorem step_dead {action : Action} (hs : s.phase = dead) (h : step s action = some t)
    (haction : action ≠ .owner .finishDrainReady) : t.phase = dead := by
  cases action with
  | owner action => exact ownerStep_dead hs h fun heq => haction (congrArg _ heq)
  | handle index action =>
    obtain ⟨handle, phase, writeLocked, handle', -, hstep, rfl⟩ := step_handle_eq_some.1 h
    have hphase := handleStep_phase (by simp [hs]) hstep
    rw [hs, or_self] at hphase
    exact hphase

/-! ### The windows of the owner -/

/-- The phase in which the owner enters a window that it leaves by a store. -/
def Owner.entered : Owner → Option SessionRecoveryPhase
  | .draining _ | .drained | .drainFailed => some .draining
  | .reconciling => some .breakSent
  | _ => none

/-- Inside a window the phase is the one it was entered with, or a handle has marked the session dead. -/
def InWindow (s : Shared) : Prop := ∀ entered ∈ s.owner.entered, s.phase = entered ∨ s.phase = dead

private theorem inWindow_start (n : Nat) : InWindow (start n) := nofun

theorem Owner.entered_sent {owner : Owner} (h : phase ∈ owner.entered) : phase ≠ ready ∧ phase ≠ inFlight := by
  cases owner <;> cases h <;> decide

private theorem inWindow_ownerStep {action : OwnerAction} (hs : InWindow s) (h : ownerStep s action = some t) :
    InWindow t := by
  have hdrain : ∀ phase, s.phase.beginPendingDrain = .ok (true, phase) → phase = draining := by
    intro phase hok
    cases hphase : s.phase <;> rw [hphase] at hok <;> cases hok
    rfl
  unfold InWindow at hs ⊢
  unfold ownerStep at h
  split at h
  all_goals grind [Owner.entered, markDead]

private theorem inWindow_step {action : Action} (hs : InWindow s) (h : step s action = some t) : InWindow t := by
  cases action with
  | owner action => exact inWindow_ownerStep hs h
  | handle index action =>
    obtain ⟨handle, phase, writeLocked, handle', -, hstep, rfl⟩ := step_handle_eq_some.1 h
    intro entered hentered
    have hsent := Owner.entered_sent hentered
    rcases hs entered hentered with hphase | hphase
    · have hmoved := handleStep_phase (by rw [hphase]; exact hsent) hstep
      rwa [hphase] at hmoved
    · have hmoved := handleStep_phase (by simp [hphase]) hstep
      rw [hphase, or_self] at hmoved
      exact Or.inr hmoved

/-! ### A dead session stays dead -/

/-- If the step is the store that ends a window of the owner, the phase is still the one the window was entered
with. -/
def LeavesAsEntered (s : Shared) (action : Action) : Prop :=
  action = .owner .finishDrainReady → ∀ entered ∈ s.owner.entered, s.phase = entered

private theorem ownerStep_finishDrainReady (h : ownerStep s .finishDrainReady = some t) :
    t.phase = ready ∧ ∃ entered, s.owner.entered = some entered := by
  cases howner : s.owner <;> simp only [ownerStep, howner, reduceCtorEq] at h <;> cases h
  all_goals exact ⟨rfl, _, rfl⟩

private theorem step_keeps_dead_iff {action : Action} (hs : InWindow s) (h : step s action = some t) :
    (s.phase = dead → t.phase = dead) ↔ LeavesAsEntered s action := by
  by_cases haction : action = .owner .finishDrainReady
  · subst haction
    obtain ⟨hready, entered, hentered⟩ := ownerStep_finishDrainReady h
    have hwindow := hs entered hentered
    have hlive : entered ≠ dead := by
      cases howner : s.owner <;> rw [howner] at hentered <;> cases hentered <;> decide
    constructor
    · intro hdead _ entered' hentered'
      obtain rfl : entered = entered' := Option.some.inj (hentered.symm.trans hentered')
      refine hwindow.resolve_right fun hphase => ?_
      rw [hready] at hdead
      exact absurd (hdead hphase) (by decide)
    · intro hleaves hphase
      exact absurd ((hleaves rfl entered hentered).symm.trans hphase) hlive
  · exact iff_of_true (fun hphase => step_dead hphase h haction) fun heq => absurd heq haction

/-- Once the session is dead it stays dead, in the runs in which the owner ends each drain in the phase in which it
began it, and in no others: the store that ends a drain does not look whether a handle has marked the session dead
meanwhile. -/
theorem dead_stays_dead_iff (n : Nat) (actions : List Action) :
    Stays step (fun s => s.phase = dead) (start n) actions ↔ EachStep step LeavesAsEntered (start n) actions :=
  stays_iff_eachStep (fun _ _ _ => inWindow_step) (fun _ _ _ => step_keeps_dead_iff) (inWindow_start n)

/-- A handle has looked at the phase and holds the lock when the owner begins to cancel. Its marker cannot be written,
and it marks the session dead and gives the lock back. -/
def failedCancel : List Action :=
  [.handle 0 .cancel, .handle 0 .lock, .handle 0 .check, .owner .breakSession, .owner .markBreakSent,
    .owner .markBreakSent, .owner .beginPendingDrain, .handle 0 .fail, .handle 0 .markDead]

/-- The owner writes its BREAK and its RESET, and its drain ends. -/
def drainEnds : List Action :=
  [.owner .tryLock, .owner .write, .owner .tryLock, .owner .write, .owner .finishDrain, .owner .finishDrainReady]

/-- The drain that was begun before the handle failed revives the session. -/
theorem dead_session_revived :
    (exec step (start 1) failedCancel).map Shared.phase = some dead ∧
      (exec step (start 1) (failedCancel ++ drainEnds)).map Shared.phase = some ready ∧
      ¬Stays step (fun s => s.phase = dead) (start 1) (failedCancel ++ drainEnds) := by
  refine ⟨rfl, rfl, fun h => ?_⟩
  have hdead := h failedCancel drainEnds [] _ _ (List.append_nil _).symm rfl rfl rfl
  exact absurd hdead (by decide)

end OracleThin.Session.Handles

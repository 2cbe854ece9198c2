import Mathlib

/-!
# The recovery phase of a session

`SessionRecovery` is one atomic phase. Every method is a compare-and-exchange or a store, so it is a function from the
phase before to the phase after; a method that fails leaves the phase as it is.
-/

namespace OracleThin.Session

inductive SessionRecoveryPhase
  | ready
  | inFlight
  | breakSent
  | draining
  | dead
deriving DecidableEq, Repr

/-- The error that a recovery method returns. -/
structure ConnectionClosed where
  message : String
deriving DecidableEq, Repr

namespace SessionRecoveryPhase

private def recoveryPending : ConnectionClosed := ⟨"operation attempted while session recovery is pending"⟩
private def stillInFlight : ConnectionClosed := ⟨"operation attempted while a response is still in flight"⟩
private def closed : ConnectionClosed := ⟨"connection is closed"⟩

def beginOperation : SessionRecoveryPhase → Except ConnectionClosed SessionRecoveryPhase
  | ready => .ok inFlight
  | inFlight => .error stillInFlight
  | breakSent | draining => .error recoveryPending
  | dead => .error closed

def beginOrAdoptOperation : SessionRecoveryPhase → Except ConnectionClosed SessionRecoveryPhase
  | ready | inFlight => .ok inFlight
  | breakSent | draining => .error recoveryPending
  | dead => .error closed

def completeOperation : SessionRecoveryPhase → SessionRecoveryPhase
  | inFlight => ready
  | phase => phase

def markBreakRequired : SessionRecoveryPhase → SessionRecoveryPhase
  | inFlight => breakSent
  | phase => phase

def markBreakSent : SessionRecoveryPhase → Except ConnectionClosed SessionRecoveryPhase
  | dead => .error closed
  | draining => .ok draining
  | ready | inFlight | breakSent => .ok breakSent

/-- Whether a drain was pending, and the phase after. -/
def beginPendingDrain : SessionRecoveryPhase → Except ConnectionClosed (Bool × SessionRecoveryPhase)
  | breakSent => .ok (true, draining)
  | ready => .ok (false, ready)
  | inFlight => .error stillInFlight
  | draining => .error ⟨"session recovery is already draining"⟩
  | dead => .error closed

def beginDrainAfterBreak (phase : SessionRecoveryPhase) : Except ConnectionClosed SessionRecoveryPhase := do
  match ← beginPendingDrain (← markBreakSent phase) with
  | (true, phase) => return phase
  | (false, _) => throw ⟨"session recovery did not enter draining state"⟩

def finishDrainReady (_ : SessionRecoveryPhase) : SessionRecoveryPhase := ready

def markDead (_ : SessionRecoveryPhase) : SessionRecoveryPhase := dead

end SessionRecoveryPhase

end OracleThin.Session

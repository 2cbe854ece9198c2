import OracleThin.Lib.Fallible
import OracleThin.Lib.Transition

/-!
# The pure lifecycle of pool slots

The state machine of a pool without connections: slots that are opened, validated, checked out and closed, a queue of
waiters, and the effects that the machine asks its environment to carry out. The environment reports when an effect is
done. The texts of the history are left out.

Every effect that has been asked for and is not done belongs to one slot, and the state of the slot says which effect
it is. So a closing machine without such effects has closed all its slots.
-/

namespace OracleThin.Pool.Lifecycle

open Lib

abbrev SlotId := Nat
abbrev WaiterId := Nat

inductive PoolCloseReason
  | reap
  | graceful
  | force
  | unhealthy
deriving DecidableEq, Repr

inductive PoolEffect
  | open (slot : SlotId) (waiter : Option WaiterId)
  | ping (slot : SlotId) (waiter : WaiterId)
  | close (slot : SlotId) (reason : PoolCloseReason)
deriving DecidableEq, Repr

inductive PoolSlotState
  | opening (waiter : Option WaiterId)
  | idle
  | checkedOut (waiter : WaiterId)
  | validating (waiter : Option WaiterId)
  | retiring
  | closing
  | closed
deriving DecidableEq, Repr

/-- The waiter that a slot is for. -/
def PoolSlotState.waiter : PoolSlotState → Option WaiterId
  | opening waiter | validating waiter => waiter
  | checkedOut waiter => some waiter
  | idle | retiring | closing | closed => none

inductive PoolLifecycleError
  | busy
  | closed
  | unknownSlot (slot : SlotId)
  | invalidState (slot : SlotId) (state : PoolSlotState) (action : String)
deriving DecidableEq, Repr

structure PoolSlot where
  id : SlotId
  state : PoolSlotState
deriving DecidableEq, Repr

structure PurePoolState where
  min : Nat
  max : Nat
  slots : List PoolSlot := []
  waiters : List WaiterId := []
  effects : List PoolEffect := []
  closing : Bool := false
  nextSlot : SlotId := 1
  nextWaiter : WaiterId := 1
deriving DecidableEq, Repr

namespace PurePoolState

variable (pool : PurePoolState)

/-! ### Helpers -/

def liveSlotCount : Nat := pool.slots.countP (·.state ≠ .closed)

/-- The slot at an index that is known to exist. -/
def slotAt (ix : Nat) : PoolSlot := pool.slots.getD ix ⟨0, .closed⟩

def setState (ix : Nat) (state : PoolSlotState) : PurePoolState :=
  { pool with slots := pool.slots.modify ix fun slot => { slot with state } }

/-- Asks for an effect. -/
def emit (effect : PoolEffect) : PurePoolState := { pool with effects := pool.effects ++ [effect] }

def openSlot (waiter : Option WaiterId) : PurePoolState :=
  { pool with
    slots := pool.slots ++ [⟨pool.nextSlot, .opening waiter⟩]
    effects := pool.effects ++ [.open pool.nextSlot waiter]
    nextSlot := pool.nextSlot + 1 }

/-- The loop over the queue: the first waiter gets an idle slot or a new one, or the loop ends. -/
def driveLoop : List WaiterId → PurePoolState → PurePoolState
  | [], pool => { pool with waiters := [] }
  | waiter :: waiters, pool =>
    match pool.slots.findIdx? (·.state = .idle) with
    | some ix =>
      driveLoop waiters
        ((pool.setState ix (.validating (some waiter))).emit (.ping (pool.slotAt ix).id waiter))
    | none =>
      if pool.liveSlotCount < pool.max then driveLoop waiters (pool.openSlot (some waiter))
      else { pool with waiters := waiter :: waiters }

def driveWaiters : PurePoolState := if pool.closing then pool else driveLoop pool.waiters pool

/-- Opens slots while there are fewer than `min` live ones, for at most `fuel` rounds. -/
def openingLoop : Nat → PurePoolState → PurePoolState
  | 0, pool => pool
  | fuel + 1, pool =>
    if pool.closing = false ∧ pool.liveSlotCount < pool.min then openingLoop fuel (pool.openSlot none) else pool

/-- Every round adds a live slot, so `min` rounds are enough. -/
def ensureMinOpening : PurePoolState := openingLoop pool.min pool

def releaseSlotAt (ix : Nat) (reason : PoolCloseReason) : PurePoolState :=
  if pool.closing then (pool.setState ix .closing).emit
    (.close (pool.slotAt ix).id reason) else pool.setState ix .idle

def slotIndex (slot : SlotId) : Except PoolLifecycleError Nat :=
  match pool.slots.findIdx? (·.id = slot) with
  | some ix => .ok ix
  | none => .error (.unknownSlot slot)

/-- Puts a waiter back to the front of the queue, unless the pool is closing. -/
def requeue (waiter : Option WaiterId) : PurePoolState :=
  if pool.closing then pool else { pool with waiters := waiter.toList ++ pool.waiters }

/-- What happens to a slot that was opened or pinged with success: it is closed by a closing pool, given to its
waiter, or idle. -/
def grant (ix : Nat) (slot : SlotId) (waiter : Option WaiterId) : PurePoolState :=
  if pool.closing then (pool.setState ix .closing).emit (.close slot .force)
  else
    match waiter with
    | some waiter => pool.setState ix (.checkedOut waiter)
    | none => (pool.setState ix .idle).driveWaiters

/-! ### Transitions -/

def new (min max : Nat) : PurePoolState := ensureMinOpening { min, max }

def requestAcquire : Except PoolLifecycleError (WaiterId × PurePoolState) :=
  if pool.closing then .error .closed
  else
    .ok (pool.nextWaiter,
      driveWaiters { pool with nextWaiter := pool.nextWaiter + 1, waiters := pool.waiters ++ [pool.nextWaiter] })

/-- The waiter gives up the slot that it has or waits for. -/
def leaveSlot (waiter : WaiterId) : PurePoolState :=
  match pool.slots.findIdx? (·.state.waiter = some waiter) with
  | some ix =>
    match (pool.slotAt ix).state with
    | .opening _ => pool.setState ix (.opening none)
    | .validating _ => pool.setState ix (.validating none)
    | .checkedOut _ => (pool.releaseSlotAt ix .graceful).driveWaiters
    | _ => pool
  | none => pool

def cancelAcquire (waiter : WaiterId) : PurePoolState :=
  leaveSlot { pool with waiters := pool.waiters.filter (· ≠ waiter) } waiter

def completeOpen (slot : SlotId) (healthy : Bool) : Except PoolLifecycleError PurePoolState := do
  let ix ← pool.slotIndex slot
  match (pool.slotAt ix).state with
  | .opening waiter =>
    if healthy then return pool.grant ix slot waiter
    else return ((pool.setState ix .closed).requeue waiter).driveWaiters.ensureMinOpening
  | state => throw (.invalidState slot state "complete_open")

def completePing (slot : SlotId) (healthy : Bool) : Except PoolLifecycleError PurePoolState := do
  let ix ← pool.slotIndex slot
  match (pool.slotAt ix).state with
  | .validating waiter =>
    if healthy then return pool.grant ix slot waiter
    else return ((pool.setState ix .retiring).emit (.close slot .unhealthy)).requeue waiter
  | state => throw (.invalidState slot state "complete_ping")

def release (slot : SlotId) : Except PoolLifecycleError PurePoolState := do
  let ix ← pool.slotIndex slot
  match (pool.slotAt ix).state with
  | .checkedOut _ => return (pool.releaseSlotAt ix .graceful).driveWaiters
  | state => throw (.invalidState slot state "release")

def reapIdle (slot : SlotId) : Except PoolLifecycleError PurePoolState := do
  let ix ← pool.slotIndex slot
  match (pool.slotAt ix).state with
  | .idle => return (pool.setState ix .retiring).emit (.close slot .reap)
  | state => throw (.invalidState slot state "reap_idle")

def completeClose (slot : SlotId) : Except PoolLifecycleError PurePoolState := do
  let ix ← pool.slotIndex slot
  match (pool.slotAt ix).state with
  | .retiring | .closing => return (pool.setState ix .closed).driveWaiters.ensureMinOpening
  | state => throw (.invalidState slot state "complete_close")

/-- A slot that is opened, validated or checked out. -/
def isBusy : PoolSlotState → Bool
  | .opening _ | .validating _ | .checkedOut _ => true
  | _ => false

/-- A slot that can be closed at once. -/
def canClose : PoolSlotState → Bool
  | .idle | .checkedOut _ => true
  | _ => false

def beginClose (force : Bool) : Except PoolLifecycleError PurePoolState :=
  if force = false ∧ (0 < pool.slots.countP (isBusy ·.state) ∨ pool.waiters ≠ []) then .error .busy
  else
    .ok { pool with
      closing := true
      waiters := if force then [] else pool.waiters
      slots := pool.slots.map fun slot => if canClose slot.state then { slot with state := .closing } else slot
      effects := pool.effects ++ (pool.slots.filter (canClose ·.state)).map fun slot =>
        .close slot.id (if force then .force else .graceful) }

def takeEffects : List PoolEffect × PurePoolState := (pool.effects, { pool with effects := [] })

end PurePoolState

/-! ### The machine and its environment -/

/-- What an effect does. -/
inductive EffectKind
  | open
  | ping
  | close
deriving DecidableEq, Repr

/-- What an effect does, and to which slot. -/
def PoolEffect.key : PoolEffect → EffectKind × SlotId
  | .open slot _ => (.open, slot)
  | .ping slot _ => (.ping, slot)
  | .close slot _ => (.close, slot)

/-- The machine with logs: the effects that the environment has taken, and what it has reported as done. -/
structure World where
  pool : PurePoolState
  taken : List PoolEffect := []
  completed : List (EffectKind × SlotId) := []
deriving DecidableEq, Repr

inductive Action
  | acquire
  | cancel (waiter : WaiterId)
  | completeOpen (slot : SlotId) (healthy : Bool)
  | completePing (slot : SlotId) (healthy : Bool)
  | completeClose (slot : SlotId)
  | release (slot : SlotId)
  | reapIdle (slot : SlotId)
  | beginClose (force : Bool)
  | takeEffects
deriving DecidableEq, Repr

namespace World

variable (world : World)

/-- The state after a call that may fail; a failed call changes nothing. -/
def called (result : Except PoolLifecycleError PurePoolState) : World :=
  match result with
  | .ok pool => { world with pool }
  | .error _ => world

/-- The state after a report; a report that is refused is not a completion. -/
def reported (key : EffectKind × SlotId) (result : Except PoolLifecycleError PurePoolState) : World :=
  match result with
  | .ok pool => { world with pool, completed := world.completed ++ [key] }
  | .error _ => world

def step : Action → World
  | .acquire => world.called (world.pool.requestAcquire.map Prod.snd)
  | .cancel waiter => { world with pool := world.pool.cancelAcquire waiter }
  | .completeOpen slot healthy => world.reported (.open, slot) (world.pool.completeOpen slot healthy)
  | .completePing slot healthy => world.reported (.ping, slot) (world.pool.completePing slot healthy)
  | .completeClose slot => world.reported (.close, slot) (world.pool.completeClose slot)
  | .release slot => world.called (world.pool.release slot)
  | .reapIdle slot => world.called (world.pool.reapIdle slot)
  | .beginClose force => world.called (world.pool.beginClose force)
  | .takeEffects =>
    { world with pool := world.pool.takeEffects.2, taken := world.taken ++ world.pool.takeEffects.1 }

/-- The effects that have been asked for and are not done. -/
def outstanding : List (EffectKind × SlotId) :=
  ((world.taken ++ world.pool.effects).map PoolEffect.key).diff world.completed

end World

end OracleThin.Pool.Lifecycle

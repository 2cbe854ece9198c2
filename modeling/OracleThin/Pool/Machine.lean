import OracleThin.Lib.Transition
import OracleThin.Pool.Engine

/-!
# The pool as a machine of interleaved steps

A `World` is the locked state together with everything that lives outside the lock: the queue of returns sent by
dropped guards, the acquire futures, the guards held by callers, the close call that waits for the worker, and the
background worker of `reaper_main`.  Every lock section is one step; between two of them any other party may run.  The
worker is cut at every point where it does not hold the lock, so a create, a ping and a close are steps of their own
and the connection is in the worker's hand meanwhile.

`created` and `closed` are ghost logs: the ids of the connections the create hook returned, and the ids passed to the
close hook.
-/

namespace OracleThin.Pool

open Lib

variable {C : Type}

/-- Where the background worker stands in its loop. -/
inductive Worker (C : Type)
  /-- At the top of the loop, with the request picked by the previous round. -/
  | top (current : Option Nat)
  /-- About to run `process_request`. -/
  | processing (requestId : Nat)
  /-- Pinging off the lock. -/
  | pinging (requestId : Nat) (conn : PooledConn C)
  /-- The ping succeeded; the lock is not yet taken. -/
  | pinged (requestId : Nat) (conn : PooledConn C)
  /-- Creating a connection for a request off the lock. -/
  | creating (requestId connId : Nat) (cclass : Option String) (isExtra : Bool) (replaced : Option (PooledConn C))
  /-- The create hook returned; the lock is not yet taken. -/
  | createdFor (requestId : Nat) (replaced : Option (PooledConn C)) (result : Except String (PooledConn C))
  /-- About to run `post_process_request`. -/
  | postProcess (requestId : Nat)
  /-- About to look at the open effects. -/
  | effects
  /-- Creating a connection for growth off the lock. -/
  | opening (connId : Nat) (cclass : Option String)
  /-- The create hook returned for growth; the lock is not yet taken. -/
  | opened (connId : Nat) (result : Except String (PooledConn C))
  /-- About to look at the drop queue. -/
  | dropping
  /-- About to call the close hook. -/
  | closing (conn : PooledConn C)
  /-- About to sweep the idle connections. -/
  | sweeping
  | exited

/-- The connections in the worker's hand. -/
def Worker.hand : Worker C → List (PooledConn C)
  | .pinging _ conn => [conn]
  | .pinged _ conn => [conn]
  | .creating _ _ _ _ replaced => replaced.toList
  | .createdFor _ replaced result => replaced.toList ++ result.toOption.toList
  | .opened _ result => result.toOption.toList
  | .closing conn => [conn]
  | _ => []

/-- The id reserved for a connection that the create hook has not returned yet. -/
def Worker.reserved : Worker C → List Nat
  | .creating _ connId _ _ _ => [connId]
  | .opening connId _ => [connId]
  | _ => []

structure World (C : Type) where
  state : PoolState C
  /-- The ids sent by dropped guards. -/
  dropReturns : List Nat
  reaperStop : Bool
  worker : Worker C
  /-- The value of `reaper_stop` the worker read at the top of its loop. -/
  stopping : Bool
  /-- The request ids of the acquire futures that still poll. -/
  acquiring : List Nat
  /-- The request ids of the acquire futures whose poll failed and that are about to abandon. -/
  failing : List Nat
  /-- The ids held by the guards of callers. -/
  guards : List Nat
  /-- Whether `reaper_handle` is still there. -/
  handle : Bool
  /-- Whether a close call awaits the worker. -/
  joining : Bool
  /-- Whether the close call that awaited the worker has returned. -/
  closeFinished : Bool
  created : List Nat
  closed : List Nat

/-- The answers of the backend and the clock to one worker step. -/
structure Answers (C : Type) where
  env : Env C
  /-- The result of the create hook. -/
  create : Except String C
  /-- The clock when the created connection is wrapped. -/
  now : Nat
  /-- The result of the ping hook. -/
  healthy : Bool

inductive Setting
  | getmode (value : Nat)
  | waitTimeoutMs (value : Nat)
  | timeoutSecs (value : Nat)
  | maxLifetimeSessionSecs (value : Nat)
  | pingIntervalSecs (value : Int)

/-- The setters of the pool attributes. -/
def Setting.apply (s : PoolState C) : Setting → PoolState C
  | .getmode value =>
    if s.config.getmode = value then s
    else
      { s with
        config := { s.config with getmode := value }
        forceGet := value = poolGetmodeForceget
        waitTimeoutMs := if value = poolGetmodeTimedwait then some 0 else none }
  | .waitTimeoutMs value =>
    { s with waitTimeoutMs := if s.config.getmode = poolGetmodeTimedwait then some value else none }
  | .timeoutSecs value => { s with config := { s.config with timeoutSecs := value } }
  | .maxLifetimeSessionSecs value => { s with config := { s.config with maxLifetimeSessionSecs := value } }
  | .pingIntervalSecs value => { s with config := { s.config with pingIntervalSecs := value } }

inductive Action (C : Type)
  /-- `acquire_async` up to the first poll. -/
  | acquire (env : Env C) (opts : AcquireOptions)
  /-- One poll of an acquire future. -/
  | poll (env : Env C) (requestId : Nat)
  /-- An acquire future is dropped, cancelled, timed out or failed. -/
  | abandon (requestId : Nat)
  /-- A guard is released. -/
  | release (env : Env C) (connId : Nat)
  /-- A guard is dropped from the pool. -/
  | dropFromPool (env : Env C) (connId : Nat)
  /-- A guard goes out of scope. -/
  | guardDrop (connId : Nat)
  /-- `drain`, `stats`, `busy_count` and `open_count`. -/
  | drain (env : Env C)
  | configure (setting : Setting)
  /-- `close_async` up to the await; `cancelled` is the outcome of the checkpoint after the handle was taken. -/
  | close (env : Env C) (force cancelled : Bool)
  /-- The close call that awaited the worker returns. -/
  | closeReturn
  /-- The worker's next step. -/
  | work (answers : Answers C)

/-- `PoolEngine::start`. -/
def PoolState.start (config : PoolConfig) : PoolState C :=
  scheduleOpenEffects
    { isOpen := true
      config := config
      forceGet := config.getmode = poolGetmodeForceget
      waitTimeoutMs := if config.getmode = poolGetmodeTimedwait then some config.waitTimeoutMs else none
      freeNew := []
      freeUsed := []
      busy := []
      toDrop := []
      requests := []
      openEffects := []
      inFlightOpenEffects := []
      nextConnId := 1
      nextRequestId := 1 } config.min

def World.start (config : PoolConfig) : World C where
  state := PoolState.start config
  dropReturns := []
  reaperStop := false
  worker := .top none
  stopping := false
  acquiring := []
  failing := []
  guards := []
  handle := true
  joining := false
  closeFinished := false
  created := []
  closed := []

/-- The queued returns are drained first in almost every lock section. -/
def World.drained (w : World C) (env : Env C) : World C :=
  { w with state := drainDropReturns env w.state w.dropReturns, dropReturns := [] }

/-! ### The worker -/

/-- The connection record around a successful create. -/
def wrapCreated (answers : Answers C) (connId : Nat) (cclass : Option String) (isExtra : Bool) :
    Except String (PooledConn C) :=
  answers.create.map fun conn =>
    { id := connId
      conn := conn
      cclass := cclass
      timeCreated := answers.now
      timeReturned := answers.now
      isPoolExtra := isExtra
      everAcquired := false }

/-- The first lock section of the loop: drain the returns and pick a request. -/
def workTop (env : Env C) (w : World C) (current : Option Nat) : World C :=
  let w := { w.drained env with stopping := w.reaperStop }
  let (current, s) :=
    if current.isNone && w.state.isOpen then getNextRequest w.state else (current, w.state)
  let next := match current with
    | some requestId => if s.isOpen then .processing requestId else .effects
    | none => .effects
  { w with state := s, worker := next }

def workProcess (w : World C) (requestId : Nat) : World C :=
  let (work, s) := pickWork w.state requestId
  let next := match work with
    | .ping conn => .pinging requestId conn
    | .create connId cclass isExtra replaced => .creating requestId connId cclass isExtra replaced
    | .nothing => .postProcess requestId
  { w with state := s, worker := next }

def workPostProcess (w : World C) (requestId : Nat) : World C :=
  let (current, s) := getNextRequest (postProcessRequest w.state requestId)
  { w with state := s, worker := .top current }

/-- Move the first open effect to the effects in flight. -/
def takeOpenEffect (s : PoolState C) : PoolState C :=
  match s.openEffects with
  | [] => s
  | effect :: rest => { s with openEffects := rest, inFlightOpenEffects := s.inFlightOpenEffects ++ [effect] }

/-- Take an open effect and create for the last one in flight. -/
def workEffects (w : World C) : World C :=
  if w.state.isOpen then
    let s := takeOpenEffect w.state
    let next := match s.inFlightOpenEffects.getLast? with
      | some connId => .opening connId s.config.creationCclass
      | none => .dropping
    { w with state := s, worker := next }
  else { w with worker := .dropping }

def workDrop (w : World C) : World C :=
  match w.state.toDrop.getLast? with
  | some conn => { w with state := { w.state with toDrop := w.state.toDrop.dropLast }, worker := .closing conn }
  | none => { w with worker := .sweeping }

def workSweep (env : Env C) (w : World C) : World C :=
  let s := sweepIdleTimeout env w.state
  { w with
    state := s
    worker := if (!s.isOpen || w.stopping) && s.toDrop.isEmpty then .exited else .top none }

/-- One step of `reaper_main`. -/
def workStep (answers : Answers C) (w : World C) : Option (World C) :=
  match w.worker with
  | .top current => some (workTop answers.env w current)
  | .processing requestId => some (workProcess w requestId)
  | .pinging requestId conn =>
    if answers.healthy then some { w with worker := .pinged requestId conn }
    else some { w with worker := .postProcess requestId, closed := w.closed ++ [conn.id] }
  | .pinged requestId conn =>
    some { w with state := restorePinged w.state requestId conn, worker := .postProcess requestId }
  | .creating requestId connId cclass isExtra replaced =>
    let result := wrapCreated answers connId cclass isExtra
    some { w with
      worker := .createdFor requestId replaced result
      created := w.created ++ result.toOption.toList.map (·.id) }
  | .createdFor requestId replaced result =>
    some { w with state := integrateCreated w.state requestId replaced result, worker := .postProcess requestId }
  | .postProcess requestId => some (workPostProcess w requestId)
  | .effects => some (workEffects w)
  | .opening connId cclass =>
    let result := wrapCreated answers connId cclass false
    some { w with
      worker := .opened connId result
      created := w.created ++ result.toOption.toList.map (·.id) }
  | .opened connId result => some { w with state := postCreateConn w.state connId result, worker := .top none }
  | .dropping => some (workDrop w)
  | .closing conn => some { w with worker := .top none, closed := w.closed ++ [conn.id] }
  | .sweeping => some (workSweep answers.env w)
  | .exited => none

/-! ### All parties -/

def acquireStep (env : Env C) (opts : AcquireOptions) (w : World C) : World C :=
  let w := w.drained env
  match enqueueRequest w.state opts with
  | (.ok requestId, s) => { w with state := s, acquiring := w.acquiring ++ [requestId] }
  | (.error _, s) => { w with state := s }

def pollStep (env : Env C) (requestId : Nat) (w : World C) : World C :=
  match pollRequestCompletion env w.state requestId with
  | (.ok (some connId), s) =>
    { w with state := s, acquiring := w.acquiring.erase requestId, guards := w.guards ++ [connId] }
  | (.ok none, s) => { w with state := s }
  | (.error _, s) =>
    { w with state := s, acquiring := w.acquiring.erase requestId, failing := w.failing ++ [requestId] }

def abandonStep (requestId : Nat) (w : World C) : World C :=
  { w with
    state := abandonRequest w.state requestId
    acquiring := w.acquiring.erase requestId
    failing := w.failing.erase requestId }

/-- A failed release re-arms the guard, whose drop then queues the id. -/
def releaseStep (env : Env C) (connId : Nat) (w : World C) : World C :=
  let w := { w.drained env with guards := w.guards.erase connId }
  match returnConnectionImpl env w.state connId with
  | (.ok (), s) => { w with state := s }
  | (.error _, s) => { w with state := s, dropReturns := w.dropReturns ++ [connId] }

def dropStep (env : Env C) (connId : Nat) (w : World C) : World C :=
  let w := w.drained env
  { w with state := dropConnectionImpl w.state connId, guards := w.guards.erase connId }

def closeStep (env : Env C) (force cancelled : Bool) (w : World C) : World C :=
  let w := w.drained env
  match requestWorkerShutdown w.state force with
  | (.ok (), s) =>
    { w with
      state := s
      reaperStop := true
      handle := false
      joining := w.joining || (w.handle && !cancelled) }
  | (.error _, s) => { w with state := s }

/-- One step of the pool. -/
def step (w : World C) : Action C → Option (World C)
  | .acquire env opts => some (acquireStep env opts w)
  | .poll env requestId => if requestId ∈ w.acquiring then some (pollStep env requestId w) else none
  | .abandon requestId =>
    if requestId ∈ w.acquiring ∨ requestId ∈ w.failing then some (abandonStep requestId w) else none
  | .release env connId => if connId ∈ w.guards then some (releaseStep env connId w) else none
  | .dropFromPool env connId => if connId ∈ w.guards then some (dropStep env connId w) else none
  | .guardDrop connId =>
    if connId ∈ w.guards then
      some { w with guards := w.guards.erase connId, dropReturns := w.dropReturns ++ [connId] }
    else none
  | .drain env => some (w.drained env)
  | .configure setting => some { w with state := setting.apply w.state }
  | .close env force cancelled => some (closeStep env force cancelled w)
  | .closeReturn =>
    match w.joining, w.worker with
    | true, .exited => some { w with joining := false, closeFinished := true }
    | _, _ => none
  | .work answers => workStep answers w

/-- The states the pool can reach from a fresh start. -/
def Reachable (config : PoolConfig) (w : World C) : Prop :=
  ∃ actions, exec step (World.start config) actions = some w

end OracleThin.Pool

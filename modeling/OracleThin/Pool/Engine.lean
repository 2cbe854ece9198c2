import OracleThin.Pool.State

/-!
# The pool engine

The functions of `pool/engine.rs`, `pool/acquire.rs` and the lock sections of `pool.rs`, as functions on the locked
state.  Notifications (`bg.notify_one`, `wake_waiters`) carry no data and are left out: a step of the machine may run
at any time, so a wake-up changes nothing that can be observed here.
-/

namespace OracleThin.Pool

variable {C : Type}

/-! ### Fulfilling a request -/

def addRequestForBg (s : PoolState C) (requestId : Nat) : PoolState C :=
  s.modifyRequest requestId fun r => { r with bgProcessing := true, completed := false }

/-- Whether `check_connection` asks for a ping before handing the connection out. -/
def pingRequired (env : Env C) (config : PoolConfig) (conn : PooledConn C) : Bool :=
  if config.pingIntervalSecs = 0 then true
  else if 0 < config.pingIntervalSecs then
    secs config.pingIntervalSecs.natAbs < env.now conn - conn.timeReturned
  else false

/-- Hand `conn` to a request: it is completed, or queued for the worker when a ping is due. -/
def Request.attach (needsPing : Bool) (conn : PooledConn C) (r : Request C) : Request C :=
  if needsPing then
    { r with conn := some conn, requiresPing := true, bgProcessing := true, completed := false }
  else { r with conn := some conn, completed := true }

/-- A connection that `check_connection` does not drop. -/
def usable (env : Env C) (config : PoolConfig) (conn : PooledConn C) : Bool :=
  env.connectionIsOpen conn && !lifetimeExceeded env config conn

def checkConnection (env : Env C) (s : PoolState C) (requestId : Nat) (conn : PooledConn C) : PoolState C :=
  if usable env s.config conn then
    match s.request? requestId with
    | none => reject s (some conn)
    | some _ => s.modifyRequest requestId (Request.attach (pingRequired env s.config conn) conn)
  else dropConn s conn

/-- One round of the scans in `fulfill`: check a candidate, then look at the request again.  `none` means that the
candidate was dropped and the scan goes on. -/
def tryCandidate (env : Env C) (s : PoolState C) (requestId : Nat) (conn : PooledConn C) :
    Option (Except PoolError Bool) × PoolState C :=
  let s := checkConnection env s requestId conn
  match s.request? requestId with
  | none => (some (.error (.internal "request lost")), s)
  | some r => if r.completed || r.requiresPing then (some (.ok r.completed), s) else (none, s)

/-- The scan of the used connections from the tail.  Positions past the end are skipped, which is what
`ix.min(state.free_used.len())` achieves. -/
def scanUsed (env : Env C) (requestId : Nat) (cclass : Option String) :
    Nat → PoolState C → Option (Except PoolError Bool) × PoolState C
  | 0, s => (none, s)
  | ix + 1, s =>
    match s.freeUsed[ix]? with
    | none => scanUsed env requestId cclass ix s
    | some conn =>
      if classMatches cclass conn then
        match tryCandidate env { s with freeUsed := s.freeUsed.eraseIdx ix } requestId conn with
        | (some res, s) => (some res, s)
        | (none, s) => scanUsed env requestId cclass ix s
      else scanUsed env requestId cclass ix s

/-- The scan of the new connections; the first argument bounds the number of pops. -/
def scanNew (env : Env C) (requestId : Nat) :
    Nat → PoolState C → Option (Except PoolError Bool) × PoolState C
  | 0, s => (none, s)
  | n + 1, s =>
    match s.freeNew.getLast? with
    | none => (none, s)
    | some conn =>
      match tryCandidate env { s with freeNew := s.freeNew.dropLast } requestId conn with
      | (some res, s) => (some res, s)
      | (none, s) => scanNew env requestId n s

/-- The number of open effects `fulfill` schedules when the pool may still grow. -/
def growth (s : PoolState C) (wantsNew : Bool) (cclass : Option String) (cclassMatches : Bool) : Nat :=
  let remainingCapacity := s.config.max - reservedOpenCount s
  let pending := pendingOpenCount s
  let supply := saturatingU32 (pending + compatibleIdleCount s wantsNew cclass cclassMatches)
  let shortfall := compatibleWaitingDemand s - supply
  let desired := if pending = 0 then Nat.max s.config.increment shortfall else shortfall
  Nat.min desired remainingCapacity

/-- The end of `fulfill`, when no free connection was usable. -/
def queueRequest (s : PoolState C) (requestId : Nat) (wantsNew : Bool) (cclass : Option String)
    (cclassMatches : Bool) : Except PoolError Bool × PoolState C :=
  let s := s.modifyRequest requestId fun r => { r with requiresPing := false }
  let replacing := fun (s : PoolState C) => s.modifyRequest requestId fun r => { r with isReplacing := true }
  if s.config.max ≤ reservedOpenCount s then
    match s.freeNew.getLast? with
    | some victim =>
      (.ok false, addRequestForBg (pushToDrop (replacing { s with freeNew := s.freeNew.dropLast }) victim) requestId)
    | none =>
      match s.freeUsed.getLast? with
      | some victim =>
        (.ok false,
          addRequestForBg (pushToDrop (replacing { s with freeUsed := s.freeUsed.dropLast }) victim) requestId)
      | none =>
        if s.forceGet then
          (.ok false, addRequestForBg (s.modifyRequest requestId fun r => { r with isExtra := true }) requestId)
        else if s.config.getmode = poolGetmodeNowait then (.error .noConnectionAvailable, s)
        else (.ok false, addRequestForBg s requestId)
  else if cclassMatches then
    (.ok false, addRequestForBg (scheduleOpenEffects s (growth s wantsNew cclass cclassMatches)) requestId)
  else (.ok false, addRequestForBg s requestId)

/-- The scans of `fulfill`: the used connections unless a new one is wanted, then the new ones if the class
matches. -/
def scanFree (env : Env C) (s : PoolState C) (r : Request C) : Option (Except PoolError Bool) × PoolState C :=
  match if r.wantsNew then (none, s) else scanUsed env r.id r.cclass s.freeUsed.length s with
  | (some res, s) => (some res, s)
  | (none, s) => if r.cclassMatches then scanNew env r.id s.freeNew.length s else (none, s)

/-- `fulfill`: `ok true` means that the request is completed. -/
def fulfill (env : Env C) (s : PoolState C) (requestId : Nat) : Except PoolError Bool × PoolState C :=
  if !s.isOpen then (.error .closed, s)
  else
    match s.request? requestId with
    | none => (.error (.internal "request lost"), s)
    | some r =>
      match r.error with
      | some error => (.error (.backend error), s.modifyRequest requestId fun r => { r with error := none })
      | none =>
        if r.completed then (.ok true, s)
        else if r.bgProcessing then (.ok false, s)
        else
          match scanFree env s r with
          | (some res, s) => (res, s)
          | (none, s) => queueRequest s requestId r.wantsNew r.cclass r.cclassMatches

/-! ### The acquiring side -/

def enqueueRequest (s : PoolState C) (opts : AcquireOptions) : Except PoolError Nat × PoolState C :=
  if !s.isOpen then (.error .closed, s)
  else
    (.ok s.nextRequestId,
      { s with
        nextRequestId := s.nextRequestId + 1
        requests := s.requests ++ [{
          id := s.nextRequestId
          cclass := opts.cclass
          cclassMatches := opts.cclass.isNone || opts.cclass == s.config.creationCclass
          wantsNew := opts.wantsNew
          requiresPing := false
          bgProcessing := false
          isExtra := false
          isReplacing := false
          inProgress := false
          completed := false
          waiting := true
          conn := none
          error := none }] })

def finishCompletedRequest (s : PoolState C) (requestId : Nat) : Except PoolError Nat × PoolState C :=
  match s.request? requestId with
  | none => (.error (.internal "request lost"), s)
  | some r =>
    let s := s.removeRequest requestId
    match r.conn with
    | none => (.error (.internal "completed request without connection"), s)
    | some conn => (.ok conn.id, { s with busy := s.busy ++ [{ conn with everAcquired := true }] })

/-- `poll_request_completion`: the connection id when the request is fulfilled. -/
def pollRequestCompletion (env : Env C) (s : PoolState C) (requestId : Nat) :
    Except PoolError (Option Nat) × PoolState C :=
  match fulfill env s requestId with
  | (.ok true, s) =>
    match finishCompletedRequest s requestId with
    | (.ok connId, s) => (.ok (some connId), s)
    | (.error err, s) => (.error err, s)
  | (.ok false, s) => (.ok none, s)
  | (.error err, s) => (.error err, abandonRequest s requestId)

/-! ### Returning a connection -/

/-- A queued request that a returned connection may serve. -/
def acceptsReturned (conn : PooledConn C) (r : Request C) : Bool :=
  !(r.inProgress || r.wantsNew || r.conn.isSome || !r.waiting || r.completed || r.error.isSome) &&
    classMatches r.cclass conn

/-- Complete a queued request with a connection. -/
def Request.complete (conn : PooledConn C) (r : Request C) : Request C :=
  { r with conn := some conn, completed := true, bgProcessing := false }

def returnConnectionHelper (env : Env C) (s : PoolState C) (conn : PooledConn C) : PoolState C :=
  if !env.connectionIsOpen conn then dropConn s conn
  else if conn.isPoolExtra && s.config.max < saturatingU32 (activeOpenCount s + 1) then
    dropConn s { conn with isPoolExtra := false }
  else
    let conn' := { conn with isPoolExtra := false, timeReturned := env.now conn }
    if lifetimeExceeded env s.config conn then dropConn s conn'
    else if s.requests.any (acceptsReturned conn') then
      { s with requests := Lib.modifyFirst (acceptsReturned conn') (Request.complete conn') s.requests }
    else { s with freeUsed := s.freeUsed ++ [conn'] }

/-- Take the connection with the given id out of the busy list and return it. -/
def returnBusy (env : Env C) (s : PoolState C) (connId : Nat) : Option (PoolState C) :=
  match s.busy.find? (·.id == connId) with
  | none => none
  | some conn => some (returnConnectionHelper env { s with busy := s.busy.eraseP (·.id == connId) } conn)

/-- `drain_drop_returns`: the returns queued by dropped guards. -/
def drainDropReturns (env : Env C) (s : PoolState C) : List Nat → PoolState C
  | [] => s
  | connId :: rest =>
    if s.isOpen then drainDropReturns env ((returnBusy env s connId).getD s) rest
    else drainDropReturns env s rest

/-- `return_connection_impl` after the drain. -/
def returnConnectionImpl (env : Env C) (s : PoolState C) (connId : Nat) : Except PoolError Unit × PoolState C :=
  if !s.isOpen then (.ok (), s)
  else
    match returnBusy env s connId with
    | none => (.error .connectionNotAcquired, s)
    | some s => (.ok (), s)

/-- `drop_connection_impl` after the drain. -/
def dropConnectionImpl (s : PoolState C) (connId : Nat) : PoolState C :=
  if !s.isOpen then s
  else
    match s.busy.find? (·.id == connId) with
    | none => s
    | some conn => dropConn { s with busy := s.busy.eraseP (·.id == connId) } conn

/-! ### The worker's lock sections -/

/-- A request `peek_next_request` passes over. -/
def transparentToWorker (r : Request C) : Bool :=
  r.completed || r.error.isSome || r.inProgress || !r.bgProcessing

/-- A request the worker can make progress on. -/
def workable (s : PoolState C) (r : Request C) : Bool :=
  !r.waiting || r.requiresPing || r.isReplacing || r.isExtra ||
    (!r.cclassMatches && reservedOpenCount s < s.config.max)

def peekNextRequest (s : PoolState C) : Option Nat :=
  match s.requests.find? (!transparentToWorker ·) with
  | none => none
  | some r => if workable s r then some r.id else none

def getNextRequest (s : PoolState C) : Option Nat × PoolState C :=
  match peekNextRequest s with
  | none => (none, s)
  | some id => (some id, s.modifyRequest id fun r => { r with inProgress := r.waiting })

def postProcessRequest (s : PoolState C) (requestId : Nat) : PoolState C :=
  match s.request? requestId with
  | none => s
  | some r =>
    let s := s.modifyRequest requestId fun r => { r with inProgress := false, bgProcessing := false }
    if r.conn.isSome then
      let s := s.modifyRequest requestId fun r => { r with completed := true }
      if r.waiting then s else reject (s.removeRequest requestId) r.conn
    else
      let s := if r.requiresPing then ensureMinConnections s else s
      if r.waiting then s else s.removeRequest requestId

/-- The request that is told about a failed growth create. -/
def awaitsGrowth (r : Request C) : Bool :=
  r.bgProcessing && r.waiting && !r.requiresPing && !r.isExtra && !r.isReplacing && r.cclassMatches && r.conn.isNone

/-- A queued request that takes a connection created for growth: one of its class is completed, one of another class
gets it parked for replacement when the pool is full. -/
def acceptsCreated (full : Bool) (conn : PooledConn C) (r : Request C) : Bool :=
  !(r.inProgress || r.conn.isSome || !r.waiting || r.completed || r.error.isSome) &&
    (classMatches r.cclass conn || (!r.cclassMatches && full))

def Request.takeCreated (conn : PooledConn C) (r : Request C) : Request C :=
  if classMatches r.cclass conn then r.complete conn else { r with conn := some conn, isReplacing := true }

def postCreateConn (s : PoolState C) (connId : Nat) (created : Except String (PooledConn C)) : PoolState C :=
  let s := completeOpenEffect s connId
  match created with
  | .error error =>
    if s.isOpen then
      { s with requests :=
          Lib.modifyFirst awaitsGrowth (fun r => { r with bgProcessing := false, error := some error }) s.requests }
    else s
  | .ok conn =>
    if !s.isOpen then pushToDrop s conn
    else
      let full := decide (s.config.max ≤ saturatingU32 (activeOpenCount s + 1))
      if s.requests.any (acceptsCreated full conn) then
        { s with requests := Lib.modifyFirst (acceptsCreated full conn) (Request.takeCreated conn) s.requests }
      else { s with freeNew := s.freeNew ++ [conn] }

/-- What `process_request` does off the lock. -/
inductive Work (C : Type)
  | ping (conn : PooledConn C)
  | create (connId : Nat) (cclass : Option String) (isExtra : Bool) (replaced : Option (PooledConn C))
  | nothing

/-- The first lock section of `process_request`. -/
def pickWork (s : PoolState C) (requestId : Nat) : Work C × PoolState C :=
  match s.request? requestId with
  | none => (.nothing, s)
  | some r =>
    let taken := s.modifyRequest requestId fun r => { r with conn := none }
    if r.requiresPing then
      match r.conn with
      | some conn => (.ping conn, taken)
      | none => (.nothing, taken)
    else if r.isReplacing || r.isExtra || !r.cclassMatches then
      (.create s.nextConnId r.cclass r.isExtra r.conn, { taken with nextConnId := s.nextConnId + 1 })
    else (.nothing, s)

/-- A pinged connection goes back to its request, if the request still exists. -/
def restorePinged (s : PoolState C) (requestId : Nat) (conn : PooledConn C) : PoolState C :=
  s.modifyRequest requestId fun r => { r with conn := some conn }

/-- Drop the connection that a created one replaces. -/
def dropReplaced (s : PoolState C) : Option (PooledConn C) → PoolState C
  | some old => dropConn s old
  | none => s

/-- The last lock section of `process_request` after a create. -/
def integrateCreated (s : PoolState C) (requestId : Nat) (replaced : Option (PooledConn C))
    (result : Except String (PooledConn C)) : PoolState C :=
  let s := dropReplaced s replaced
  match s.request? requestId, result with
  | none, .ok conn => pushToDrop s { conn with isPoolExtra := false }
  | none, .error _ => s
  | some _, .ok conn => s.modifyRequest requestId fun r => { r with conn := some conn }
  | some _, .error error => s.modifyRequest requestId fun r => { r with error := some error }

/-- Drop idle connections from the front of one free list while more than `min` are open; `true` means that the
minimum was reached.  The first argument bounds the number of rounds. -/
def sweepList (env : Env C) (get : PoolState C → List (PooledConn C))
    (set : PoolState C → List (PooledConn C) → PoolState C) : Nat → PoolState C → Bool × PoolState C
  | 0, s => (activeOpenCount s ≤ s.config.min, s)
  | n + 1, s =>
    if activeOpenCount s ≤ s.config.min then (true, s)
    else
      match get s with
      | [] => (false, s)
      | first :: rest =>
        if env.now first - first.timeReturned < secs s.config.timeoutSecs then (false, s)
        else sweepList env get set n (dropConn (set s rest) first)

def sweepNew (env : Env C) (s : PoolState C) : Bool × PoolState C :=
  sweepList env PoolState.freeNew (fun s l => { s with freeNew := l }) s.freeNew.length s

def sweepUsed (env : Env C) (s : PoolState C) : Bool × PoolState C :=
  sweepList env PoolState.freeUsed (fun s l => { s with freeUsed := l }) s.freeUsed.length s

def sweepIdleTimeout (env : Env C) (s : PoolState C) : PoolState C :=
  if s.config.timeoutSecs = 0 then s
  else
    match sweepNew env s with
    | (true, s) => s
    | (false, s) => (sweepUsed env s).2

/-! ### Closing -/

/-- `request_worker_shutdown_locked`: everything moves to the drop queue; only requests the worker is processing
stay. -/
def requestWorkerShutdownLocked (s : PoolState C) : PoolState C :=
  { s with
    isOpen := false
    openEffects := []
    freeNew := []
    freeUsed := []
    busy := []
    toDrop := s.toDrop ++ (s.freeNew ++ s.freeUsed ++ s.busy) ++ s.requests.filterMap (·.conn)
    requests := (s.requests.filter (·.inProgress)).map fun r => { r with waiting := false, conn := none } }

/-- `request_worker_shutdown` after the drain. -/
def requestWorkerShutdown (s : PoolState C) (force : Bool) : Except PoolError Unit × PoolState C :=
  if !s.isOpen then (.ok (), s)
  else if !force && (!s.busy.isEmpty || s.requests.any (·.waiting)) then (.error .hasBusyConnections, s)
  else (.ok (), requestWorkerShutdownLocked s)

end OracleThin.Pool

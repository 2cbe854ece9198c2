import OracleThin.Lib.ListFirst

/-!
# The locked state of the connection pool

The data of `pool.rs`: pooled connections, acquire requests, the pool configuration and the state behind the pool
mutex, with the counters derived from it and the helpers that move a connection into a container (`dropConn`,
`reject`, `abandonRequest`).  A request is read, written and removed through its identifier, at the first position
that carries it, as `request_position` does.

The backend and the clock are an oracle: `Env` answers whether a connection is open and what the clock shows when a
connection is examined.  Instants are in nanoseconds.
-/

namespace OracleThin.Pool

open Lib

def poolGetmodeWait : Nat := 0
def poolGetmodeNowait : Nat := 1
def poolGetmodeForceget : Nat := 2
def poolGetmodeTimedwait : Nat := 3

inductive PoolError
  | closed
  | noConnectionAvailable
  | hasBusyConnections
  | connectionNotAcquired
  | backend (message : String)
  | cancelled (message : String)
  | internal (message : String)
  deriving DecidableEq, Repr

structure PoolConfig where
  min : Nat
  max : Nat
  increment : Nat
  getmode : Nat
  waitTimeoutMs : Nat
  timeoutSecs : Nat
  maxLifetimeSessionSecs : Nat
  pingIntervalSecs : Int
  pingTimeoutMs : Nat
  creationCclass : Option String
  deriving DecidableEq, Repr

/-- `PoolConfig::new`. -/
def PoolConfig.new (min max increment : Nat) : PoolConfig where
  min := min
  max := max
  increment := increment
  getmode := poolGetmodeWait
  waitTimeoutMs := 0
  timeoutSecs := 0
  maxLifetimeSessionSecs := 0
  pingIntervalSecs := 60
  pingTimeoutMs := 5000
  creationCclass := none

structure AcquireOptions where
  wantsNew : Bool := false
  cclass : Option String := none
  deriving DecidableEq, Repr

structure PooledConn (C : Type) where
  id : Nat
  conn : C
  cclass : Option String
  timeCreated : Nat
  timeReturned : Nat
  isPoolExtra : Bool
  everAcquired : Bool
  deriving DecidableEq, Repr

structure Request (C : Type) where
  id : Nat
  cclass : Option String
  cclassMatches : Bool
  wantsNew : Bool
  requiresPing : Bool
  bgProcessing : Bool
  isExtra : Bool
  isReplacing : Bool
  inProgress : Bool
  completed : Bool
  waiting : Bool
  conn : Option (PooledConn C)
  error : Option String
  deriving DecidableEq, Repr

/-- The state behind the mutex.  An open effect is represented by the connection id it reserves. -/
structure PoolState (C : Type) where
  isOpen : Bool
  config : PoolConfig
  forceGet : Bool
  waitTimeoutMs : Option Nat
  freeNew : List (PooledConn C)
  freeUsed : List (PooledConn C)
  busy : List (PooledConn C)
  toDrop : List (PooledConn C)
  requests : List (Request C)
  openEffects : List Nat
  inFlightOpenEffects : List Nat
  nextConnId : Nat
  nextRequestId : Nat
  deriving DecidableEq, Repr

/-- What the backend and the clock answer while the lock is held. -/
structure Env (C : Type) where
  connectionIsOpen : PooledConn C → Bool
  now : PooledConn C → Nat

variable {C : Type}

def secs (n : Nat) : Nat := n * 1000000000

/-- `conn.time_created.elapsed() > max_lifetime`, where a maximum of `0` means no limit. -/
def lifetimeExceeded (env : Env C) (config : PoolConfig) (conn : PooledConn C) : Bool :=
  config.maxLifetimeSessionSecs ≠ 0 && secs config.maxLifetimeSessionSecs < env.now conn - conn.timeCreated

namespace PoolState

/-- The request at `request_position`. -/
def request? (s : PoolState C) (requestId : Nat) : Option (Request C) :=
  s.requests.find? (·.id == requestId)

def modifyRequest (s : PoolState C) (requestId : Nat) (f : Request C → Request C) : PoolState C :=
  { s with requests := modifyFirst (·.id == requestId) f s.requests }

def removeRequest (s : PoolState C) (requestId : Nat) : PoolState C :=
  { s with requests := s.requests.eraseP (·.id == requestId) }

end PoolState

/-! ### Derived counts -/

def u32Max : Nat := 4294967295

def saturatingU32 (value : Nat) : Nat := Nat.min value u32Max

def requestIsOpening (r : Request C) : Bool :=
  r.bgProcessing && !r.requiresPing && !r.completed && r.error.isNone &&
    (r.inProgress || r.isExtra || r.isReplacing)

def pendingOpenCount (s : PoolState C) : Nat :=
  saturatingU32 ((s.openEffects.length + s.inFlightOpenEffects.length) + s.requests.countP requestIsOpening)

/-- Whether a connection serves a request of the given class. -/
def classMatches (cclass : Option String) (conn : PooledConn C) : Bool :=
  cclass.isNone || conn.cclass == cclass

def compatibleIdleCount (s : PoolState C) (wantsNew : Bool) (cclass : Option String) (cclassMatches : Bool) : Nat :=
  if wantsNew then 0
  else saturatingU32 (s.freeUsed.countP (classMatches cclass) + if cclassMatches then s.freeNew.length else 0)

def compatibleWaitingDemand (s : PoolState C) : Nat :=
  saturatingU32 (s.requests.countP fun r =>
    r.waiting && r.cclassMatches && !r.completed && !r.requiresPing && !r.isExtra && !r.isReplacing &&
      r.conn.isNone && r.error.isNone)

def activeOpenCount (s : PoolState C) : Nat :=
  saturatingU32 (s.freeNew.length + s.freeUsed.length + s.busy.length + s.requests.countP (·.conn.isSome))

def reservedOpenCount (s : PoolState C) : Nat :=
  saturatingU32 (activeOpenCount s + pendingOpenCount s)

/-! ### Open effects -/

def scheduleOpenEffects (s : PoolState C) (count : Nat) : PoolState C :=
  { s with
    openEffects := s.openEffects ++ List.range' s.nextConnId count
    nextConnId := s.nextConnId + count }

def completeOpenEffect (s : PoolState C) (connId : Nat) : PoolState C :=
  { s with inFlightOpenEffects := s.inFlightOpenEffects.erase connId }

def ensureMinConnections (s : PoolState C) : PoolState C :=
  if s.isOpen && reservedOpenCount s < s.config.min then
    scheduleOpenEffects s (s.config.min - reservedOpenCount s)
  else s

/-! ### Moving a connection into a container -/

def pushToDrop (s : PoolState C) (conn : PooledConn C) : PoolState C :=
  { s with toDrop := s.toDrop ++ [conn] }

def dropConn (s : PoolState C) (conn : PooledConn C) : PoolState C :=
  ensureMinConnections (pushToDrop s conn)

/-- `reject` on the connection a request still holds: back to the free list it came from, or to the drop queue when
the pool is closed or the connection is an extra one. -/
def reject (s : PoolState C) (slot : Option (PooledConn C)) : PoolState C :=
  match slot with
  | none => s
  | some conn =>
    if !s.isOpen then pushToDrop s { conn with isPoolExtra := false }
    else if conn.isPoolExtra then pushToDrop s { conn with isPoolExtra := false }
    else if !conn.everAcquired then { s with freeNew := s.freeNew ++ [conn] }
    else { s with freeUsed := s.freeUsed ++ [conn] }

/-- Remove a request that will never be completed.  A request the worker still owns stays queued with `waiting`
off. -/
def abandonRequest (s : PoolState C) (requestId : Nat) : PoolState C :=
  match s.request? requestId with
  | none => s
  | some r =>
    let s := s.modifyRequest requestId fun r => { r with waiting := false }
    if r.bgProcessing then s else reject (s.removeRequest requestId) r.conn

end OracleThin.Pool

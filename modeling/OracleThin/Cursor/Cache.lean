import OracleThin.Lib.Transition

/-!
# Server cursors and the statement cache of a connection

A connection keeps the open cursor of each SQL text it executed in an LRU cache, the cursors that an owner is reading
from (`inUseCursors`), the cursors that were parsed because the cached one was in use (`copiedCursors`), and the queue
of cursors that the next piggyback closes. This file embeds the functions that move cursor ids between these sets and
runs them against a server and the owners of cursors.
-/

namespace OracleThin.Cursor

open Lib

/-! ### Bind shapes -/

structure BindShapeSlot where
  family : UInt8
  csfrm : UInt8
  untypedNull : Bool
deriving DecidableEq, Repr

def bindShapeIsCompatible (cached new : List BindShapeSlot) : Bool :=
  cached.length == new.length &&
    (cached.zip new).all fun (cached, new) =>
      new.untypedNull || (cached.family == new.family && cached.csfrm == new.csfrm)

/-! ### The cache -/

structure CachedStatement where
  sql : String
  cursorId : Nat
  bindShape : List BindShapeSlot
deriving DecidableEq, Repr

/-- Removes the oldest entries beyond the capacity; also returns the cursors to close. -/
def evict (capacity : Nat) : List CachedStatement → List CachedStatement × List Nat
  | [] => ([], [])
  | evicted :: cache =>
    if capacity < cache.length + 1 then
      let (kept, toClose) := evict capacity cache
      (kept, if evicted.cursorId ≠ 0 then evicted.cursorId :: toClose else toClose)
    else (evicted :: cache, [])

/-- The bind shape to record, and the replaced cursor to close, when `old` was cached for the same text. -/
def replaceStatement (old : CachedStatement) (cursorId : Nat) (bindShape : List BindShapeSlot) :
    List BindShapeSlot × List Nat :=
  if old.cursorId ≠ 0 ∧ old.cursorId ≠ cursorId then (bindShape, [old.cursorId])
  else if old.cursorId = cursorId ∧ old.bindShape.length = bindShape.length then
    (List.zipWith (fun slot oldSlot => if slot.untypedNull then oldSlot else slot) bindShape old.bindShape, [])
  else (bindShape, [])

def statementCacheInsert (cache : List CachedStatement) (capacity : Nat) (sql : String) (cursorId : Nat)
    (bindShape : List BindShapeSlot) : List CachedStatement × List Nat :=
  if cursorId = 0 then (cache, [])
  else
    let (bindShape, replaced) := match cache.find? (·.sql == sql) with
      | some old => replaceStatement old cursorId bindShape
      | none => (bindShape, [])
    let (cache, evicted) := evict capacity (cache.eraseP (·.sql == sql) ++ [⟨sql, cursorId, bindShape⟩])
    (cache, replaced ++ evicted)

/-! ### The connection -/

structure Connection where
  statementCache : List CachedStatement := []
  statementCacheSize : Nat
  inUseCursors : List Nat := []
  copiedCursors : List Nat := []
  cursorsToClose : List Nat := []
  /-- The cursors whose describe metadata is retained. -/
  cursorColumns : List Nat := []
  lobPrefetchCursors : List Nat := []
deriving DecidableEq, Repr

/-- Removes an id from a set of ids. -/
def without (id : Nat) (ids : List Nat) : List Nat := ids.filter (· ≠ id)

namespace Connection

def closeCursor (c : Connection) (cursorId : Nat) : Connection :=
  if cursorId = 0 then c
  else { c with
    statementCache := c.statementCache.filter (·.cursorId ≠ cursorId)
    inUseCursors := without cursorId c.inUseCursors
    copiedCursors := without cursorId c.copiedCursors
    cursorColumns := without cursorId c.cursorColumns
    lobPrefetchCursors := without cursorId c.lobPrefetchCursors
    cursorsToClose := if cursorId ∈ c.cursorsToClose then c.cursorsToClose else c.cursorsToClose ++ [cursorId] }

def releaseCursor (c : Connection) (cursorId : Nat) : Connection :=
  if cursorId = 0 then c
  else
    let c' := { c with inUseCursors := without cursorId c.inUseCursors }
    if cursorId ∈ c.copiedCursors then
      { c' with
        copiedCursors := without cursorId c.copiedCursors
        cursorsToClose := c.cursorsToClose ++ [cursorId]
        cursorColumns := without cursorId c.cursorColumns
        lobPrefetchCursors := without cursorId c.lobPrefetchCursors }
    else c'

def statementIsInUse (c : Connection) (sql : String) : Bool :=
  match c.statementCache.find? (·.sql == sql) with
  | some entry => decide (entry.cursorId ≠ 0 ∧ entry.cursorId ∈ c.inUseCursors)
  | none => false

def statementCacheInvalidate (c : Connection) (sql : String) (cursorId : Nat) : Connection :=
  closeCursor { c with statementCache := c.statementCache.eraseP (·.sql == sql) } cursorId

def statementCacheGet (c : Connection) (sql : String) (bindShape : List BindShapeSlot) : Option Nat × Connection :=
  match c.statementCache.find? (·.sql == sql) with
  | none => (none, c)
  | some entry =>
    if entry.cursorId ≠ 0 ∧ entry.cursorId ∈ c.inUseCursors then (none, c)
    else if bindShapeIsCompatible entry.bindShape bindShape then
      (some entry.cursorId, { c with statementCache := c.statementCache.eraseP (·.sql == sql) ++ [entry] })
    else (none, c.statementCacheInvalidate sql entry.cursorId)

/-- Unlike `statementCacheGet`, this does not ask whether the cursor is in use. -/
def statementCacheTake (c : Connection) (sql : String) (bindShape : List BindShapeSlot) : Option Nat × Connection :=
  match c.statementCache.find? (·.sql == sql) with
  | none => (none, c)
  | some entry =>
    if bindShapeIsCompatible entry.bindShape bindShape then
      (some entry.cursorId, { c with statementCache := c.statementCache.eraseP (·.sql == sql) })
    else (none, c.statementCacheInvalidate sql entry.cursorId)

def statementCachePut (c : Connection) (sql : String) (cursorId : Nat) (bindShape : List BindShapeSlot) :
    Connection :=
  let (cache, toClose) := statementCacheInsert c.statementCache c.statementCacheSize sql cursorId bindShape
  { c with
    statementCache := cache
    lobPrefetchCursors := c.lobPrefetchCursors.filter (· ∉ toClose)
    cursorColumns := c.cursorColumns.filter (· ∉ toClose)
    cursorsToClose := c.cursorsToClose ++ toClose }

/-- Drops the cache entries of the cursors that were bound as IN REF CURSOR. -/
def invalidateBoundRefCursors (c : Connection) (boundCursors : List Nat) : Connection :=
  { c with
    statementCache := c.statementCache.filter fun entry => entry.cursorId = 0 ∨ entry.cursorId ∉ boundCursors
    cursorColumns := c.cursorColumns.filter (· ∉ boundCursors)
    lobPrefetchCursors := c.lobPrefetchCursors.filter (· ∉ boundCursors) }

def takeCloseCursorsPiggyback (c : Connection) : List Nat × Connection :=
  (c.cursorsToClose, { c with cursorsToClose := [] })

end Connection

/-! ### Executes -/

structure ExecuteOptions where
  cacheStatement : Bool := true
  parseOnly : Bool := false
  /-- The caller's own open cursor to continue, or 0. -/
  cursorId : Nat := 0
deriving DecidableEq, Repr

structure Execute where
  sql : String
  isQuery : Bool := true
  options : ExecuteOptions := {}
  bindShape : List BindShapeSlot := []
  boundCursors : List Nat := []
deriving DecidableEq, Repr

def Execute.useCache (e : Execute) : Bool := e.options.cacheStatement && !e.options.parseOnly

/-- What becomes of a successful execute: its result reaches the caller, the fetch that redefines its columns fails,
or the caller gives up before that fetch. -/
inductive Delivery
  | returned
  | refetchFailed
  | abandoned
deriving DecidableEq, Repr

inductive Outcome
  /-- `described`: the result has columns; `lobPrefetch`: it has rows with prefetched LOB fields. -/
  | ok (cursorId : Nat) (described lobPrefetch : Bool) (delivery : Delivery)
  /-- An ERROR message with the cursor of the failed call. -/
  | serverError (cursorId : Nat)
  /-- Any other parse error. -/
  | otherError
  /-- The request or the response is lost. -/
  | lost
deriving DecidableEq, Repr

/-- An execute up to its round trip: the cursor it executes, whether it parses a copy, and the cursors its piggyback
closes. -/
structure Started where
  cursorId : Nat
  isCopy : Bool
  listed : List Nat
  conn : Connection

/-- The cursor that an execute uses. -/
def chooseCursor (c : Connection) (e : Execute) : Nat × Bool × Connection :=
  if e.options.cursorId = 0 ∧ e.options.parseOnly = false then
    if e.useCache then
      if c.statementIsInUse e.sql then (0, true, c)
      else
        let (cursorId, c) := c.statementCacheGet e.sql e.bindShape
        (cursorId.getD 0, false, c)
    else
      let (cursorId, c) := c.statementCacheTake e.sql e.bindShape
      (cursorId.getD 0, false, c)
  else (e.options.cursorId, false, c)

def startExecute (c : Connection) (e : Execute) : Started :=
  let (cursorId, isCopy, c) := chooseCursor c e
  let (listed, c) := c.takeCloseCursorsPiggyback
  ⟨cursorId, isCopy, listed, c⟩

/-- The cursor of a successful call as a copy, as a cache entry or as neither. -/
def recordCursor (c : Connection) (e : Execute) (isCopy : Bool) (cursorId : Nat) : Connection :=
  if isCopy then
    if cursorId ≠ 0 then { c with copiedCursors := c.copiedCursors.insert cursorId } else c
  else if e.useCache then c.statementCachePut e.sql cursorId e.bindShape
  else c

/-- The bookkeeping of a successful execute. -/
def recordResult (c : Connection) (e : Execute) (isCopy : Bool) (cursorId : Nat) (described lobPrefetch : Bool) :
    Connection :=
  let c :=
    if cursorId ≠ 0 ∧ lobPrefetch then { c with lobPrefetchCursors := c.lobPrefetchCursors.insert cursorId } else c
  let c := recordCursor c e isCopy cursorId
  let c :=
    if cursorId ≠ 0 ∧ e.isQuery ∧ e.options.parseOnly = false then
      { c with inUseCursors := c.inUseCursors.insert cursorId }
    else c
  let c := c.invalidateBoundRefCursors e.boundCursors
  if cursorId ≠ 0 ∧ described then { c with cursorColumns := c.cursorColumns.insert cursorId } else c

def finishExecute (s : Started) (e : Execute) : Outcome → Connection
  | .ok cursorId described lobPrefetch delivery =>
    let c := recordResult s.conn e s.isCopy cursorId described lobPrefetch
    if delivery = .refetchFailed ∧ e.options.parseOnly = false then c.closeCursor cursorId else c
  | .serverError cursorId =>
    let c := s.conn.closeCursor cursorId
    if e.useCache then c.statementCacheInvalidate e.sql s.cursorId else c
  | .otherError => if e.useCache then s.conn.statementCacheInvalidate e.sql s.cursorId else s.conn
  | .lost => s.conn

/-! ### Runs -/

structure World where
  conn : Connection
  /-- The query cursors that live owners hold. -/
  held : List Nat := []
  /-- The cursors that the server has open. -/
  opened : List Nat := []
  /-- The cursors that were listed or executed for somebody else while they were held. -/
  taken : List Nat := []

inductive Action
  | execute (e : Execute) (outcome : Outcome)
  | scroll (cursorId : Nat) (outcome : Outcome)
  | release (cursorId : Nat)
  | close (cursorId : Nat)

def World.start (statementCacheSize : Nat) : World := { conn := { statementCacheSize } }

/-- The owners after an execute: a query cursor that was returned gets an owner, and a caller whose own cursor was
retired after an error loses it. -/
def heldAfter (held : List Nat) (e : Execute) : Outcome → List Nat
  | .ok cursorId _ _ delivery =>
    if e.options.parseOnly = true ∨ delivery = .returned then
      if cursorId ≠ 0 ∧ e.isQuery = true then held.insert cursorId else held
    else if delivery = .refetchFailed then without cursorId held
    else held
  | .serverError cursorId =>
      if cursorId = e.options.cursorId ∨ e.useCache then without e.options.cursorId held else held
  | .otherError => if e.useCache then without e.options.cursorId held else held
  | .lost => held

/-- The server closes what the piggyback lists and opens the cursor of the call. -/
def openedAfter (opened listed : List Nat) : Outcome → List Nat
  | .ok cursorId _ _ _ | .serverError cursorId => cursorId :: opened.filter (· ∉ listed)
  | .otherError | .lost => opened.filter (· ∉ listed)

/-- What an execute takes away: listed cursors, and a cached cursor that somebody holds. -/
def takenBy (held : List Nat) (e : Execute) (s : Started) : List Nat :=
  s.listed.filter (· ∈ held) ++ if e.options.cursorId = 0 ∧ s.cursorId ∈ held then [s.cursorId] else []

/-- A scroll request on an open cursor: it carries the piggyback and does not touch the cache. -/
def scrollConn (c : Connection) : Outcome → Connection
  | .ok resultId described _ _ =>
    if resultId ≠ 0 ∧ described then { c with cursorColumns := c.cursorColumns.insert resultId } else c
  | .serverError failedId => c.closeCursor failedId
  | .otherError | .lost => c

/-- A caller whose own cursor was retired by a failed scroll loses it. -/
def heldAfterScroll (held : List Nat) (cursorId : Nat) : Outcome → List Nat
  | .serverError failedId => if failedId = cursorId then without cursorId held else held
  | _ => held

def step (w : World) : Action → Option World
  | .execute e outcome =>
    let s := startExecute w.conn e
    some {
      conn := finishExecute s e outcome
      held := heldAfter w.held e outcome
      opened := openedAfter w.opened s.listed outcome
      taken := w.taken ++ takenBy w.held e s }
  | .scroll cursorId outcome =>
    let (listed, c) := w.conn.takeCloseCursorsPiggyback
    some {
      conn := scrollConn c outcome
      held := heldAfterScroll w.held cursorId outcome
      opened := openedAfter w.opened listed outcome
      taken := w.taken ++ listed.filter (· ∈ w.held) }
  | .release cursorId => some { w with conn := w.conn.releaseCursor cursorId, held := without cursorId w.held }
  | .close cursorId => some { w with conn := w.conn.closeCursor cursorId, held := without cursorId w.held }

/-- The cursor that the server names is none, the executed one, or one that is not open. -/
def Names (opened listed : List Nat) (executed : Nat) : Outcome → Prop
  | .ok cursorId _ _ _ | .serverError cursorId =>
    cursorId = 0 ∨ cursorId = executed ∨ cursorId ∉ opened.filter (· ∉ listed)
  | .otherError | .lost => True

instance {opened listed : List Nat} {executed : Nat} {outcome : Outcome} :
    Decidable (Names opened listed executed outcome) := by
  cases outcome <;> unfold Names <;> infer_instance

/-- The server never returns an id that is still open. -/
def ServerFresh (w : World) : Action → Prop
  | .execute e outcome =>
    let s := startExecute w.conn e
    Names w.opened s.listed s.cursorId outcome
  | .scroll cursorId outcome => Names w.opened w.conn.cursorsToClose cursorId outcome
  | _ => True

instance (w : World) (a : Action) : Decidable (ServerFresh w a) := by
  cases a <;> unfold ServerFresh <;> infer_instance

end OracleThin.Cursor

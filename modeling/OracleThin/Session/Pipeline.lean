import OracleThin.Session.Machine
import OracleThin.Ttc.Writer

/-!
# A pipeline of operations

`run_pipeline` encodes and writes its operations one after the other, closes the batch with the end-pipeline message
and then reads one response for each message. The recovery phase is ready while it encodes and writes; it is raised
for each read by the guard of that read. The steps of a drain are those of the session machine.
-/

namespace OracleThin.Session

open Lib Wire Ttc SessionRecoveryPhase

/-! ### The call -/

/-- One operation; `β` is the type of bind values. -/
inductive PipelineRequest (β : Type)
  | execute (sql : String) (bindRows : List (List β)) (prefetchRows : Nat)
  | commit

inductive CancelDisposition
  | timeout
  | close
  | cancel
deriving DecidableEq, Repr

inductive PipelineError
  | wire (error : Error)
  | cancelled (disposition : CancelDisposition)
  | connectionClosed (error : ConnectionClosed)
deriving DecidableEq, Repr

/-- A call of `run_pipeline` on a connection. `buildExecute` is the encoder of execute messages, with the SQL text,
the number of rows to prefetch, the sequence number, the bind rows and the token; what it accepts starts with a
function code. -/
structure PipelineCall (β : Type) where
  settings : Settings
  supportsEndOfResponse : Bool
  ttcFieldVersion : Nat
  requests : List (PipelineRequest β)
  continueOnError : Bool
  buildExecute : String → Nat → UInt8 → List (List β) → Nat → Except ProtocolError (List UInt8)
  buildExecute_ne_nil : ∀ {sql prefetchRows seqNum bindRows tokenNum payload},
    buildExecute sql prefetchRows seqNum bindRows tokenNum = .ok payload → payload ≠ []

/-- Why a read fails: a socket error, a cancellation of the call, or the call timeout, after which the context may
still ask for the connection to be closed. -/
inductive ReadFailure
  | io
  | cancelled (disposition : CancelDisposition)
  | callTimeout (close : Bool)
deriving DecidableEq, Repr

inductive Stage
  | entry
  | cleaning
  | encoding (index : Nat)
  | sending (index : Nat) (written left : List (List UInt8))
  | reading (r : Reassembly)
  | recovering (close : Bool)
  | returned (result : Except PipelineError (List (List UInt8)))

/-- `bytes` counts the bytes of the pipeline that were written and `sent` its messages that were written
completely. -/
structure PipelineWorld where
  session : World := {}
  stage : Stage := .entry
  ttcSeqNum : UInt8 := 0
  cursorsToClose : List Nat := []
  responses : List (List UInt8) := []
  bytes : Nat := 0
  sent : Nat := 0

def PipelineWorld.return (w : PipelineWorld) (error : PipelineError) : PipelineWorld :=
  { w with stage := .returned (.error error) }

inductive PipelineAction
  | call (cancelled : Option CancelDisposition)
  | drain (action : Action)
  | drained
  | encode
  | write (answer : List (List UInt8))
  | writeFail (bytes : Nat)
  | flushed
  | read
  | readFail (bytes : Nat) (failure : ReadFailure)
  | serve

/-! ### Messages -/

def tnsPipelineModeContinueOnError : UInt8 := 1
def tnsPipelineModeAbortOnError : UInt8 := 2

def tnsDataFlagsEndOfRequest : UInt16 := 0x0800
def tnsDataFlagsBeginPipeline : UInt16 := 0x1000

namespace PipelineCall

variable {β : Type} (call : PipelineCall β)

def pipelineMode : UInt8 :=
  if call.continueOnError then tnsPipelineModeContinueOnError else tnsPipelineModeAbortOnError

/-- What the first message starts with, and the sequence number after it: the cursors to close, if there are any, and
the begin-pipeline piggyback. -/
def firstHead (ttcSeqNum : UInt8) (cursorsToClose : List Nat) : List UInt8 × UInt8 :=
  let (close, ttcSeqNum) := if cursorsToClose.isEmpty then ([], ttcSeqNum)
    else (buildCloseCursorsPiggyback cursorsToClose (nextTtcSequence ttcSeqNum) call.ttcFieldVersion,
      nextTtcSequence ttcSeqNum)
  let ttcSeqNum := nextTtcSequence ttcSeqNum
  (close ++ buildBeginPipelinePiggyback ttcSeqNum 1 call.pipelineMode, ttcSeqNum)

/-- The local checks and the encoder of one operation. -/
def operationPayload (seqNum : UInt8) (tokenNum : Nat) : PipelineRequest β → Except ProtocolError (List UInt8)
  | .execute sql bindRows prefetchRows => do
    call.settings.limits.checkBatchRows bindRows.length
    (bindRows.head?.elim (.ok ()) fun firstRow => call.settings.limits.checkBinds firstRow.length)
    call.buildExecute sql prefetchRows seqNum bindRows tokenNum
  | .commit => .ok (buildFunctionPayloadWithSeqAndToken tnsFuncCommit seqNum tokenNum call.ttcFieldVersion)

/-- The head of the message at `index` and the sequence number it is written with. -/
def messageHead (index : Nat) (w : PipelineWorld) : List UInt8 × UInt8 :=
  let (head, ttcSeqNum) := if index = 0 then call.firstHead w.ttcSeqNum w.cursorsToClose else ([], w.ttcSeqNum)
  (head, nextTtcSequence ttcSeqNum)

/-- The packets of the operation at `index`. -/
def operationPackets (index : Nat) (request : PipelineRequest β) (w : PipelineWorld) :
    Except ProtocolError (List (List UInt8)) := do
  let (head, seqNum) := call.messageHead index w
  let payload ← call.operationPayload seqNum (index + 1) request
  sendDataPacketWithFlagsAndWidth (head ++ payload) call.settings.sdu
    (if index = 0 then tnsDataFlagsBeginPipeline else 0)
    tnsDataFlagsEndOfRequest .large32

/-- The packets of the message at `index`: an operation, or the end-pipeline message behind the last one. -/
def messagePackets (index : Nat) (w : PipelineWorld) : Except ProtocolError (List (List UInt8)) :=
  match call.requests[index]? with
  | some request => call.operationPackets index request w
  | none => sendDataPacketWithFlagsAndWidth (buildEndPipelinePayloadWithSeq (nextTtcSequence w.ttcSeqNum))
      call.settings.sdu 0 0 .large32

/-- Encoding a message takes sequence numbers and, for the first one, the cursors to close, also when it fails. -/
def numbered (index : Nat) (w : PipelineWorld) : PipelineWorld :=
  match call.requests[index]? with
  | some _ => { w with
      ttcSeqNum := (call.messageHead index w).2
      cursorsToClose := if index = 0 then [] else w.cursorsToClose }
  | none => { w with ttcSeqNum := nextTtcSequence w.ttcSeqNum }

/-! ### Steps -/

/-- The check behind `ensure_clean_before_request`. -/
def proceed (w : PipelineWorld) : PipelineWorld :=
  match call.settings.limits.checkLengthPrefixedElements call.requests.length with
  | .error e => w.return (.wire (.protocol e))
  | .ok _ => { w with stage := .encoding 0 }

def ensureClean (w : PipelineWorld) : PipelineWorld :=
  let phase := if w.session.phase = .inFlight then w.session.phase.markBreakRequired else w.session.phase
  match phase.beginPendingDrain with
  | .error e => { w with session := { w.session with phase } }.return (.connectionClosed e)
  | .ok (false, phase) => call.proceed { w with session := { w.session with phase } }
  | .ok (true, phase) => { w with session := { w.session with phase, client := .breaking none }, stage := .cleaning }

def callStep (cancelled : Option CancelDisposition) (w : PipelineWorld) : PipelineWorld :=
  if !call.supportsEndOfResponse then
    w.return (.wire (.protocol
      (.unsupportedFeature ("pipelining requires END_OF_RESPONSE framing, which this server " ++
      "did not negotiate (requires Oracle Database 23ai or later)"))))
  else
    match cancelled with
    | some disposition => w.return (.cancelled disposition)
    | none => if call.requests.isEmpty then { w with stage := .returned (.ok []) } else call.ensureClean w

def encodeStep (index : Nat) (w : PipelineWorld) : PipelineWorld :=
  match call.messagePackets index w with
  | .error e => (call.numbered index w).return (.wire (.protocol e))
  | .ok packets => { call.numbered index w with
      stage := .sending index [] packets
      session := { w.session with requests := ⟨0, packets.flatten.length⟩ :: w.session.requests } }

/-- The packet is written; if it is the last one, the server answers the message. -/
def writeStep (index : Nat) (written : List (List UInt8)) (packet : List UInt8) (left answer : List (List UInt8))
    (w : PipelineWorld) : PipelineWorld :=
  { w with
    stage := .sending index (written ++ [packet]) left
    session := { w.session with
      server := w.session.server.receiveRequest (written ++ packet :: left) packet [answer]
      requests := advance packet.length w.session.requests }
    bytes := w.bytes + packet.length
    sent := if left.isEmpty then w.sent + 1 else w.sent }

/-- A write fails with `bytes` bytes of the next packet written, or the flush fails behind the last packet. -/
def writeFailStep (left : List (List UInt8)) (bytes : Nat) (w : PipelineWorld) : Option PipelineWorld :=
  if bytes = 0 ∨ bytes < (left.headD []).length then
    some ({ w with
      session := { w.session with
        server := { w.session.server with garbled := w.session.server.garbled || bytes != 0 }
        requests := advance bytes w.session.requests }
      bytes := w.bytes + bytes }.return (.wire .io))
  else none

/-- The guard of the next read is armed. -/
def armRead (w : PipelineWorld) : PipelineWorld :=
  match w.session.phase.beginOrAdoptOperation with
  | .error e => w.return (.connectionClosed e)
  | .ok phase => { w with session := { w.session with phase }, stage := .reading {} }

/-- A response has been read and its guard is disarmed. -/
def receive (response : List UInt8) (w : PipelineWorld) : PipelineWorld :=
  let w := { w with
    session := { w.session with phase := w.session.phase.completeOperation }
    responses := w.responses ++ [response] }
  if w.responses.length = call.requests.length + 1 then { w with stage := .returned (.ok w.responses) }
  else armRead w

/-- Reads one packet of a response; the step waits while the packet has not arrived. -/
def readStep (r : Reassembly) (w : PipelineWorld) : Option PipelineWorld :=
  match readPacketWithLimits .large32 call.settings.limits w.session.inbound with
  | .error .io => none
  | .error e => some ({ w with session := failRead e w.session }.return (.wire e))
  | .ok (packet, inbound) =>
    let w := { w with session := { w.session with inbound } }
    match boundaryPacket call.settings.limits true none r packet with
    | .error e => some ({ w with session := failRead e w.session }.return (.wire e))
    | .ok (.more r) => some { w with stage := .reading r }
    | .ok (.done response) => some (call.receive response w)
    -- In a pipeline a marker is dropped.
    | .ok .reset => none

/-- The first half of `recover_from_call_timeout`. -/
def recover (close : Bool) (w : PipelineWorld) : PipelineWorld :=
  match w.session.phase.beginDrainAfterBreak with
  | .error e => w.return (.connectionClosed e)
  | .ok phase => { w with session := { w.session with phase, client := .breaking none }, stage := .recovering close }

/-- The read fails with `bytes` bytes of the next packet read; its guard is dropped. -/
def readFailStep (bytes : Nat) (failure : ReadFailure) (w : PipelineWorld) : Option PipelineWorld :=
  match readPacketWithLimits .large32 call.settings.limits (w.session.inbound.take bytes) with
  | .error .io =>
    let w := { w with session := { w.session with inbound := w.session.inbound.drop bytes } }
    match failure with
    | .io => some ({ w with session := strand w.session }.return (.wire .io))
    | .cancelled .close =>
      some ({ w with session := strand { w.session with phase := w.session.phase.markDead } }.return
        (.cancelled .close))
    | .cancelled .cancel => some ({ w with session := strand w.session }.return (.cancelled .cancel))
    | .cancelled .timeout => some (recover false { w with session := strand w.session })
    | .callTimeout close => some (recover close { w with session := strand w.session })
  | _ => none

/-- The drain of `ensure_clean_before_request` has ended. -/
def cleaned (w : PipelineWorld) : PipelineWorld :=
  if w.session.phase = .ready then call.proceed w else w.return (.connectionClosed ⟨"connection is closed"⟩)

/-- The second half of `recover_from_call_timeout`. -/
def recovered (close : Bool) (w : PipelineWorld) : PipelineWorld :=
  if w.session.phase = .ready then
    if close then { w with session := { w.session with phase := w.session.phase.markDead } }.return
      (.cancelled .close)
    else w.return (.cancelled .timeout)
  else w.return (.connectionClosed ⟨"connection is closed"⟩)

end PipelineCall

/-- The steps of a drain. -/
def Action.drains : Action → Bool
  | .sendBreak _ _ | .drainRead | .drainReply | .drainFail => true
  | _ => false

def pipelineStep {β : Type} (call : PipelineCall β) (w : PipelineWorld) (action : PipelineAction) :
    Option PipelineWorld :=
  match action, w.stage with
  | .call cancelled, .entry => some (call.callStep cancelled w)
  | .drain action, .cleaning | .drain action, .recovering _ =>
    if action.drains then (step call.settings w.session action).map fun session => { w with session } else none
  | .drained, .cleaning =>
    match w.session.client with
    | .idle => some (call.cleaned w)
    | _ => none
  | .drained, .recovering close =>
    match w.session.client with
    | .idle => some (PipelineCall.recovered close w)
    | _ => none
  | .encode, .encoding index => some (call.encodeStep index w)
  | .write answer, .sending index written (packet :: left) =>
    some (PipelineCall.writeStep index written packet left answer w)
  | .writeFail bytes, .sending _ _ left => PipelineCall.writeFailStep left bytes w
  | .flushed, .sending index _ [] =>
    some (if index < call.requests.length then { w with stage := .encoding (index + 1) } else PipelineCall.armRead w)
  | .read, .reading r => call.readStep r w
  | .readFail bytes failure, .reading _ => call.readFailStep bytes failure w
  | .serve, _ => (step call.settings w.session .serve).map fun session => { w with session }
  | _, _ => none

end OracleThin.Session

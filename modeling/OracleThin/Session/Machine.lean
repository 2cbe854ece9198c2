import OracleThin.Lib.Dialogue
import OracleThin.Lib.Transition
import OracleThin.Session.Recovery
import OracleThin.Wire.Response

/-!
# One connection: the driver, the server and the bytes between them

A driver operation checks the recovery phase, writes its request packet by packet, arms the cancel-on-drop guard,
reads the response packet by packet and disarms the guard. It can be given up wherever it waits. A speculative fetch
request does its two halves in separate calls. An operation that finds a stranded response first sends a BREAK and
drains; the drain runs on its own thread and cannot be dropped.

The server answers a complete request in turns, one for each reply of the driver: a turn that ends in a marker expects
a RESET, a turn that ends in a FLUSH_OUT_BINDS request expects that message back. To a BREAK it answers with a marker
and, after the RESET, with the trailing error.
-/

namespace OracleThin.Session

open Lib Wire SessionRecoveryPhase

/-! ### Readers -/

/-- What the connection has negotiated. `classic` is the completeness check of a server without END_OF_RESPONSE
framing. -/
structure Settings where
  sdu : Nat
  limits : ProtocolLimits
  classic : Option (List UInt8 → Bool)

/-- A request of the driver: its payload, whether the reader answers FLUSH_OUT_BINDS, the probe that a classic reader
uses, and whether the response is read by a later call. -/
structure Operation where
  payload : List UInt8
  flushing : Bool
  probe : List UInt8 → Except ProtocolError Bool
  speculative : Bool
  payload_ne_nil : payload ≠ []

/-- The packets a reader writes. -/
inductive Reply
  | reset
  | flushOutBinds
deriving DecidableEq, Repr

def Reply.packet : Reply → List UInt8
  | reset => markerPacket tnsMarkerTypeReset
  | flushOutBinds => [0, 0, 0, 11, tnsPacketTypeData, 0, 0, 0, 0, 0, tnsMsgTypeFlushOutBinds]

/-- The reassembly loop between two packets; `skipping` while it skips the markers that answer a RESET. -/
structure Reader where
  r : Reassembly := {}
  skipping : Bool := false

/-- One round of the reassembly loop with the body `handle`; `done` says what follows a whole response. -/
def Reader.react {σ : Type} (handle : Reassembly → IncomingPacket → Except Error Verdict) (wrap : Reader → σ)
    (done : List UInt8 → Except Error (Reaction σ Reply)) (reader : Reader) (packet : IncomingPacket) :
    Except Error (Reaction σ Reply) :=
  if reader.skipping = true ∧ packet.packetType = tnsPacketTypeMarker then .ok (.wait (wrap reader))
  else
    match handle reader.r packet with
    | .error e => .error e
    | .ok (.more r) => .ok (.wait (wrap ⟨r, false⟩))
    | .ok .reset => .ok (.reply .reset (wrap ⟨{ reader.r with afterReset := true }, true⟩))
    | .ok (.done response) => done response

/-- A response read in part: the payload before the last flush and the loop. -/
structure ReadState where
  payload : List UInt8 := []
  reader : Reader := {}

namespace Operation

def handle (settings : Settings) (op : Operation) : Reassembly → IncomingPacket → Except Error Verdict :=
  if settings.classic.isSome then classicPacket settings.limits op.probe
  else boundaryPacket settings.limits false none

/-- What the reader of the operation does with a whole response: a FLUSH_OUT_BINDS request is taken off the payload
and answered. The classic reader goes on with the payload as its response, the boundary reader starts a new
response. -/
def received (settings : Settings) (op : Operation) (payload response : List UInt8) :
    Except Error (Reaction ReadState Reply) := do
  if !op.flushing then
    return .finish
  if settings.classic.isSome then
    return if endsInFlush response then .reply .flushOutBinds { reader := { r := { response := response.dropLast } } }
      else .finish
  (settings.limits.checkResponseBytes (payload.length + response.length)).mapError .protocol
  return if endsInFlush response then .reply .flushOutBinds { payload := (payload ++ response).dropLast } else .finish

/-- One packet of the response to the operation. -/
def onPacket (settings : Settings) (op : Operation) (s : ReadState) (packet : IncomingPacket) :
    Except Error (Reaction ReadState Reply) :=
  s.reader.react (op.handle settings) ({ s with reader := · }) (op.received settings s.payload) packet

/-- The packets of the request. -/
def packets (settings : Settings) (op : Operation) : Except ProtocolError (List (List UInt8)) :=
  sendDataPacketWithFlagsAndWidth op.payload settings.sdu 0 0 .large32

end Operation

/-- The drain discards DATA packets up to the first marker, answers it, and reads the trailing error response. -/
inductive Drain
  | discarding
  | trailing (reader : Reader)

def Drain.onPacket (settings : Settings) : Drain → IncomingPacket → Except Error (Reaction Drain Reply)
  | .discarding, packet =>
    if packet.packetType = tnsPacketTypeMarker then .ok (.reply .reset (.trailing { skipping := true }))
    else if packet.packetType = tnsPacketTypeData then .ok (.wait .discarding)
    else .error (.unexpectedPacket packet.packetType)
  | .trailing reader, packet =>
    reader.react (boundaryPacket settings.limits false settings.classic) .trailing (fun _ => .ok .finish) packet

/-! ### The server -/

/-- `got` are the packets of the request that is arriving, `outbox` the packets still to be sent, `turns` what follows
after each reply. A server that received part of a packet is garbled and answers nothing any more. -/
structure Server where
  got : List (List UInt8) := []
  outbox : List (List UInt8) := []
  turns : List (List (List UInt8)) := []
  garbled : Bool := false

namespace Server

/-- A packet of `request` arrives; when it completes the request, the server starts its answer. -/
def receiveRequest (server : Server) (request : List (List UInt8)) (packet : List UInt8)
    (answer : List (List (List UInt8))) : Server :=
  if server.garbled = false ∧ server.got ++ [packet] = request then
    { server with got := [], outbox := server.outbox ++ answer.headD [], turns := answer.tail }
  else { server with got := server.got ++ [packet] }

def receiveReply (server : Server) : Server :=
  if server.garbled then server
  else { server with outbox := server.outbox ++ server.turns.headD [], turns := server.turns.tail }

/-- A BREAK stops the answer after `keep` more packets; the marker follows, and after the RESET the trailing
packets. -/
def receiveBreak (server : Server) (keep : Nat) (trailing : List (List UInt8)) : Server :=
  if server.garbled then server
  else { server with
    got := []
    outbox := server.outbox.take keep ++ [markerPacket tnsMarkerTypeBreak]
    turns := [trailing] }

end Server

/-! ### The connection -/

inductive Client
  | idle
  /-- A speculative request is out and nobody reads. -/
  | outstanding (op : Operation)
  | breaking (next : Option Operation)
  | draining (next : Option Operation) (s : Drain) (reply : Option Reply)
  | sending (op : Operation) (written left : List (List UInt8))
  | reading (op : Operation) (s : ReadState) (reply : Option Reply)

/-- How many bytes of a request have been written, and how many there are. -/
structure Progress where
  written : Nat
  total : Nat
deriving DecidableEq, Repr

structure World where
  phase : SessionRecoveryPhase := .ready
  client : Client := .idle
  server : Server := {}
  /-- The bytes that have arrived and were not read yet. -/
  inbound : List UInt8 := []
  /-- The requests so far, the latest first. -/
  requests : List Progress := []

inductive Action
  | start (op : Operation)
  | respond
  | cancel
  | sendBreak (keep : Nat) (trailing : List (List UInt8))
  | drainRead
  | drainReply
  | drainFail
  | write (answer : List (List (List UInt8)))
  | flushed
  | giveUpSend (bytes : Nat) (failed : Bool)
  | read (sessionDead : Bool)
  | reply
  | giveUpRead (bytes : Nat) (close : Bool)
  | serve

/-- Adds bytes to the progress of the latest request. -/
def advance (bytes : Nat) : List Progress → List Progress
  | [] => []
  | p :: ps => { p with written := p.written + bytes } :: ps

def sendRequest (settings : Settings) (op : Operation) (w : World) : World :=
  match op.packets settings with
  | .error _ => { w with client := .idle }
  | .ok packets =>
    { w with client := .sending op [] packets, requests := ⟨0, packets.flatten.length⟩ :: w.requests }

/-- The start of a request on a clean wire; a speculative one enters its phase before it sends. -/
def beginRequest (settings : Settings) (op : Operation) (w : World) : World :=
  if op.speculative then
    match w.phase.beginOperation with
    | .error _ => { w with client := .idle }
    | .ok phase => sendRequest settings op { w with phase }
  else sendRequest settings op w

/-- `ensure_clean_before_request`, up to the drain. -/
def startStep (settings : Settings) (op : Operation) (w : World) : World :=
  let phase := if w.phase = .inFlight then w.phase.markBreakRequired else w.phase
  match phase.beginPendingDrain with
  | .error _ => { w with phase, client := .idle }
  | .ok (false, phase) => beginRequest settings op { w with phase }
  | .ok (true, phase) => { w with phase, client := .breaking (some op) }

def failDrain (w : World) : World := { w with phase := w.phase.markDead, client := .idle }

def finishDrain (settings : Settings) (next : Option Operation) (w : World) : World :=
  let w := { w with phase := w.phase.finishDrainReady, client := .idle }
  next.elim w fun op => beginRequest settings op w

/-- Reads one packet of the drain; the step waits while the packet has not arrived. -/
def drainReadStep (settings : Settings) (next : Option Operation) (s : Drain) (w : World) : Option World :=
  match readPacketWithLimits .large32 settings.limits w.inbound with
  | .error .io => none
  | .error _ => some (failDrain w)
  | .ok (packet, inbound) =>
    let w := { w with inbound }
    match s.onPacket settings packet with
    | .error _ => some (failDrain w)
    | .ok (.wait s) => some { w with client := .draining next s none }
    | .ok (.reply r s) => some { w with client := .draining next s (some r) }
    | .ok .finish => some (finishDrain settings next w)

/-- The drop of the armed guard when the read fails or is dropped. -/
def strand (w : World) : World := { w with phase := w.phase.markBreakRequired, client := .idle }

/-- A read error: a protocol error kills the session, any other one leaves the guard armed. -/
def failRead (e : Error) (w : World) : World :=
  match e with
  | .protocol _ => strand { w with phase := w.phase.markDead }
  | _ => strand w

/-- Reads one packet of the response; the step waits while the packet has not arrived. -/
def readStep (settings : Settings) (op : Operation) (s : ReadState) (sessionDead : Bool) (w : World) : Option World :=
  match readPacketWithLimits .large32 settings.limits w.inbound with
  | .error .io => none
  | .error e => some (failRead e w)
  | .ok (packet, inbound) =>
    let w := { w with inbound }
    match op.onPacket settings s packet with
    | .error e => some (failRead e w)
    | .ok (.wait s) => some { w with client := .reading op s none }
    | .ok (.reply r s) => some { w with client := .reading op s (some r) }
    | .ok .finish =>
      let phase := w.phase.completeOperation
      some { w with phase := if sessionDead then phase.markDead else phase, client := .idle }

/-- The guard is armed and the read begins. -/
def armStep (op : Operation) (w : World) : World :=
  match w.phase.beginOrAdoptOperation with
  | .error _ => { w with client := .idle }
  | .ok phase => { w with phase, client := .reading op {} none }

/-- The send fails or is dropped with `bytes` bytes of the next packet written. Only a speculative request that fails
marks the session. -/
def giveUpSendStep (op : Operation) (left : List (List UInt8)) (bytes : Nat) (failed : Bool) (w : World) :
    Option World :=
  if bytes = 0 ∨ bytes < (left.headD []).length then
    some { w with
      phase := if op.speculative && failed then w.phase.markDead else w.phase
      client := .idle
      server := { w.server with garbled := w.server.garbled || bytes != 0 }
      requests := advance bytes w.requests }
  else none

/-- The read is given up with `bytes` bytes of the next packet read, or with `bytes` bytes of the reply written. -/
def giveUpReadStep (settings : Settings) (reply : Option Reply) (bytes : Nat) (close : Bool) (w : World) :
    Option World :=
  let w := if close then { w with phase := w.phase.markDead } else w
  match reply with
  | none =>
    match readPacketWithLimits .large32 settings.limits (w.inbound.take bytes) with
    | .error .io => some (strand { w with inbound := w.inbound.drop bytes })
    | _ => none
  | some r =>
    if bytes < r.packet.length then
      some (strand { w with server := { w.server with garbled := w.server.garbled || bytes != 0 } })
    else none

def step (settings : Settings) (w : World) (action : Action) : Option World :=
  match action, w.client with
  | .start op, .idle | .start op, .outstanding _ => some (startStep settings op w)
  | .respond, .outstanding op => some (armStep op w)
  | .cancel, .idle | .cancel, .outstanding _ =>
    match w.phase.beginDrainAfterBreak with
    | .error _ => some w
    | .ok phase => some { w with phase, client := .breaking none }
  | .sendBreak keep trailing, .breaking next =>
    some { w with server := w.server.receiveBreak keep trailing, client := .draining next .discarding none }
  | .drainRead, .draining next s none => drainReadStep settings next s w
  | .drainReply, .draining next s (some _) =>
    some { w with server := w.server.receiveReply, client := .draining next s none }
  | .drainFail, .breaking _ | .drainFail, .draining _ _ _ => some (failDrain w)
  | .write answer, .sending op written (packet :: left) =>
    some { w with
      client := .sending op (written ++ [packet]) left
      server := w.server.receiveRequest (written ++ packet :: left) packet answer
      requests := advance packet.length w.requests }
  | .flushed, .sending op _ [] =>
    some (if op.speculative then { w with client := .outstanding op } else armStep op w)
  | .giveUpSend bytes failed, .sending op _ left => giveUpSendStep op left bytes failed w
  | .read sessionDead, .reading op s none => readStep settings op s sessionDead w
  | .reply, .reading op s (some _) =>
    some { w with server := w.server.receiveReply, client := .reading op s none }
  | .giveUpRead bytes close, .reading _ _ reply => giveUpReadStep settings reply bytes close w
  | .serve, _ =>
    match w.server.outbox with
    | [] => none
    | packet :: outbox => some { w with server := { w.server with outbox }, inbound := w.inbound ++ packet }
  | _, _ => none

end OracleThin.Session

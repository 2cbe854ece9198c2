import OracleThin.Lib.Fallible
import OracleThin.Wire.Packet

/-!
# Reassembling a response from DATA packets

The two readers of a response differ in how they decide that a DATA packet is the last one: the boundary reader goes
by the END_OF_RESPONSE framing (`boundaryPacket`), the classic reader asks a probe that parses what has arrived so far
(`classicPacket`). Both run the same loop, `reassemble`, with the same reset exchange after a MARKER packet.
-/

namespace OracleThin.Wire

open Lib

/-! ### When a packet ends the response -/

def dataPacketEndsResponse (flags : UInt16) (payload : List UInt8) : Bool :=
  if flags &&& (tnsDataFlagsEndOfResponse ||| tnsDataFlagsEof) ≠ 0 then true
  else payload == [tnsMsgTypeEndOfResponse] || payload == [tnsMsgTypeFlushOutBinds]

def postResetPacketEndsResponse (payload : List UInt8) : Bool :=
  match payload.getLast? with
  | some byte => byte == tnsMsgTypeFlushOutBinds || byte == tnsMsgTypeEndOfResponse
  | none => false

/-- What the loop has read so far, and whether it has run a reset exchange. -/
structure Reassembly where
  response : List UInt8 := []
  afterReset : Bool := false
deriving DecidableEq, Repr

/-- What one packet means to the loop: read on, answer a marker with a RESET, or stop. -/
inductive Verdict
  | more (r : Reassembly)
  | reset
  | done (response : List UInt8)
deriving DecidableEq, Repr

/-- The data flags and the rest of the payload of a DATA packet. -/
def splitDataFlags (payload : List UInt8) : Except Error (UInt16 × List UInt8) :=
  match payload with
  | flag0 :: flag1 :: payload => .ok (UInt16.ofNat (ofBe [flag0, flag1]), payload)
  | _ => .error (.protocol (.ttcDecode "missing data packet flags"))

/-- The body of the loop of the boundary reader. `classic` is the completeness check for the trailing response of a
break on a server without END_OF_RESPONSE framing. -/
def boundaryPacket (limits : ProtocolLimits) (inPipeline : Bool) (classic : Option (List UInt8 → Bool))
    (r : Reassembly) (packet : IncomingPacket) : Except Error Verdict := do
  if packet.packetType = tnsPacketTypeMarker then
    return if inPipeline then .more r else .reset
  if packet.packetType ≠ tnsPacketTypeData then
    throw (.unexpectedPacket packet.packetType)
  let (flags, payload) ← splitDataFlags packet.payload
  let ends := dataPacketEndsResponse flags payload || (r.afterReset && postResetPacketEndsResponse payload)
  if ends && r.response.isEmpty then
    -- The single-packet passthrough.
    (limits.checkResponseBytes payload.length).mapError .protocol
    return .done payload
  (limits.checkResponseBytes (r.response.length + payload.length)).mapError .protocol
  let response := r.response ++ payload
  if ends then
    return .done response
  if (classic.elim false fun complete => complete response) then
    return .done response
  return .more { r with response }

/-- The body of the loop of the classic reader. -/
def classicPacket (limits : ProtocolLimits) (probe : List UInt8 → Result Bool) (r : Reassembly)
    (packet : IncomingPacket) : Except Error Verdict := do
  if packet.packetType = tnsPacketTypeMarker then
    return .reset
  if packet.packetType ≠ tnsPacketTypeData then
    throw (.unexpectedPacket packet.packetType)
  let (_, payload) ← splitDataFlags packet.payload
  (limits.checkResponseBytes (r.response.length + payload.length)).mapError .protocol
  let response := r.response ++ payload
  if r.afterReset && postResetPacketEndsResponse payload then
    return .done response
  if ← (probe response).mapError .protocol then
    return .done response
  return .more { r with response }

/-! ### The loop -/

def tnsMarkerTypeBreak : UInt8 := 1
def tnsMarkerTypeReset : UInt8 := 2

/-- The bytes of a MARKER packet. -/
def markerPacket (markerType : UInt8) : List UInt8 :=
  [0, 0, 0, 11, tnsPacketTypeMarker, 0, 0, 0, 1, 0, markerType]

theorem encodePacket_marker (markerType : UInt8) :
    encodePacket tnsPacketTypeMarker 0 none [1, 0, markerType] .large32 = .ok (markerPacket markerType) := by
  simp [encodePacket, markerPacket, dataFlagsBytes, toBe, tnsHeaderLen]

/-- Skips marker packets and returns the first packet that is none. -/
def drainResetMarkersWithLimits (limits : ProtocolLimits) : Nat → List UInt8 →
    Except Error (IncomingPacket × List UInt8)
  | 0, _ => .error .io
  | fuel + 1, stream => do
    let (packet, stream) ← readPacketWithLimits .large32 limits stream
    if packet.packetType ≠ tnsPacketTypeMarker then
      return (packet, stream)
    drainResetMarkersWithLimits limits fuel stream

/-- What a reader returns: the response, the bytes it left on the stream and the packets it wrote. -/
structure Received where
  response : List UInt8
  unread : List UInt8
  sent : List (List UInt8)
deriving DecidableEq, Repr

/-- The reassembly loop over the packets of a stream. Every round takes at least one packet off the stream, so the
length of the stream is enough fuel. -/
def reassemble (limits : ProtocolLimits) (handle : Reassembly → IncomingPacket → Except Error Verdict) :
    Nat → Option IncomingPacket → Reassembly → List UInt8 → List (List UInt8) → Except Error Received
  | 0, _, _, _, _ => .error .io
  | fuel + 1, pending, r, stream, sent => do
    let (packet, stream) ← match pending with
      | some packet => pure (packet, stream)
      | none => readPacketWithLimits .large32 limits stream
    match ← handle r packet with
    | .more r => reassemble limits handle fuel none r stream sent
    | .done response => return ⟨response, stream, sent⟩
    | .reset =>
      let (packet, stream) ← drainResetMarkersWithLimits limits fuel stream
      reassemble limits handle fuel (some packet) { r with afterReset := true } stream
        (sent ++ [markerPacket tnsMarkerTypeReset])

structure DataResponse where
  payload : List UInt8
  flushOutBinds : Bool
deriving DecidableEq, Repr

/-- A response ends with a request to flush the out binds when its last byte is the FLUSH_OUT_BINDS message byte. -/
def endsInFlush (payload : List UInt8) : Bool := payload.getLast? == some tnsMsgTypeFlushOutBinds

def readDataResponseBoundarySeeded (limits : ProtocolLimits) (inPipeline : Bool) (seed : Option IncomingPacket)
    (classic : Option (List UInt8 → Bool)) (stream : List UInt8) :
    Except Error (DataResponse × List UInt8 × List (List UInt8)) := do
  let received ← reassemble limits (boundaryPacket limits inPipeline classic) (stream.length + 2) seed {} stream []
  return (⟨received.response, endsInFlush received.response⟩, received.unread, received.sent)

def readDataResponseBoundaryWithLimits (limits : ProtocolLimits) (inPipeline : Bool) (stream : List UInt8) :
    Except Error (DataResponse × List UInt8 × List (List UInt8)) :=
  readDataResponseBoundarySeeded limits inPipeline none none stream

/-- The classic reader, appending to a response that has been read in part. -/
def readClassicDataResponseProbedInto (limits : ProtocolLimits) (probe : List UInt8 → Result Bool)
    (stream response : List UInt8) : Except Error Received :=
  reassemble limits (classicPacket limits probe) (stream.length + 1) none { response } stream []

def readClassicDataResponseProbedWithLimits (limits : ProtocolLimits) (probe : List UInt8 → Result Bool)
    (stream : List UInt8) : Except Error Received :=
  readClassicDataResponseProbedInto limits probe stream []

/-! ### Packets on a stream -/

/-- The bytes are one packet: a reader that finds them in front takes exactly these and gets `packet`. -/
def Frames (limits : ProtocolLimits) (bytes : List UInt8) (packet : IncomingPacket) : Prop :=
  ∀ rest, readPacketWithLimits .large32 limits (bytes ++ rest) = .ok (packet, rest)

/-- The packet that a reader sees for an encoded DATA piece. -/
def DataPiece.incoming (piece : DataPiece) : IncomingPacket :=
  ⟨tnsPacketTypeData, piece.packetFlags, dataFlagsBytes (some piece.dataFlags) ++ piece.payload⟩

theorem DataPiece.frames {limits : ProtocolLimits} {piece : DataPiece} {bytes : List UInt8}
    (h : piece.encode .large32 = .ok bytes) (hlimit : bytes.length ≤ limits.maxPacketBytes) :
    Frames limits bytes piece.incoming := by
  intro rest
  rw [readPacketWithLimits_encodePacket limits rest h, ProtocolLimits.checkPacketBytes,
    ProtocolLimits.check_eq_ok hlimit]
  rfl

theorem splitDataFlags_incoming (piece : DataPiece) :
    splitDataFlags piece.incoming.payload = .ok (piece.dataFlags, piece.payload) := by
  have h : ofBe (toBe 2 piece.dataFlags.toNat) = piece.dataFlags.toNat :=
    ofBe_toBe_of_lt piece.dataFlags.toNat_lt
  simp only [toBe, List.nil_append, List.cons_append] at h
  simp only [DataPiece.incoming, dataFlagsBytes, toBe, List.nil_append, List.cons_append, splitDataFlags, h,
    UInt16.ofNat_toNat]

/-- The loop body reads on over every packet but the last and stops at the last one with `response`. -/
inductive Accepts (handle : Reassembly → IncomingPacket → Except Error Verdict) :
    Reassembly → List IncomingPacket → List UInt8 → Prop
  | done {r packet response} (h : handle r packet = .ok (.done response)) : Accepts handle r [packet] response
  | more {r r' packet packets response} (h : handle r packet = .ok (.more r'))
      (hrest : Accepts handle r' packets response) : Accepts handle r (packet :: packets) response

theorem reassemble_of_accepts {limits : ProtocolLimits} {handle : Reassembly → IncomingPacket → Except Error Verdict}
    {r : Reassembly} {packets : List IncomingPacket} {response : List UInt8} (h : Accepts handle r packets response)
    {bytes : List (List UInt8)} (hframes : List.Forall₂ (Frames limits) bytes packets) {fuel : Nat}
    (hfuel : packets.length ≤ fuel) (rest : List UInt8) (sent : List (List UInt8)) :
    reassemble limits handle fuel none r (bytes.flatten ++ rest) sent = .ok ⟨response, rest, sent⟩ := by
  induction h generalizing bytes fuel with
  | done h =>
    obtain ⟨fuel, rfl⟩ := Nat.exists_eq_succ_of_ne_zero (Nat.pos_iff_ne_zero.1 hfuel)
    obtain ⟨b, bs, hb, hbs, rfl⟩ := List.forall₂_cons_right_iff.1 hframes
    rw [List.forall₂_nil_right_iff.1 hbs]
    simp only [reassemble, List.flatten_cons, List.flatten_nil, List.append_nil, hb rest, bind, Except.bind, h]
    rfl
  | more h _ ih =>
    obtain ⟨fuel, rfl⟩ := Nat.exists_eq_succ_of_ne_zero (Nat.pos_iff_ne_zero.1 (Nat.zero_lt_of_lt hfuel))
    obtain ⟨b, bs, hb, hbs, rfl⟩ := List.forall₂_cons_right_iff.1 hframes
    simp only [reassemble, List.flatten_cons, List.append_assoc, hb (bs.flatten ++ rest), bind, Except.bind, h]
    exact ih hbs (Nat.le_of_succ_le_succ hfuel)

end OracleThin.Wire

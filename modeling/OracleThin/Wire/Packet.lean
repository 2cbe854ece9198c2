import OracleThin.Lib.Bytes
import OracleThin.Lib.Fallible

/-!
# TNS packets

The packet codec under every exchange: `encodePacket` writes one packet, `readPacketWithLimits` takes one packet off a
byte stream, and `sendDataPacketWithFlagsAndWidth` cuts a request payload into DATA packets that fit the session data
unit.
-/

namespace OracleThin.Wire

open Lib

/-! ### Errors and limits -/

/-- What the server says about a failed call. -/
structure ServerErrorDetails where
  message : String
  code : Nat
  cursorId : Nat
  pos : Int
  rowCount : Nat
  rowid : Option String
  arrayDmlRowCounts : Option (List Nat)
deriving DecidableEq, Repr

/-- The protocol errors of the packet layer and of the response parsers. -/
inductive ProtocolError
  | invalidPacketLength (length minimum : Nat)
  | packetTooLarge (length : Nat)
  | ttcDecode (message : String)
  | unknownMessageType (messageType : UInt8) (position : Nat)
  | resourceLimit (limit : String) (observed maximum : Nat)
  | serverError (message : String)
  | serverErrorWithRowCount (message : String) (rowCount : Nat)
  | serverErrorInfo (details : ServerErrorDetails)
  | unsupportedFeature (feature : String)
  | osonNotEncoded (reason : String)
  | osonInvalid (reason : String)
  | osonTypeNotSupported (typeName : String)
deriving DecidableEq, Repr

/-- What the functions of the protocol crate return. -/
abbrev Result := Except ProtocolError

/-- The errors of the socket readers: the stream ended, the call was cancelled between two round trips, a packet of an
unexpected type, or a protocol error. -/
inductive Error
  | io
  | cancelled
  | unexpectedPacket (packetType : UInt8)
  | protocol (error : ProtocolError)
deriving DecidableEq, Repr

def mib : Nat := 1024 * 1024

/-- Upper bounds on what the driver accepts from the server. -/
structure ProtocolLimits where
  maxPacketBytes : Nat
  maxFrameBytes : Nat
  maxResponseBytes : Nat
  maxColumns : Nat
  maxBinds : Nat
  maxBatchRows : Nat
  maxObjectDepth : Nat
  maxObjectElements : Nat
  maxVectorDimensions : Nat
  maxLobChunks : Nat
  maxLengthPrefixedElements : Nat
deriving DecidableEq, Repr

namespace ProtocolLimits

def default : ProtocolLimits where
  maxPacketBytes := 16 * mib
  maxFrameBytes := 16 * mib
  maxResponseBytes := 256 * mib
  maxColumns := 4096
  maxBinds := 65535
  maxBatchRows := 1000000
  maxObjectDepth := 256
  maxObjectElements := 1000000
  maxVectorDimensions := 1000000
  maxLobChunks := 1000000
  maxLengthPrefixedElements := 1000000

def check (limit : String) (observed maximum : Nat) : Result Unit :=
  if observed ≤ maximum then .ok () else .error (.resourceLimit limit observed maximum)

def checkPacketBytes (limits : ProtocolLimits) (observed : Nat) : Result Unit :=
  check "packet_bytes" observed limits.maxPacketBytes

def checkFrameBytes (limits : ProtocolLimits) (observed : Nat) : Result Unit :=
  check "frame_bytes" observed limits.maxFrameBytes

def checkResponseBytes (limits : ProtocolLimits) (observed : Nat) : Result Unit :=
  check "response_bytes" observed limits.maxResponseBytes

def checkColumns (limits : ProtocolLimits) (observed : Nat) : Result Unit :=
  check "columns" observed limits.maxColumns

def checkBinds (limits : ProtocolLimits) (observed : Nat) : Result Unit :=
  check "binds" observed limits.maxBinds

def checkBatchRows (limits : ProtocolLimits) (observed : Nat) : Result Unit :=
  check "batch_rows" observed limits.maxBatchRows

def checkObjectElements (limits : ProtocolLimits) (observed : Nat) : Result Unit :=
  check "object_elements" observed limits.maxObjectElements

def checkVectorDimensions (limits : ProtocolLimits) (observed : Nat) : Result Unit :=
  check "vector_dimensions" observed limits.maxVectorDimensions

def checkLobChunks (limits : ProtocolLimits) (observed : Nat) : Result Unit :=
  check "lob_chunks" observed limits.maxLobChunks

def checkLengthPrefixedElements (limits : ProtocolLimits) (observed : Nat) : Result Unit :=
  check "length_prefixed_elements" observed limits.maxLengthPrefixedElements

def namedLimits (limits : ProtocolLimits) : List (String × Nat) :=
  [("packet_bytes", limits.maxPacketBytes), ("frame_bytes", limits.maxFrameBytes),
    ("response_bytes", limits.maxResponseBytes), ("columns", limits.maxColumns), ("binds", limits.maxBinds),
    ("batch_rows", limits.maxBatchRows), ("object_depth", limits.maxObjectDepth),
    ("object_elements", limits.maxObjectElements), ("vector_dimensions", limits.maxVectorDimensions),
    ("lob_chunks", limits.maxLobChunks), ("length_prefixed_elements", limits.maxLengthPrefixedElements)]

def validate (limits : ProtocolLimits) : Result Unit :=
  match limits.namedLimits.find? (·.2 = 0) with
  | some (name, _) => .error (.resourceLimit name 0 1)
  | none =>
    if limits.maxFrameBytes < limits.maxPacketBytes then
      .error (.resourceLimit "packet_bytes" limits.maxPacketBytes limits.maxFrameBytes)
    else if limits.maxResponseBytes < limits.maxFrameBytes then
      .error (.resourceLimit "frame_bytes" limits.maxFrameBytes limits.maxResponseBytes)
    else .ok ()

theorem frame_le_response {limits : ProtocolLimits} (h : limits.validate = .ok ()) :
    limits.maxFrameBytes ≤ limits.maxResponseBytes := by
  unfold validate at h
  split at h
  · cases h
  · split at h
    · cases h
    · split at h
      · cases h
      · rename_i hle
        exact Nat.le_of_not_lt hle

theorem check_eq_ok {limit : String} {observed maximum : Nat} (h : observed ≤ maximum) :
    check limit observed maximum = .ok () :=
  if_pos h

end ProtocolLimits

/-! ### Message types -/

def tnsMsgTypeProtocol : UInt8 := 1
def tnsMsgTypeDataTypes : UInt8 := 2
def tnsMsgTypeError : UInt8 := 4
def tnsMsgTypeRowHeader : UInt8 := 6
def tnsMsgTypeRowData : UInt8 := 7
def tnsMsgTypeParameter : UInt8 := 8
def tnsMsgTypeStatus : UInt8 := 9
def tnsMsgTypeIoVector : UInt8 := 11
def tnsMsgTypeLobData : UInt8 := 14
def tnsMsgTypeDescribeInfo : UInt8 := 16
def tnsMsgTypeFlushOutBinds : UInt8 := 19
def tnsMsgTypeBitVector : UInt8 := 21
def tnsMsgTypeServerSidePiggyback : UInt8 := 23
def tnsMsgTypeImplicitResultset : UInt8 := 27
def tnsMsgTypeEndOfResponse : UInt8 := 29
def tnsMsgTypeToken : UInt8 := 33

/-! ### The packet codec -/

inductive PacketLengthWidth
  | legacy16
  | large32
deriving DecidableEq, Repr

def tnsHeaderLen : Nat := 8
def tnsPacketTypeData : UInt8 := 6
def tnsPacketTypeMarker : UInt8 := 12
def tnsDataFlagsEof : UInt16 := 0x0040
def tnsDataFlagsEndOfResponse : UInt16 := 0x2000
def tnsDataPacketOverhead : Nat := 10

/-- The data flags as they stand in front of the payload of a DATA packet. -/
def dataFlagsBytes : Option UInt16 → List UInt8
  | some flags => toBe 2 flags.toNat
  | none => []

def encodePacket (packetType packetFlags : UInt8) (dataFlags : Option UInt16) (payload : List UInt8)
    (width : PacketLengthWidth) : Result (List UInt8) :=
  let length := tnsHeaderLen + (dataFlagsBytes dataFlags).length + payload.length
  let rest := packetType :: packetFlags :: 0 :: 0 :: (dataFlagsBytes dataFlags ++ payload)
  match width with
  | .legacy16 => if length < 2 ^ 16 then .ok (toBe 2 length ++ toBe 2 0 ++ rest) else .error (.packetTooLarge length)
  | .large32 => if length < 2 ^ 32 then .ok (toBe 4 length ++ rest) else .error (.packetTooLarge length)

structure IncomingPacket where
  packetType : UInt8
  packetFlags : UInt8
  payload : List UInt8
deriving DecidableEq, Repr

/-- Takes `n` bytes off the stream, or fails when the stream ends before. -/
def readExact (n : Nat) (stream : List UInt8) : Except Error (List UInt8 × List UInt8) :=
  if n ≤ stream.length then .ok (stream.take n, stream.drop n) else .error .io

def readPacketWithLimits (width : PacketLengthWidth) (limits : ProtocolLimits) (stream : List UInt8) :
    Except Error (IncomingPacket × List UInt8) :=
  match stream with
  | len0 :: len1 :: len2 :: len3 :: packetType :: packetFlags :: _ :: _ :: stream =>
    let declared := match width with
      | .legacy16 => ofBe [len0, len1]
      | .large32 => ofBe [len0, len1, len2, len3]
    if declared < tnsHeaderLen then .error (.protocol (.invalidPacketLength declared tnsHeaderLen))
    else
      match limits.checkPacketBytes declared with
      | .error e => .error (.protocol e)
      | .ok () =>
        match readExact (declared - tnsHeaderLen) stream with
        | .error e => .error e
        | .ok (payload, stream) => .ok (⟨packetType, packetFlags, payload⟩, stream)
  | _ => .error .io

private theorem readExact_append {xs rest : List UInt8} {n : Nat} (h : xs.length = n) :
    readExact n (xs ++ rest) = .ok (xs, rest) := by
  subst h
  simp [readExact]

/-- A packet the encoder wrote is refused as a whole when it is too long for the limits; otherwise it is read back as
it was, and nothing more is taken off the stream. -/
theorem readPacketWithLimits_encodePacket {packetType packetFlags : UInt8} {dataFlags : Option UInt16}
    {payload packet : List UInt8} (limits : ProtocolLimits) (rest : List UInt8)
    (hpacket : encodePacket packetType packetFlags dataFlags payload .large32 = .ok packet) :
    readPacketWithLimits .large32 limits (packet ++ rest) =
      match limits.checkPacketBytes packet.length with
      | .error e => .error (.protocol e)
      | .ok () => .ok (⟨packetType, packetFlags, dataFlagsBytes dataFlags ++ payload⟩, rest) := by
  simp only [encodePacket] at hpacket
  split at hpacket
  case isFalse => cases hpacket
  case isTrue hlt =>
    generalize hlen : tnsHeaderLen + (dataFlagsBytes dataFlags).length + payload.length = length at *
    cases hpacket
    have hdeclared : ofBe (toBe 4 length) = length := ofBe_toBe_of_lt (by omega)
    simp only [tnsHeaderLen] at hlen
    have hpacketlen :
      (toBe 4 length ++ packetType :: packetFlags :: 0 :: 0 :: (dataFlagsBytes dataFlags ++ payload)).length
        = length := by
      simp only [List.length_append, length_toBe, List.length_cons]
      omega
    rw [hpacketlen]
    simp only [toBe, List.nil_append, List.cons_append] at hdeclared ⊢
    simp only [readPacketWithLimits, hdeclared]
    rw [if_neg (by simp only [tnsHeaderLen]; omega)]
    cases limits.checkPacketBytes length with
    | error e => rfl
    | ok _ =>
      rw [readExact_append (by simp only [List.length_append, tnsHeaderLen]; omega)]

/-! ### Sending -/

/-- One DATA packet before it is encoded. -/
structure DataPiece where
  packetFlags : UInt8
  dataFlags : UInt16
  payload : List UInt8
deriving DecidableEq, Repr

def DataPiece.encode (width : PacketLengthWidth) (piece : DataPiece) : Result (List UInt8) :=
  encodePacket tnsPacketTypeData piece.packetFlags (some piece.dataFlags) piece.payload width

/-- The pieces that the sender makes of a payload: the first flags go on the first packet, the last flags on the
last. -/
def sendPieces (payload : List UInt8) (sdu : Nat) (firstPacketFlags lastPacketFlags : UInt16) : List DataPiece :=
  let maxPayload := max (sdu - tnsDataPacketOverhead) 1
  let pieces := chunks maxPayload payload
  pieces.zipIdx.map fun (chunk, index) =>
    { packetFlags := 0
      dataFlags := (if index = 0 then firstPacketFlags else 0) |||
        (if index + 1 = pieces.length then lastPacketFlags else 0)
      payload := chunk }

/-- The packets that the sender writes, in order. The first piece is the longest, so an error comes before the first
write. -/
def sendDataPacketWithFlagsAndWidth (payload : List UInt8) (sdu : Nat) (firstPacketFlags lastPacketFlags : UInt16)
    (width : PacketLengthWidth) : Result (List (List UInt8)) :=
  (sendPieces payload sdu firstPacketFlags lastPacketFlags).mapM (DataPiece.encode width)

theorem sendDataPacket_ne_nil {payload : List UInt8} {sdu : Nat} {firstPacketFlags lastPacketFlags : UInt16}
    {width : PacketLengthWidth} {packets : List (List UInt8)} (hne : payload ≠ [])
    (h : sendDataPacketWithFlagsAndWidth payload sdu firstPacketFlags lastPacketFlags width = .ok packets) :
    packets ≠ [] := by
  rintro rfl
  have hpieces := List.forall₂_nil_right_iff.1 (forall₂_of_mapM_eq_ok h)
  have hchunks := chunks_ne_nil (max (sdu - tnsDataPacketOverhead) 1) hne
  simp [sendPieces, hchunks] at hpieces

end OracleThin.Wire

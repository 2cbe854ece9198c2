import OracleThin.Lib.Parser
import OracleThin.Wire.Packet

/-!
# Reading TTC fields

The reader of a response payload. Integers come with a length byte, byte strings in a short form, as NULL or as a
sequence of chunks, and `readBytesWithLength` reads a byte string after its length. When that byte string does not
have the announced length, the reader goes back and takes the announced number of raw bytes; so what it reads may
depend on what follows.

A reader that is `plain` refuses the fields that are read in two ways. It is not part of the driver and serves to say
that a response has no such field.
-/

namespace OracleThin.Ttc

open Lib Lib.Parser Wire

/-- What a reader knows besides its input. -/
structure TtcReader where
  limits : ProtocolLimits
  plain : Bool := false
deriving DecidableEq, Repr

abbrev Read := Parser UInt8 ProtocolError

/-- A reader of a whole payload. -/
def TtcReader.withLimits (payload : List UInt8) (limits : ProtocolLimits) : Result TtcReader := do
  limits.validate
  limits.checkFrameBytes payload.length
  limits.checkResponseBytes payload.length
  return { limits }

theorem TtcReader.withLimits_eq_ok_iff {payload : List UInt8} {limits : ProtocolLimits} {reader : TtcReader} :
    TtcReader.withLimits payload limits = .ok reader ↔
      limits.validate = .ok () ∧ payload.length ≤ limits.maxFrameBytes ∧ payload.length ≤ limits.maxResponseBytes ∧
        reader = { limits } := by
  unfold TtcReader.withLimits ProtocolLimits.checkFrameBytes ProtocolLimits.checkResponseBytes
  cases limits.validate with
  | error e => simp [bind, Except.bind]
  | ok _ =>
    by_cases hframe : payload.length ≤ limits.maxFrameBytes
    · by_cases hresponse : payload.length ≤ limits.maxResponseBytes
      · simp [bind, Except.bind, pure, Except.pure, ProtocolLimits.check, hframe, hresponse, eq_comm]
      · simp [bind, Except.bind, ProtocolLimits.check, hframe, hresponse]
    · simp [bind, Except.bind, ProtocolLimits.check, hframe]

/-- The reader as the driver has it. -/
abbrev TtcReader.driver (reader : TtcReader) : TtcReader := { reader with plain := false }

/-- The error asks for more input. -/
def IsDecode (e : ProtocolError) : Prop := ∃ message, e = .ttcDecode message

instance : DecidablePred IsDecode := fun e => by
  cases e with
  | ttcDecode message => exact isTrue ⟨message, rfl⟩
  | _ => exact isFalse nofun

def tnsLongLengthIndicator : UInt8 := 0xfe
def tnsNullLengthIndicator : UInt8 := 0xff

/-! ### Integers -/

def readU8 : Read UInt8 := Parser.item (.ttcDecode "missing u8")

/-- Two's complement of the given width. -/
def wrapInt (bits : Nat) (n : Int) : Int := n.bmod (2 ^ bits)

def readI8 : Read Int := do
  let byte ← readU8
  return wrapInt 8 byte.toNat

namespace TtcReader

variable (reader : TtcReader)

def readRaw (len : Nat) : Read (List UInt8) := do
  reader.limits.checkResponseBytes len
  Parser.take (.ttcDecode "truncated TTC payload") len

def skip (len : Nat) : Read Unit := do
  let _ ← reader.readRaw len

def readU16be : Read Nat := do
  let bytes ← reader.readRaw 2
  return ofBe bytes

def readU16le : Read Nat := do
  let bytes ← reader.readRaw 2
  return ofBe bytes.reverse

def readUb2 : Read Nat := do
  let len ← readU8
  if len = 0 then return 0
  else if len = 1 then do
    let byte ← readU8
    return byte.toNat
  else if len = 2 then reader.readU16be
  else throw (.ttcDecode "invalid ub2 length")

/-- An unsigned integer with a length byte of at most `size`. -/
def readUnsigned (size : Nat) (message : String) : Read Nat := do
  let len ← readU8
  if len = 0 then return 0
  else if size < len.toNat then throw (.ttcDecode message)
  else do
    let bytes ← reader.readRaw len.toNat
    return ofBe bytes

def readUb4 : Read Nat := reader.readUnsigned 4 "invalid ub4 length"

def readUb8 : Read Nat := reader.readUnsigned 8 "invalid ub8 length"

/-- A signed integer; the high bit of the length byte is the sign. -/
def readSigned (size : Nat) (message : String) : Read Int := do
  let byte ← readU8
  let len := byte.toNat % 0x80
  if len = 0 then return 0
  else if size < len then throw (.ttcDecode message)
  else do
    let bytes ← reader.readRaw len
    let value := wrapInt (8 * size) (ofBe bytes)
    return if 0x80 ≤ byte.toNat then wrapInt (8 * size) (-value) else value

def readSb4 : Read Int := reader.readSigned 4 "invalid sb4 length"

def readSb8 : Read Int := reader.readSigned 8 "invalid sb8 length"

/-! ### Byte strings -/

/-- The number of chunks and bytes of a byte string so far. -/
structure Chunks where
  count : Nat := 0
  total : Nat := 0

/-- The header of the next chunk: its length, checked against the limits, or 0 at the end. -/
def nextChunk (chunks : Chunks) : Read (Nat × Chunks) := do
  let len ← reader.readUb4
  if len = 0 then return (0, chunks)
  else do
    reader.limits.checkLobChunks (chunks.count + 1)
    reader.limits.checkResponseBytes (chunks.total + len)
    return (len, ⟨chunks.count + 1, chunks.total + len⟩)

/-- One round of the loop over the chunks. -/
def chunkRound : List UInt8 × Chunks → Read (List UInt8 × Chunks ⊕ List UInt8) := fun (out, chunks) => do
  let (len, chunks) ← reader.nextChunk chunks
  if len = 0 then return .inr out
  else do
    let chunk ← reader.readRaw len
    return .inl (out ++ chunk, chunks)

def readChunks : Read (List UInt8) :=
  Parser.iterate reader.chunkRound (.ttcDecode "truncated TTC payload") ([], {})

def skipChunks : Read Unit :=
  Parser.iterate (fun chunks => do
    let (len, chunks) ← reader.nextChunk chunks
    if len = 0 then return .inr ()
    else do
      reader.skip len
      return .inl chunks) (.ttcDecode "truncated TTC payload") ({} : Chunks)

def readBytes : Read (Option (List UInt8)) := do
  let len ← readU8
  if len = tnsLongLengthIndicator then do
    let bytes ← reader.readChunks
    return some bytes
  else if len = 0 ∨ len = tnsNullLengthIndicator then return none
  else do
    reader.limits.checkResponseBytes len.toNat
    let bytes ← reader.readRaw len.toNat
    return some bytes

/-- A byte string of the zero-copy path: borrowed from the buffer, or put together from chunks. -/
inductive BorrowedBytes
  | null
  | slice (bytes : List UInt8)
  | chunked (bytes : List UInt8)
deriving DecidableEq, Repr

/-- The source has a second copy of the loop over the chunks here, with the same checks in the same order. -/
def readBytesBorrowed : Read BorrowedBytes := do
  let len ← readU8
  if len = tnsLongLengthIndicator then do
    let bytes ← reader.readChunks
    return .chunked bytes
  else if len = 0 ∨ len = tnsNullLengthIndicator then return .null
  else do
    reader.limits.checkResponseBytes len.toNat
    let bytes ← reader.readRaw len.toNat
    return .slice bytes

def skipBytesField : Read Unit := do
  let len ← readU8
  if len = tnsLongLengthIndicator then reader.skipChunks
  else if len = 0 ∨ len = tnsNullLengthIndicator then return ()
  else do
    reader.limits.checkResponseBytes len.toNat
    reader.skip len.toNat

/-- A byte string of the announced length, or that many raw bytes. -/
def readAnnounced (len : Nat) : Read (Option (List UInt8)) := fun input =>
  match reader.readBytes input with
  | .ok (some bytes, rest) =>
    if bytes.length = len then
      -- The driver refuses nothing here.
      if reader.plain = true ∧ input.head? = some tnsLongLengthIndicator then
        .error (.unsupportedFeature "chunked field after its length")
      else .ok (some bytes, rest)
    else (some <$> reader.readRaw len) input
  | _ => (some <$> reader.readRaw len) input

def readBytesWithLength : Read (Option (List UInt8)) := do
  let len ← reader.readUb4
  reader.limits.checkResponseBytes len
  if len = 0 then return none
  else reader.readAnnounced len

/-- The text of a byte string in UTF-8. -/
def decodeUtf8 (bytes : Option (List UInt8)) : Result (Option String) :=
  match bytes with
  | none => .ok none
  | some bytes =>
    match String.fromUTF8? (ByteArray.mk bytes.toArray) with
    | some text => .ok (some text)
    | none => .error (.ttcDecode "server sent non-UTF8 string")

def readStringWithLength : Read (Option String) := do
  let bytes ← reader.readBytesWithLength
  decodeUtf8 bytes

end TtcReader

end OracleThin.Ttc

import OracleThin.Cursor.Cache
import OracleThin.Image.Oson
import OracleThin.Ttc.Describe
import OracleThin.Ttc.Writer

/-!
# Bind values

The value of a bind, what is known of its type before it is sent, and its form on the wire. An untyped NULL has no
type of its own.
-/

namespace OracleThin.Bind

open Lib Wire Ttc Image

/-! ### Bind values and their types -/

inductive BindValue
  | null
  | typedNull (oraTypeNum csfrm : UInt8) (bufferSize : Nat)
  | output (oraTypeNum csfrm : UInt8) (bufferSize : Nat)
  | returnOutput (oraTypeNum csfrm : UInt8) (bufferSize : Nat)
  | inOut (value : BindValue) (outBufferSize : Nat)
  | objectOutput (oid : List UInt8) (version bufferSize : Nat)
  | objectInput (oid : List UInt8) (version : Nat) (image : List UInt8) (bufferSize : Nat)
  | text (value : String)
  | raw (value : List UInt8)
  | lob (oraTypeNum csfrm : UInt8) (locator : List UInt8)
  | number (value : String)
  | binaryInteger (value : String)
  | binaryDouble (bits : UInt64)
  | binaryFloat (bits : UInt64)
  | boolean (value : Bool)
  | intervalDS (days seconds microseconds : Int)
  | intervalYM (years months : Int)
  | dateTime (time : CivilTime)
  | timestamp (oraTypeNum : UInt8) (time : CivilTime)
  | timestampTz (time : CivilTime) (offsetMinutes : Int)
  | array (oraTypeNum csfrm : UInt8) (bufferSize maxElements : Nat) (values : List (Option BindValue))
  | vector (value : Vector)
  | json (image : List UInt8)
  | cursor (cursorId : Nat)

structure BindTypeInfo where
  oraTypeNum : UInt8
  csfrm : UInt8
  bufferSize : Nat
deriving DecidableEq, Repr

def u32Max : Nat := 2 ^ 32 - 1

def oraTypeSizeBinaryDouble : Nat := 8
def oraTypeSizeBinaryFloat : Nat := 4
def oraTypeSizeBoolean : Nat := 4
def oraTypeSizeNumber : Nat := 22
def oraTypeSizeIntervalYm : Nat := 5

def tnsVectorMaxLength : Nat := 1024 * 1024
def tnsJsonMaxLength : Nat := 32 * 1024 * 1024

namespace BindValue

def isOutputOnly : BindValue → Bool
  | .output .. | .returnOutput .. | .objectOutput .. => true
  | .array _ _ _ _ values => values.isEmpty
  | _ => false

end BindValue

/-- The type, character form and size of a value; an untyped NULL has none. -/
def bindValueTypeInfo : BindValue → Option BindTypeInfo
  | .null => none
  | .inOut value outBufferSize =>
    let (oraTypeNum, csfrm, inputSize) := match bindValueTypeInfo value with
      | some info => (info.oraTypeNum, info.csfrm, info.bufferSize)
      | none => (oraTypeNumVarchar, csFormImplicit, 0)
    some ⟨oraTypeNum, csfrm, max (max inputSize outBufferSize) 1⟩
  | .typedNull oraTypeNum csfrm bufferSize | .output oraTypeNum csfrm bufferSize
  | .returnOutput oraTypeNum csfrm bufferSize => some ⟨oraTypeNum, csfrm, max bufferSize 1⟩
  | .objectOutput _ _ bufferSize | .objectInput _ _ _ bufferSize => some ⟨oraTypeNumObject, 0, max bufferSize 1⟩
  | .text value =>
    some ⟨oraTypeNumVarchar, csFormImplicit, max (min (min value.length u32Max * 4) u32Max) 1⟩
  | .raw value => some ⟨oraTypeNumRaw, 0, max (min value.length u32Max) 1⟩
  | .lob oraTypeNum csfrm _ => some ⟨oraTypeNum, csfrm, 1⟩
  | .number _ => some ⟨oraTypeNumNumber, 0, oraTypeSizeNumber⟩
  | .binaryInteger _ => some ⟨oraTypeNumBinaryInteger, 0, oraTypeSizeNumber⟩
  | .boolean _ => some ⟨oraTypeNumBoolean, 0, oraTypeSizeBoolean⟩
  | .binaryDouble _ => some ⟨oraTypeNumBinaryDouble, 0, oraTypeSizeBinaryDouble⟩
  | .binaryFloat _ => some ⟨oraTypeNumBinaryFloat, 0, oraTypeSizeBinaryFloat⟩
  | .intervalDS .. => some ⟨oraTypeNumIntervalDs, 0, oraTypeSizeIntervalDs⟩
  | .intervalYM .. => some ⟨oraTypeNumIntervalYm, 0, oraTypeSizeIntervalYm⟩
  | .dateTime _ => some ⟨oraTypeNumDate, 0, oraTypeSizeDate⟩
  | .timestamp oraTypeNum _ => some ⟨oraTypeNum, 0,
    if oraTypeNum = oraTypeNumTimestampTz then oraTypeSizeTimestampTz else oraTypeSizeTimestamp⟩
  | .timestampTz .. => some ⟨oraTypeNumTimestampTz, 0, oraTypeSizeTimestampTz⟩
  | .array oraTypeNum csfrm bufferSize _ _ => some ⟨oraTypeNum, csfrm, max bufferSize 1⟩
  | .vector _ => some ⟨oraTypeNumVector, 0, tnsVectorMaxLength⟩
  | .json _ => some ⟨oraTypeNumJson, 0, 1⟩
  | .cursor _ => some ⟨oraTypeNumCursor, 0, 4⟩

/-- What an untyped NULL is declared as. -/
def untypedMetadata : BindTypeInfo := ⟨oraTypeNumVarchar, csFormImplicit, 1⟩

def bindMetadata (value : BindValue) : BindTypeInfo := (bindValueTypeInfo value).getD untypedMetadata

/-- Only an untyped NULL has no type. -/
theorem bindValueTypeInfo_eq_none_iff {value : BindValue} : bindValueTypeInfo value = none ↔ value = .null := by
  cases value <;> simp [bindValueTypeInfo]

theorem one_le_bufferSize {value : BindValue} {info : BindTypeInfo} (h : bindValueTypeInfo value = some info) :
    1 ≤ info.bufferSize := by
  cases value with
  | null => cases h
  | timestamp oraTypeNum time =>
    cases h
    dsimp only
    split <;> decide
  | typedNull _ _ _ | output _ _ _ | returnOutput _ _ _ | inOut _ _ | objectOutput _ _ _ | objectInput _ _ _ _
  | text _
  | raw _ | lob _ _ _ | number _ | binaryInteger _ | binaryDouble _ | binaryFloat _ | boolean _ | intervalDS _ _ _
  | intervalYM _ _ | dateTime _ | timestampTz _ _ | array _ _ _ _ _ | vector _ | json _ | cursor _ =>
    cases h
    first | exact le_max_right _ _ | exact Nat.le_of_ble_eq_true rfl

/-! ### Bytes with their length -/

def tnsMaxShortLength : Nat := 252
def tnsEscapeChar : UInt8 := 253
def tnsObjTopLevel : Nat := 1
def tnsObjNonNullOid : UInt8 := 0x02
def tnsObjHasExtentOid : UInt8 := 0x08
def tnsExtentOid : List UInt8 := [0, 0, 0, 0, 0, 0, 0, 0, 0, 0, 0, 0, 0, 0, 1, 1]

/-- The pieces of at most 32767 bytes that a long value is sent in. -/
def writeChunks (value : List UInt8) : List UInt8 :=
  (value.toChunks 32767).flatMap fun chunk => writeUb4 chunk.length ++ chunk

def writeBytesWithLength (value : List UInt8) : List UInt8 :=
  if value.length ≤ tnsMaxShortLength then UInt8.ofNat value.length :: value
  else tnsLongLengthIndicator :: writeChunks value ++ writeUb4 0

/-- A length that fits 32 bits. -/
def writeLength (length : Nat) : Result (List UInt8) :=
  if length ≤ u32Max then .ok (writeUb4 length) else .error (.invalidPacketLength length 0)

def writeBytesWithTwoLengths (value : List UInt8) : Result (List UInt8) := do
  let length ← writeLength value.length
  return length ++ if value = [] then [] else writeBytesWithLength value

def writeQlocator (dataLength : Nat) (writeLength : Bool) : List UInt8 :=
  writeUb4 40 ++ (if writeLength then [40] else []) ++ toBe 2 38 ++ toBe 2 4 ++ [0x20 ||| 0x01 ||| 0x40, 0x08] ++
    toBe 2 0 ++ toBe 2 1 ++ toBe 8 dataLength ++ toBe 2 0 ++ toBe 2 0 ++ toBe 2 0 ++ toBe 8 0 ++ toBe 8 0

def writeVectorImage (image : List UInt8) : List UInt8 :=
  writeQlocator image.length true ++ writeBytesWithLength image

def writeDbobjectBind (oid image : List UInt8) : Result (List UInt8) := do
  let toid ← writeBytesWithTwoLengths ([0x00, 0x22, tnsObjNonNullOid, tnsObjHasExtentOid] ++ oid ++ tnsExtentOid)
  let oid ← writeBytesWithTwoLengths oid
  let length ← writeLength image.length
  return toid ++ oid ++ writeUb4 0 ++ writeUb4 0 ++ length ++ writeUb4 tnsObjTopLevel ++ writeBytesWithLength image

/-! ### Scalars -/

/-- The UTF-16 units of a text. -/
def encodeUtf16 (text : String) : List Nat :=
  text.toList.flatMap fun char =>
    let code := char.toNat
    if code < 0x10000 then [code] else [0xd800 + (code - 0x10000) / 0x400, 0xdc00 + (code - 0x10000) % 0x400]

def encodeTextValue (value : String) (csfrm : UInt8) : List UInt8 :=
  if csfrm = csFormNchar then (encodeUtf16 value).flatMap (toBe 2) else textBytes value

def encodeOracleTimestampTzWithOffset (time : CivilTime) (offsetMinutes : Int) : Result (List UInt8) := do
  if 999999999 < time.nanosecond then throw (.ttcDecode "invalid TIMESTAMP WITH TIME ZONE fraction")
  if ¬validTzOffsetMinutes offsetMinutes then throw (.ttcDecode "invalid TIMESTAMP WITH TIME ZONE offset")
  let hour ← toU8 (offsetMinutes.tdiv 60 + tzHourOffset) "invalid TIMESTAMP WITH TIME ZONE offset hour"
  let minute ← toU8 (offsetMinutes.tmod 60 + tzMinuteOffset) "invalid TIMESTAMP WITH TIME ZONE offset minute"
  let date ← encodeOracleDate time
  return date ++ toBe 4 time.nanosecond ++ [hour, minute]

def encodeOracleTimestampTz (time : CivilTime) : Result (List UInt8) :=
  encodeOracleTimestampTzWithOffset time 0

def encodeIntervalYm (years months : Int) : Result (List UInt8) := do
  let wireYears ← toDuration years "INTERVAL YM years out of range"
  let month ← toU8 (months + tnsDurationOffset) "INTERVAL YM months out of range"
  return wireYears ++ [month]

/-- Microseconds in nanoseconds, if they fit 32 bits. -/
def toNanoseconds (microseconds : Int) : Result Int :=
  toI32 (microseconds * 1000) "INTERVAL DS fractional seconds out of range"

/-! ### Values on the wire -/

section

variable (asF32 : UInt64 → UInt32)

mutual

/-- The bytes of a value in a column of the given character form; `asF32` narrows a double to a single. -/
def writeBindValue : BindValue → UInt8 → Result (List UInt8)
  | .typedNull oraTypeNum _ _, _ =>
    if oraTypeNum = oraTypeNumCursor then return [1, 0]
    else if oraTypeNum = oraTypeNumBoolean then return [tnsEscapeChar, 1]
    else return [0]
  | .null, _ | .output .., _ | .returnOutput .., _ => return [0]
  | .inOut value _, csfrm => writeBindValue value csfrm
  | .objectOutput .., _ =>
    return writeUb4 0 ++ writeUb4 0 ++ writeUb4 0 ++ writeUb2 0 ++ writeUb4 0 ++ writeUb4 tnsObjTopLevel
  | .objectInput oid _ image _, _ => writeDbobjectBind oid image
  | .text value, csfrm => return writeBytesWithLength (encodeTextValue value csfrm)
  | .raw value, _ => return writeBytesWithLength value
  | .lob _ _ locator, _ => writeBytesWithTwoLengths locator
  | .number value, _ | .binaryInteger value, _ => do
    let bytes ← encodeNumberText (textBytes value)
    return writeBytesWithLength bytes
  | .boolean value, _ => return writeBytesWithLength (if value then [1, 1] else [0])
  | .binaryDouble bits, _ => return writeBytesWithLength (encodeBinaryDouble bits)
  | .binaryFloat bits, _ => return writeBytesWithLength (encodeBinaryFloat (asF32 bits))
  | .intervalDS days seconds microseconds, _ => do
    let nanoseconds ← toNanoseconds microseconds
    let bytes ← encodeIntervalDs days seconds nanoseconds
    return writeBytesWithLength bytes
  | .intervalYM years months, _ => do
    let bytes ← encodeIntervalYm years months
    return writeBytesWithLength bytes
  | .dateTime time, _ => do
    let bytes ← encodeOracleDate time
    return writeBytesWithLength bytes
  | .timestamp oraTypeNum time, _ => do
    let bytes ←
      if oraTypeNum = oraTypeNumTimestampTz then encodeOracleTimestampTz time else encodeOracleTimestamp time
    return writeBytesWithLength bytes
  | .timestampTz time offsetMinutes, _ => do
    let bytes ← encodeOracleTimestampTzWithOffset time offsetMinutes
    return writeBytesWithLength bytes
  | .array _ csfrm _ _ values, _ => do
    let length ← writeLength values.length
    let elements ← writeElements values csfrm
    return length ++ elements
  | .vector value, _ => do
    let image ← encodeVectorChecked value
    return writeVectorImage image
  | .json image, _ => return writeVectorImage image
  | .cursor cursorId, _ => return if cursorId = 0 then [1, 0] else writeUb4 1 ++ writeUb4 cursorId

def writeElements : List (Option BindValue) → UInt8 → Result (List UInt8)
  | [], _ => return []
  | element :: values, csfrm => do
    let bytes ← writeElement element csfrm
    let later ← writeElements values csfrm
    return bytes ++ later

def writeElement : Option BindValue → UInt8 → Result (List UInt8)
  | some value, csfrm => writeBindValue value csfrm
  | none, _ => return [0]

end

end

end OracleThin.Bind

import OracleThin.Image.Vector
import OracleThin.Lib.Seek
import OracleThin.Ttc.NumberText
import OracleThin.Ttc.Value

/-!
# OSON images

OSON is the binary form of JSON. An image of a container has a header, the names of all fields (those of at most 255
bytes and the longer ones in two segments, each sorted by a hash), and the tree, in which a container holds the ids of
its fields and the positions of its children. The image of a scalar has only the node.
-/

namespace OracleThin.Image

open Lib Wire Ttc

/-! ### Values -/

/-- A JSON value with the scalar types of OSON. Floating-point numbers are given by their bits, and an object keeps
the order of its members. -/
inductive OsonValue
  | null
  | bool (value : Bool)
  | number (text : String)
  | binaryFloat (bits : UInt32)
  | binaryDouble (bits : UInt64)
  | string (text : String)
  | raw (bytes : List UInt8)
  | dateTime (time : CivilTime)
  | intervalDS (days hours minutes seconds fseconds : Int)
  | vector (value : Vector)
  | array (values : List OsonValue)
  | object (entries : List (String × OsonValue))
deriving Repr

def tnsJsonMagicBytes : List UInt8 := [0xff, 0x4a, 0x5a]
def tnsJsonVersionMaxFname255 : UInt8 := 1
def tnsJsonVersionMaxFname65535 : UInt8 := 3

def tnsJsonFlagHashIdUint8 : UInt16 := 0x0100
def tnsJsonFlagNumFnamesUint16 : UInt16 := 0x0400
def tnsJsonFlagFnamesSegUint32 : UInt16 := 0x0800
def tnsJsonFlagTinyNodesStat : UInt16 := 0x2000
def tnsJsonFlagTreeSegUint32 : UInt16 := 0x1000
def tnsJsonFlagRelOffsetMode : UInt16 := 0x01
def tnsJsonFlagInlineLeaf : UInt16 := 0x02
def tnsJsonFlagNumFnamesUint32 : UInt16 := 0x08
def tnsJsonFlagIsScalar : UInt16 := 0x10

def tnsJsonFlagSecFnamesSegUint16 : UInt16 := 0x0100

def tnsJsonTypeNull : UInt8 := 0x30
def tnsJsonTypeTrue : UInt8 := 0x31
def tnsJsonTypeFalse : UInt8 := 0x32
def tnsJsonTypeStringLengthUint8 : UInt8 := 0x33
def tnsJsonTypeNumberLengthUint8 : UInt8 := 0x34
def tnsJsonTypeBinaryDouble : UInt8 := 0x36
def tnsJsonTypeStringLengthUint16 : UInt8 := 0x37
def tnsJsonTypeStringLengthUint32 : UInt8 := 0x38
def tnsJsonTypeTimestamp : UInt8 := 0x39
def tnsJsonTypeBinaryLengthUint16 : UInt8 := 0x3a
def tnsJsonTypeBinaryLengthUint32 : UInt8 := 0x3b
def tnsJsonTypeDate : UInt8 := 0x3c
def tnsJsonTypeIntervalYm : UInt8 := 0x3d
def tnsJsonTypeIntervalDs : UInt8 := 0x3e
def tnsJsonTypeTimestampTz : UInt8 := 0x7c
def tnsJsonTypeTimestamp7 : UInt8 := 0x7d
def tnsJsonTypeId : UInt8 := 0x7e
def tnsJsonTypeBinaryFloat : UInt8 := 0x7f
def tnsJsonTypeObject : UInt8 := 0x84
def tnsJsonTypeArray : UInt8 := 0xc0
def tnsJsonTypeExtended : UInt8 := 0x7b
def tnsJsonTypeVector : UInt8 := 0x01

def oraTypeSizeDate : Nat := 7
def oraTypeSizeTimestamp : Nat := 11
def oraTypeSizeTimestampTz : Nat := 13
def oraTypeSizeIntervalDs : Nat := 11

def maxFnameSizeShort : Nat := 255
def maxFnameSizeLong : Nat := 65535

/-! ### Dates with a time zone -/

def daysFromCivil (year : Int) (month day : UInt8) : Result Int :=
  if month < 1 ∨ 12 < month ∨ day < 1 ∨ 31 < day then .error (.ttcDecode "invalid TIMESTAMP date")
  else
    let year := year - if month ≤ 2 then 1 else 0
    let era := (if 0 ≤ year then year else year - 399).tdiv 400
    let yearOfEra := year - era * 400
    let monthPrime : Int := month.toNat + if 2 < month then -3 else 9
    let dayOfYear := (153 * monthPrime + 2).tdiv 5 + day.toNat - 1
    let dayOfEra := yearOfEra * 365 + yearOfEra.tdiv 4 - yearOfEra.tdiv 100 + dayOfYear
    .ok (era * 146097 + dayOfEra - 719468)

def toU8 (value : Int) (message : String) : Result UInt8 :=
  if 0 ≤ value ∧ value < 256 then .ok (UInt8.ofNat value.toNat) else .error (.ttcDecode message)

/-- The year, the month and the day, before `civilFromDays` narrows them. -/
def civilOf (days : Int) : Int × Int × Int :=
  let days := days + 719468
  let era := (if 0 ≤ days then days else days - 146096).tdiv 146097
  let dayOfEra := days - era * 146097
  let yearOfEra := (dayOfEra - dayOfEra.tdiv 1460 + dayOfEra.tdiv 36524 - dayOfEra.tdiv 146096).tdiv 365
  let year := yearOfEra + era * 400
  let dayOfYear := dayOfEra - (365 * yearOfEra + yearOfEra.tdiv 4 - yearOfEra.tdiv 100)
  let monthPrime := (5 * dayOfYear + 2).tdiv 153
  let day := dayOfYear - (153 * monthPrime + 2).tdiv 5 + 1
  let month := monthPrime + if monthPrime < 10 then 3 else -9
  (year + if month ≤ 2 then 1 else 0, month, day)

def civilFromDays (days : Int) : Result (Int × UInt8 × UInt8) := do
  let (year, month, day) := civilOf days
  let year ← toI32 year "invalid adjusted TIMESTAMP year"
  let month ← toU8 month "invalid adjusted TIMESTAMP month"
  let day ← toU8 day "invalid adjusted TIMESTAMP day"
  return (year, month, day)

def adjustDatetimeByMinutes (time : CivilTime) (offsetMinutes : Int) : Result CivilTime := do
  let days ← daysFromCivil time.year time.month time.day
  let secondsOfDay : Int := time.hour.toNat * 3600 + time.minute.toNat * 60 + time.second.toNat
  let totalSeconds := days * 86400 + secondsOfDay + offsetMinutes * 60
  let adjustedSeconds := totalSeconds % 86400
  let (year, month, day) ← civilFromDays (totalSeconds / 86400)
  let hour ← toU8 (adjustedSeconds / 3600) "invalid adjusted TIMESTAMP hour"
  let minute ← toU8 (adjustedSeconds % 3600 / 60) "invalid adjusted TIMESTAMP minute"
  let second ← toU8 (adjustedSeconds % 60) "invalid adjusted TIMESTAMP second"
  return ⟨year, month, day, hour, minute, second, time.nanosecond⟩

/-! ### The reader -/

/-- The image and the limits of the reader. -/
structure OsonReader where
  data : List UInt8
  limits : ProtocolLimits

abbrev OsonRead (α : Type) := Seek ProtocolError α

namespace OsonReader

variable (reader : OsonReader)

def readRaw (len : Nat) : OsonRead (List UInt8) := do
  liftM (reader.limits.checkResponseBytes len)
  let pos ← get
  if reader.data.length < pos + len then throw (.osonInvalid "read past end of OSON image")
  set (pos + len)
  return (reader.data.drop pos).take len

/-- A big-endian number of the given width. -/
def readUint (width : Nat) : OsonRead Nat := do
  let raw ← reader.readRaw width
  return ofBe raw

def readU8 : OsonRead UInt8 := do
  let raw ← reader.readRaw 1
  return raw.headD 0

def readU16be : OsonRead Nat := reader.readUint 2

def readU32be : OsonRead Nat := reader.readUint 4

def skip (len : Nat) : OsonRead Unit := do
  let _ ← reader.readRaw len

def seekTo (pos : Nat) : OsonRead Unit := do
  if reader.data.length < pos then throw (.osonInvalid "seek past end of OSON image")
  set pos

end OsonReader

/-! ### Scalars -/

def decodeUtf8 (bytes : List UInt8) (reason : String) : Result String :=
  match String.fromUTF8? (ByteArray.mk bytes.toArray) with
  | some text => .ok text
  | none => .error (.osonInvalid reason)

def decodeString (bytes : List UInt8) : Result OsonValue := do
  let text ← decodeUtf8 bytes "string is not valid UTF-8"
  return .string text

def decodeNumber (bytes : List UInt8) : Result OsonValue := do
  let number ← OracleNumber.fromWire bytes
  return .number number.fmtInto

def decodeDatetime (bytes : List UInt8) : Result OsonValue := do
  let value : QueryValue OsonValue Vector ← decodeDatetimeValue bytes
  match value with
  | .dateTime time => return .dateTime time
  | .timestampTz time offsetMinutes =>
    let time ← adjustDatetimeByMinutes time offsetMinutes
    return .dateTime time
  | .timestampTzRegion .. =>
    throw (.unsupportedFeature "named-region OSON timestamp requires explicit local-time projection")
  | _ => throw (.osonInvalid "datetime decode mismatch")

def decodeInterval (bytes : List UInt8) : Result OsonValue := do
  let value : QueryValue OsonValue Vector ← decodeIntervalDs bytes
  match value with
  | .intervalDS days hours minutes seconds fseconds => return .intervalDS days hours minutes seconds fseconds
  | _ => throw (.osonInvalid "INTERVAL DS decode mismatch")

def decodeEmbeddedVector (limits : ProtocolLimits) (bytes : List UInt8) : Result OsonValue :=
  match decodeVectorWithLimits bytes limits with
  | .ok vector => .ok (.vector vector)
  | .error _ => .error (.osonInvalid "invalid embedded VECTOR")

section

variable (reader : OsonReader)

/-- The next bytes, decoded. -/
def decodeRaw (len : Nat) (decode : List UInt8 → Result OsonValue) : OsonRead OsonValue := do
  let raw ← reader.readRaw len
  liftM (decode raw)

/-- A scalar whose length stands in front of it. -/
def decodeSized (width : Nat) (decode : List UInt8 → Result OsonValue) : OsonRead OsonValue := do
  let len ← reader.readUint width
  decodeRaw reader len decode

/-- A scalar with its length in the type of the node. -/
def decodeNodeTypeWithInlineLength (nodeType : UInt8) : OsonRead OsonValue :=
  if nodeType &&& 0xf0 = 0x20 ∨ nodeType &&& 0xf0 = 0x60 then
    decodeRaw reader ((nodeType &&& 0x0f).toNat + 1) decodeNumber
  else if nodeType &&& 0xf0 = 0x40 ∨ nodeType &&& 0xf0 = 0x50 then
    decodeRaw reader (nodeType &&& 0x0f).toNat decodeNumber
  else if nodeType &&& 0xe0 = 0 then
    if nodeType = 0 then return .string "" else decodeRaw reader nodeType.toNat decodeString
  else throw (.osonInvalid "unsupported OSON node type")

def decodeExtended : OsonRead OsonValue := do
  let extendedType ← reader.readU8
  if extendedType = tnsJsonTypeVector then
    let len ← reader.readU32be
    liftM (reader.limits.checkResponseBytes len)
    decodeRaw reader len (decodeEmbeddedVector reader.limits)
  else throw (.osonTypeNotSupported "JSON extended type")

def decodeScalarWithNodeType (nodeType : UInt8) : OsonRead OsonValue :=
  if nodeType = tnsJsonTypeNull then return .null
  else if nodeType = tnsJsonTypeTrue then return .bool true
  else if nodeType = tnsJsonTypeFalse then return .bool false
  else if nodeType = tnsJsonTypeDate ∨ nodeType = tnsJsonTypeTimestamp7 then
    decodeRaw reader oraTypeSizeDate decodeDatetime
  else if nodeType = tnsJsonTypeTimestamp then decodeRaw reader oraTypeSizeTimestamp decodeDatetime
  else if nodeType = tnsJsonTypeTimestampTz then decodeRaw reader oraTypeSizeTimestampTz decodeDatetime
  else if nodeType = tnsJsonTypeBinaryFloat then
    decodeRaw reader 4 fun raw => .ok (.binaryFloat (decodeBinaryFloat raw))
  else if nodeType = tnsJsonTypeBinaryDouble then
    decodeRaw reader 8 fun raw => .ok (.binaryDouble (decodeBinaryDouble raw))
  else if nodeType = tnsJsonTypeIntervalDs then decodeRaw reader oraTypeSizeIntervalDs decodeInterval
  else if nodeType = tnsJsonTypeIntervalYm then throw (.osonTypeNotSupported "DB_TYPE_INTERVAL_YM")
  else if nodeType = tnsJsonTypeStringLengthUint8 then decodeSized reader 1 decodeString
  else if nodeType = tnsJsonTypeStringLengthUint16 then decodeSized reader 2 decodeString
  else if nodeType = tnsJsonTypeStringLengthUint32 then decodeSized reader 4 decodeString
  else if nodeType = tnsJsonTypeNumberLengthUint8 then decodeSized reader 1 decodeNumber
  else if nodeType = tnsJsonTypeId then decodeSized reader 1 fun raw => .ok (.raw raw)
  else if nodeType = tnsJsonTypeBinaryLengthUint16 then decodeSized reader 2 fun raw => .ok (.raw raw)
  else if nodeType = tnsJsonTypeBinaryLengthUint32 then decodeSized reader 4 fun raw => .ok (.raw raw)
  else if nodeType = tnsJsonTypeExtended then decodeExtended reader
  else decodeNodeTypeWithInlineLength reader nodeType

end

/-! ### Containers -/

/-- What the decoder knows of the image when it reads the tree. -/
structure OsonDecoder where
  reader : OsonReader
  fieldNames : List String
  fieldIdLength : Nat
  treeSegPos : Nat
  relativeOffsets : Bool

namespace OsonDecoder

variable (decoder : OsonDecoder)

/-- The number of children, and whether the field ids are those of another container. -/
def getNumChildren (nodeType : UInt8) : OsonRead (Nat × Bool) :=
  let childrenBits := nodeType &&& 0x18
  if childrenBits = 0x18 then return (0, true)
  else do
    let num ← decoder.reader.readUint (if childrenBits = 0 then 1 else if childrenBits = 0x08 then 2 else 4)
    return (num, false)

def getOffset (nodeType : UInt8) : OsonRead Nat :=
  if nodeType &&& 0x20 ≠ 0 then decoder.reader.readU32be else decoder.reader.readU16be

/-- The name of the field whose id is next. -/
def readFieldName : OsonRead String := do
  let fieldId ← decoder.reader.readUint decoder.fieldIdLength
  if fieldId = 0 then throw (.osonInvalid "field id out of range")
  match decoder.fieldNames[fieldId - 1]? with
  | some name => return name
  | none => throw (.osonInvalid "field id out of range")

/-- The position of a child in the tree. -/
def childPosition (containerOffset offset : Nat) : Result Nat :=
  if decoder.relativeOffsets then
    if offset + containerOffset < 2 ^ 32 then .ok (offset + containerOffset)
    else .error (.osonInvalid "relative offset overflow")
  else .ok offset

/-- The children of a container, with their names if it is an object. The ids and the offsets are read side by side:
the reader goes to one and to the other and then to the child. -/
def decodeChildren (decodeNode : OsonRead OsonValue) (nodeType : UInt8) (containerOffset : Nat) :
    Nat → Nat → Nat → OsonRead (List (String × OsonValue))
  | 0, _, _ => return []
  | count + 1, fieldIdsPos, offsetsPos => do
    let (name, fieldIdsPos) ←
      if nodeType &&& 0x40 = 0 then do
        decoder.reader.seekTo fieldIdsPos
        let name ← decoder.readFieldName
        let pos ← get
        pure (name, pos)
      else pure ("", fieldIdsPos)
    decoder.reader.seekTo offsetsPos
    let offset ← decoder.getOffset nodeType
    let offset ← liftM (decoder.childPosition containerOffset offset)
    let offsetsPos ← get
    decoder.reader.seekTo (decoder.treeSegPos + offset)
    let child ← decodeNode
    let children ← decodeChildren decodeNode nodeType containerOffset count fieldIdsPos offsetsPos
    return (name, child) :: children

/-- The number of children and the positions of their field ids and of their offsets. -/
def containerLayout (nodeType : UInt8) : OsonRead (Nat × Nat × Nat) := do
  let (numChildren, isShared) ← decoder.getNumChildren nodeType
  liftM (decoder.reader.limits.checkObjectElements numChildren)
  if isShared then
    let offset ← decoder.getOffset nodeType
    let offsetsPos ← get
    decoder.reader.seekTo (decoder.treeSegPos + offset)
    let sharedType ← decoder.reader.readU8
    let (sharedNum, _) ← decoder.getNumChildren sharedType
    liftM (decoder.reader.limits.checkObjectElements sharedNum)
    let fieldIdsPos ← get
    return (sharedNum, fieldIdsPos, offsetsPos)
  else
    let pos ← get
    if nodeType &&& 0x40 = 0 then return (numChildren, pos, pos + decoder.fieldIdLength * numChildren)
    else return (numChildren, 0, pos)

def decodeContainerNode (decodeNode : OsonRead OsonValue) (nodeType : UInt8) : OsonRead OsonValue := do
  let pos ← get
  let containerOffset := (pos - decoder.treeSegPos - 1) % 2 ^ 32
  let (numChildren, fieldIdsPos, offsetsPos) ← decoder.containerLayout nodeType
  liftM (decoder.reader.limits.checkObjectElements numChildren)
  let children ← decoder.decodeChildren decodeNode nodeType containerOffset numChildren fieldIdsPos offsetsPos
  if nodeType &&& 0x40 = 0 then return .object children else return .array (children.map Prod.snd)

/-- A node, where containers may still nest to the given depth. -/
def decodeNode : Nat → OsonRead OsonValue
  | 0 => do
    let nodeType ← decoder.reader.readU8
    if nodeType &&& 0x80 ≠ 0 then
      let limits := decoder.reader.limits
      throw (.resourceLimit "object_depth" (limits.maxObjectDepth + 1) limits.maxObjectDepth)
    else decodeScalarWithNodeType decoder.reader nodeType
  | depth + 1 => do
    let nodeType ← decoder.reader.readU8
    if nodeType &&& 0x80 ≠ 0 then decoder.decodeContainerNode (decodeNode depth) nodeType
    else decodeScalarWithNodeType decoder.reader nodeType

end OsonDecoder

/-! ### Field names -/

/-- The name at an offset of a segment, behind its length. -/
def fieldNameAt (seg : List UInt8) (nameLenSize offset : Nat) : Result String := do
  if seg.length < offset + nameLenSize then throw (.osonInvalid "field name offset out of range")
  let nameLen := ofBe ((seg.drop offset).take nameLenSize)
  if seg.length < offset + nameLenSize + nameLen then throw (.osonInvalid "field name past end of segment")
  decodeUtf8 ((seg.drop (offset + nameLenSize)).take nameLen) "field name is not valid UTF-8"

section

variable (reader : OsonReader)

def readNames (seg : List UInt8) (offsetsSize nameLenSize : Nat) : Nat → OsonRead (List String)
  | 0 => return []
  | count + 1 => do
    let offset ← reader.readUint offsetsSize
    let name ← liftM (fieldNameAt seg nameLenSize offset)
    let names ← readNames seg offsetsSize nameLenSize count
    return name :: names

def readFieldNames (numFields hashIdSize offsetsSize nameLenSize segSize : Nat) : OsonRead (List String) := do
  reader.skip (numFields * hashIdSize)
  let offsetsPos ← get
  reader.skip (numFields * offsetsSize)
  let seg ← reader.readRaw segSize
  let finalPos ← get
  reader.seekTo offsetsPos
  liftM (reader.limits.checkObjectElements numFields)
  let names ← readNames reader seg offsetsSize nameLenSize numFields
  reader.seekTo finalPos
  return names

end

/-! ### Decoding -/

def validateTreeSegmentExtent (imageLen treeSegPos treeSegSize : Nat) : Result Unit :=
  if imageLen < treeSegPos + treeSegSize then .error (.osonInvalid "tree segment extends past end of OSON image")
  else if treeSegPos + treeSegSize ≠ imageLen then .error (.osonInvalid "bytes after declared OSON tree segment")
  else .ok ()

/-- A part of the first header; every failure there says that the data are no image. -/
def orNotEncoded (reason : String) (read : OsonRead α) : OsonRead α := fun pos =>
  match read pos with
  | .ok found => .ok found
  | .error _ => .error (.osonNotEncoded reason)

section

variable (reader : OsonReader)

/-- The version and the flags. -/
def readHeader : OsonRead (UInt8 × UInt16) := do
  let magic ← orNotEncoded "image too short for header" (reader.readRaw 3)
  if magic ≠ tnsJsonMagicBytes then throw (.osonNotEncoded "bad OSON magic")
  let version ← orNotEncoded "missing OSON version" reader.readU8
  if version ≠ tnsJsonVersionMaxFname255 ∧ version ≠ tnsJsonVersionMaxFname65535 then
    throw (.osonNotEncoded "unsupported OSON version")
  let flags ← orNotEncoded "missing OSON flags" reader.readU16be
  return (version, UInt16.ofNat flags)

def readTreeSegSize (primaryFlags : UInt16) : OsonRead Nat :=
  reader.readUint (if primaryFlags &&& tnsJsonFlagTreeSegUint32 ≠ 0 then 4 else 2)

/-- The number of names of a segment, the width of its offsets and its size. -/
structure NamesHeader where
  count : Nat
  offsetsSize : Nat
  segSize : Nat
deriving DecidableEq, Repr

/-- The width of field ids and the header of the short names. -/
def readShortHeader (primaryFlags : UInt16) : OsonRead (Nat × NamesHeader) := do
  let fieldIdLength :=
    if primaryFlags &&& tnsJsonFlagNumFnamesUint32 ≠ 0 then 4
    else if primaryFlags &&& tnsJsonFlagNumFnamesUint16 ≠ 0 then 2
    else 1
  let count ← reader.readUint fieldIdLength
  let offsetsSize := if primaryFlags &&& tnsJsonFlagFnamesSegUint32 ≠ 0 then 4 else 2
  let segSize ← reader.readUint offsetsSize
  return (fieldIdLength, { count, offsetsSize, segSize })

def readLongHeader (version : UInt8) : OsonRead NamesHeader := do
  if version = tnsJsonVersionMaxFname65535 then
    let secondaryFlags ← reader.readU16be
    let count ← reader.readU32be
    let segSize ← reader.readU32be
    return { count, segSize, offsetsSize :=
      if UInt16.ofNat secondaryFlags &&& tnsJsonFlagSecFnamesSegUint16 ≠ 0 then 2 else 4 }
  else return { count := 0, offsetsSize := 0, segSize := 0 }

def readNamesOf (nameLenSize : Nat) (header : NamesHeader) : OsonRead (List String) :=
  if 0 < header.count then
    readFieldNames reader header.count nameLenSize header.offsetsSize nameLenSize header.segSize
  else return []

/-- The names and the place of the tree, behind the header of a container. -/
def readNamedDecoder (fieldIdLength : Nat) (short long : NamesHeader) (treeSegSize : Nat) (relativeOffsets : Bool) :
    OsonRead OsonDecoder := do
  liftM (reader.limits.checkObjectElements (short.count + long.count))
  let shortNames ← readNamesOf reader 1 short
  let longNames ← readNamesOf reader 2 long
  let treeSegPos ← get
  liftM (validateTreeSegmentExtent reader.data.length treeSegPos treeSegSize)
  return { reader, fieldNames := shortNames ++ longNames, fieldIdLength, treeSegPos, relativeOffsets }

/-- What is known of an image when its tree is read. -/
def readDecoder : OsonRead OsonDecoder := do
  let (version, primaryFlags) ← readHeader reader
  let relativeOffsets : Bool := primaryFlags &&& tnsJsonFlagRelOffsetMode ≠ 0
  if primaryFlags &&& tnsJsonFlagIsScalar ≠ 0 then
    let treeSegSize ← readTreeSegSize reader primaryFlags
    let treeSegPos ← get
    liftM (validateTreeSegmentExtent reader.data.length treeSegPos treeSegSize)
    return { reader, fieldNames := [], fieldIdLength := 1, treeSegPos, relativeOffsets }
  else
    let (fieldIdLength, short) ← readShortHeader reader primaryFlags
    let long ← readLongHeader reader version
    let treeSegSize ← readTreeSegSize reader primaryFlags
    let _numTinyNodes ← reader.readU16be
    readNamedDecoder reader fieldIdLength short long treeSegSize relativeOffsets

def decodeImage : OsonRead OsonValue := do
  let decoder ← readDecoder reader
  decoder.decodeNode reader.limits.maxObjectDepth

end

def decodeOsonWithLimits (data : List UInt8) (limits : ProtocolLimits) : Result OsonValue := do
  limits.checkResponseBytes data.length
  limits.validate
  let (value, _) ← decodeImage { data, limits } 0
  return value

def decodeOson (data : List UInt8) : Result OsonValue := decodeOsonWithLimits data .default

/-! ### Scalars, encoded -/

def encodeOracleDate (time : CivilTime) : Result (List UInt8) := do
  if ¬validOracleDateYear time.year ∨ time.month < 1 ∨ 12 < time.month ∨ time.day < 1 ∨ 31 < time.day ∨
    23 < time.hour ∨
      59 < time.minute ∨ 59 < time.second then
    throw (.ttcDecode "invalid DATE bind")
  let century ← toU8 (time.year.tdiv 100 + 100) "invalid DATE century"
  let yearInCentury ← toU8 (time.year.tmod 100 + 100) "invalid DATE year"
  return [century, yearInCentury, time.month, time.day, time.hour + 1, time.minute + 1, time.second + 1]

def encodeOracleTimestamp (time : CivilTime) : Result (List UInt8) := do
  if 999999999 < time.nanosecond then throw (.ttcDecode "invalid TIMESTAMP fraction")
  let date ← encodeOracleDate time
  if time.nanosecond = 0 then return date else return date ++ toBe 4 time.nanosecond

/-- A day or fraction count, moved into the unsigned range. -/
def toDuration (value : Int) (message : String) : Result (List UInt8) :=
  if 0 ≤ value + tnsDurationMid ∧ value + tnsDurationMid < 2 ^ 32 then .ok (toBe 4 (value + tnsDurationMid).toNat)
  else .error (.ttcDecode message)

def encodeIntervalDs (days seconds nanoseconds : Int) : Result (List UInt8) := do
  let wireDays ← toDuration days "INTERVAL DS days out of range"
  let toOffsetByte (value : Int) := toU8 (value + tnsDurationOffset) "INTERVAL DS component out of range"
  let hour ← toOffsetByte (seconds.tdiv 3600)
  let minute ← toOffsetByte ((seconds.tmod 3600).tdiv 60)
  let second ← toOffsetByte (seconds.tmod 60)
  let wireFseconds ← toDuration nanoseconds "INTERVAL DS fractional seconds out of range"
  return wireDays ++ [hour, minute, second] ++ wireFseconds

/-- The length of a string or of binary data, in the smallest of the widths that the type has. -/
def writeString (bytes : List UInt8) : List UInt8 :=
  (if bytes.length < 256 then tnsJsonTypeStringLengthUint8 :: toBe 1 bytes.length
  else if bytes.length < 65536 then tnsJsonTypeStringLengthUint16 :: toBe 2 bytes.length
  else tnsJsonTypeStringLengthUint32 :: toBe 4 bytes.length) ++ bytes

def writeRaw (bytes : List UInt8) : List UInt8 :=
  (if bytes.length < 65536 then tnsJsonTypeBinaryLengthUint16 :: toBe 2 bytes.length
  else tnsJsonTypeBinaryLengthUint32 :: toBe 4 bytes.length) ++ bytes

/-- The sum of the parts of an interval, in the arithmetic of 32-bit integers. -/
def totalSeconds (hours minutes seconds : Int) : Int := (hours * 3600 + minutes * 60 + seconds).bmod (2 ^ 32)

/-- The node of a scalar; a container has none. -/
def encodeScalar : OsonValue → Result (List UInt8)
  | .null => return [tnsJsonTypeNull]
  | .bool true => return [tnsJsonTypeTrue]
  | .bool false => return [tnsJsonTypeFalse]
  | .number text =>
    match encodeNumberText (textBytes text) with
    | .ok encoded => return tnsJsonTypeNumberLengthUint8 :: toBe 1 encoded.length ++ encoded
    | .error _ => throw (.osonInvalid "invalid JSON number")
  | .binaryFloat bits => return tnsJsonTypeBinaryFloat :: encodeBinaryFloat bits
  | .binaryDouble bits => return tnsJsonTypeBinaryDouble :: encodeBinaryDouble bits
  | .string text => return writeString (textBytes text)
  | .raw bytes => return writeRaw bytes
  | .dateTime time =>
    if time.nanosecond = 0 then do
      let bytes ← encodeOracleDate time
      return tnsJsonTypeTimestamp7 :: bytes
    else do
      let bytes ← encodeOracleTimestamp time
      return tnsJsonTypeTimestamp :: bytes
  | .intervalDS days hours minutes seconds fseconds => do
    let bytes ← encodeIntervalDs days (totalSeconds hours minutes seconds) fseconds
    return tnsJsonTypeIntervalDs :: bytes
  | .vector vector => do
    let image ← encodeVectorChecked vector
    return [tnsJsonTypeExtended, tnsJsonTypeVector] ++ toBe 4 image.length ++ image
  | .array _ | .object _ => return []

/-! ### Field names, encoded -/

/-- A field name with its hash, its place in its segment and its id. -/
structure FieldName where
  name : String
  nameBytes : List UInt8
  hashId : UInt32
  offset : Nat := 0
  fieldId : UInt32 := 0
deriving DecidableEq, Repr

def calcHashId (bytes : List UInt8) : UInt32 :=
  bytes.foldl (fun hash byte => (hash ^^^ byte.toUInt32) * 16777619) 0x811C9DC5

def FieldName.new (name : String) (maxFnameSize : Nat) : Result FieldName :=
  if maxFnameSize < (textBytes name).length then
    .error (.osonInvalid "field name exceeds maximum length for this connection")
  else .ok { name, nameBytes := textBytes name, hashId := calcHashId (textBytes name) }

/-- The order by the low byte of the hash, then by the length, then by the bytes. -/
def FieldName.sortsBefore (a b : FieldName) : Bool :=
  if a.hashId &&& 0xff ≠ b.hashId &&& 0xff then a.hashId &&& 0xff < b.hashId &&& 0xff
  else if a.nameBytes.length ≠ b.nameBytes.length then a.nameBytes.length < b.nameBytes.length
  else a.nameBytes ≤ b.nameBytes

structure FieldNamesSegment where
  buffer : List UInt8 := []
  fieldNames : List FieldName := []
  numFieldNames : UInt32 := 0

namespace FieldNamesSegment

def addName (seg : FieldNamesSegment) (fieldName : FieldName) : FieldNamesSegment :=
  let length := fieldName.nameBytes.length
  { seg with
    buffer := seg.buffer ++ toBe (if length ≤ 255 then 1 else 2) length ++ fieldName.nameBytes
    fieldNames := seg.fieldNames ++ [{ fieldName with offset := seg.buffer.length }] }

def processFieldNames (seg : FieldNamesSegment) (fieldIdOffset : UInt32) : FieldNamesSegment :=
  let sorted := seg.fieldNames.mergeSort FieldName.sortsBefore
  { seg with
    fieldNames := sorted.zipIdx.map fun (fieldName, index) =>
      { fieldName with fieldId := fieldIdOffset + UInt32.ofNat index + 1 }
    numFieldNames := UInt32.ofNat sorted.length }

end FieldNamesSegment

/-- The encoder. The names of the dictionary are distinct. -/
structure OsonEncoder where
  fieldNamesDict : List FieldName := []
  shortFnamesSeg : Option FieldNamesSegment := none
  longFnamesSeg : Option FieldNamesSegment := none
  numFieldNames : UInt32 := 0
  fieldIdSize : Nat := 1
  maxFnameSize : Nat

namespace OsonEncoder

def lookup (encoder : OsonEncoder) (name : String) : Option FieldName :=
  encoder.fieldNamesDict.find? fun fieldName => fieldName.name = name

def addFieldName (encoder : OsonEncoder) (name : String) : Result OsonEncoder := do
  if (encoder.lookup name).isSome then return encoder
  let fieldName ← FieldName.new name encoder.maxFnameSize
  let encoder := { encoder with fieldNamesDict := encoder.fieldNamesDict ++ [fieldName] }
  if fieldName.nameBytes.length ≤ 255 then
    return { encoder with shortFnamesSeg := some ((encoder.shortFnamesSeg.getD {}).addName fieldName) }
  else return { encoder with longFnamesSeg := some ((encoder.longFnamesSeg.getD {}).addName fieldName) }

mutual

/-- Collects the field names. -/
def examineNode (encoder : OsonEncoder) : OsonValue → Result OsonEncoder
  | .array values => examineValues encoder values
  | .object entries => examineEntries encoder entries
  | _ => return encoder

def examineValues (encoder : OsonEncoder) : List OsonValue → Result OsonEncoder
  | [] => return encoder
  | child :: values => do
    let encoder ← examineNode encoder child
    examineValues encoder values

def examineEntries (encoder : OsonEncoder) : List (String × OsonValue) → Result OsonEncoder
  | [] => return encoder
  | (key, child) :: entries => do
    let encoder ← encoder.addFieldName key
    let encoder ← examineNode encoder child
    examineEntries encoder entries

end

/-- Copies the ids and offsets of the sorted names into the dictionary. -/
def syncFieldIds (encoder : OsonEncoder) : OsonEncoder :=
  let names := [encoder.shortFnamesSeg, encoder.longFnamesSeg].flatMap fun seg => seg.elim [] (·.fieldNames)
  { encoder with
    fieldNamesDict := names.foldl (fun dict fieldName => dict.map fun entry =>
      if entry.name = fieldName.name then { entry with fieldId := fieldName.fieldId, offset := fieldName.offset }
      else entry) encoder.fieldNamesDict }

def processShort (encoder : OsonEncoder) : OsonEncoder :=
  match encoder.shortFnamesSeg with
  | some seg =>
    let seg := seg.processFieldNames 0
    { encoder with
      shortFnamesSeg := some seg
      numFieldNames := encoder.numFieldNames + seg.numFieldNames }
  | none => encoder

def processLong (encoder : OsonEncoder) : OsonEncoder :=
  match encoder.longFnamesSeg with
  | some seg =>
    let seg := seg.processFieldNames encoder.numFieldNames
    { encoder with
      longFnamesSeg := some seg
      numFieldNames := encoder.numFieldNames + seg.numFieldNames }
  | none => encoder

/-- The flags of the header that the names decide, and the width of the field ids. -/
def namesFlags (encoder : OsonEncoder) : UInt16 × Nat :=
  let flags := tnsJsonFlagInlineLeaf ||| tnsJsonFlagHashIdUint8 ||| tnsJsonFlagTinyNodesStat
  let (flags, fieldIdSize) :=
    if 65535 < encoder.numFieldNames then (flags ||| tnsJsonFlagNumFnamesUint32, 4)
    else if 255 < encoder.numFieldNames then (flags ||| tnsJsonFlagNumFnamesUint16, 2)
    else (flags, 1)
  if 65535 < encoder.shortFnamesSeg.elim 0 (·.buffer.length) then (flags ||| tnsJsonFlagFnamesSegUint32, fieldIdSize)
  else (flags, fieldIdSize)

/-- The flags of the header and the encoder with the names of the value. -/
def determineFlags (encoder : OsonEncoder) (value : OsonValue) : Result (UInt16 × OsonEncoder) :=
  match value with
  | .array _ | .object _ => do
    let encoder ← examineNode { encoder with shortFnamesSeg := some {} } value
    let encoder := encoder.processShort.processLong.syncFieldIds
    let (flags, fieldIdSize) := encoder.namesFlags
    return (flags, { encoder with fieldIdSize })
  | _ => return (tnsJsonFlagInlineLeaf ||| tnsJsonFlagIsScalar, encoder)

end OsonEncoder

/-! ### The tree, encoded -/

def encodeContainerHeader (nodeType : UInt8) (numChildren : Nat) : List UInt8 :=
  let nodeType := nodeType ||| 0x20
  let nodeType :=
    if 65535 < numChildren then nodeType ||| 0x10 else if 255 < numChildren then nodeType ||| 0x08 else nodeType
  nodeType :: toBe (if numChildren < 256 then 1 else if numChildren < 65536 then 2 else 4) numChildren

/-- What the children of a container write: the ids of their fields, their positions and their nodes. -/
structure ChildNodes where
  fieldIds : List UInt8 := []
  offsets : List UInt8 := []
  nodes : List UInt8 := []

section

variable (encoder : OsonEncoder)

mutual

/-- The node of a value at a position of the tree. A container leaves room for the ids and the positions of its
children and fills it as they are written. -/
def encodeNode (start : Nat) : OsonValue → Result (List UInt8)
  | .array values => do
    let header := encodeContainerHeader tnsJsonTypeArray values.length
    let children ← encodeElements (start + header.length + values.length * 4) values
    return header ++ children.offsets ++ children.nodes
  | .object entries => do
    let header := encodeContainerHeader tnsJsonTypeObject entries.length
    let children ← encodeEntries
      (start + header.length + entries.length * encoder.fieldIdSize + entries.length * 4) entries
    return header ++ children.fieldIds ++ children.offsets ++ children.nodes
  | value => encodeScalar value

def encodeElements (start : Nat) : List OsonValue → Result ChildNodes
  | [] => return {}
  | element :: values => do
    let node ← encodeNode start element
    let later ← encodeElements (start + node.length) values
    return { offsets := toBe 4 start ++ later.offsets, nodes := node ++ later.nodes }

def encodeEntries (start : Nat) : List (String × OsonValue) → Result ChildNodes
  | [] => return {}
  | (key, child) :: entries => do
    match encoder.lookup key with
    | none => throw (.osonInvalid "missing field id for key")
    | some fieldName =>
      let node ← encodeNode start child
      let later ← encodeEntries (start + node.length) entries
      return {
        fieldIds := toBe encoder.fieldIdSize fieldName.fieldId.toNat ++ later.fieldIds
        offsets := toBe 4 start ++ later.offsets
        nodes := node ++ later.nodes }

end

/-! ### The image -/

def writeExtendedHeader : List UInt8 :=
  let shortSegLen := encoder.shortFnamesSeg.elim 0 (·.buffer.length)
  toBe encoder.fieldIdSize (encoder.shortFnamesSeg.elim 0 (·.numFieldNames.toNat)) ++
    toBe (if shortSegLen < 65536 then 2 else 4) shortSegLen ++
    encoder.longFnamesSeg.elim [] fun seg =>
      toBe 2 (if seg.buffer.length < 65536 then tnsJsonFlagSecFnamesSegUint16 else 0).toNat ++
        toBe 4 seg.numFieldNames.toNat ++ toBe 4 seg.buffer.length

def writeFnamesSeg (seg : FieldNamesSegment) : List UInt8 :=
  (seg.fieldNames.flatMap fun fieldName =>
    if fieldName.nameBytes.length ≤ 255 then toBe 1 fieldName.hashId.toNat else toBe 2 fieldName.hashId.toNat) ++
  (seg.fieldNames.flatMap fun fieldName => toBe (if seg.buffer.length < 65536 then 2 else 4) fieldName.offset) ++
  seg.buffer

end

def OsonEncoder.encode (encoder : OsonEncoder) (value : OsonValue) : Result (List UInt8) := do
  let (flags, encoder) ← encoder.determineFlags value
  let tree ← encodeNode encoder 0 value
  let flags := if 65535 < tree.length then flags ||| tnsJsonFlagTreeSegUint32 else flags
  let version := if encoder.longFnamesSeg.isSome then tnsJsonVersionMaxFname65535 else tnsJsonVersionMaxFname255
  let treeSize := toBe (if tree.length < 65536 then 2 else 4) tree.length
  let header := tnsJsonMagicBytes ++ [version] ++ toBe 2 flags.toNat
  if encoder.shortFnamesSeg.isSome then
    return header ++ writeExtendedHeader encoder ++ treeSize ++ toBe 2 0 ++
      encoder.shortFnamesSeg.elim [] writeFnamesSeg ++ encoder.longFnamesSeg.elim [] writeFnamesSeg ++ tree
  else return header ++ treeSize ++ tree

def encodeOson (value : OsonValue) (supportsLongFnames : Bool) : Result (List UInt8) :=
  OsonEncoder.encode { maxFnameSize := if supportsLongFnames then maxFnameSizeLong else maxFnameSizeShort } value

end OracleThin.Image

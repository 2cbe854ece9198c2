import OracleThin.Ttc.Number
import OracleThin.Ttc.ServerError

/-!
# Column values

What a response says about a column and the values that it carries, with the decoders of the scalar types. JSON and
VECTOR images are decoded by functions that are parameters here: the parsers only apply them to images they have read
whole.
-/

namespace OracleThin.Ttc

open Lib Wire

/-! ### Columns -/

def oraTypeNumVarchar : UInt8 := 1
def oraTypeNumNumber : UInt8 := 2
def oraTypeNumBinaryInteger : UInt8 := 3
def oraTypeNumLong : UInt8 := 8
def oraTypeNumRowid : UInt8 := 11
def oraTypeNumDate : UInt8 := 12
def oraTypeNumRaw : UInt8 := 23
def oraTypeNumLongRaw : UInt8 := 24
def oraTypeNumChar : UInt8 := 96
def oraTypeNumBinaryFloat : UInt8 := 100
def oraTypeNumBinaryDouble : UInt8 := 101
def oraTypeNumCursor : UInt8 := 102
def oraTypeNumObject : UInt8 := 109
def oraTypeNumClob : UInt8 := 112
def oraTypeNumBlob : UInt8 := 113
def oraTypeNumBfile : UInt8 := 114
def oraTypeNumJson : UInt8 := 119
def oraTypeNumVector : UInt8 := 127
def oraTypeNumTimestamp : UInt8 := 180
def oraTypeNumTimestampTz : UInt8 := 181
def oraTypeNumIntervalYm : UInt8 := 182
def oraTypeNumIntervalDs : UInt8 := 183
def oraTypeNumUrowid : UInt8 := 208
def oraTypeNumTimestampLtz : UInt8 := 231
def oraTypeNumBoolean : UInt8 := 252

def csFormImplicit : UInt8 := 1
def csFormNchar : UInt8 := 2

structure ColumnMetadata where
  name : String := ""
  oraTypeNum : UInt8 := 0
  csfrm : UInt8 := 0
  precision : Int := 0
  scale : Int := 0
  bufferSize : Nat := 0
  maxSize : Nat := 0
  nullsAllowed : Bool := false
  isJson : Bool := false
  isOson : Bool := false
  objectSchema : Option String := none
  objectTypeName : Option String := none
  isArray : Bool := false
  vectorDimensions : Option Nat := none
  vectorFormat : UInt8 := 0
  vectorFlags : UInt8 := 0
  domainSchema : Option String := none
  domainName : Option String := none
  annotations : Option (List (String × String)) := none
deriving DecidableEq, Repr

def ColumnMetadata.isLong (column : ColumnMetadata) : Bool :=
  column.oraTypeNum == oraTypeNumLong || column.oraTypeNum == oraTypeNumLongRaw

/-! ### Values -/

structure LobValue where
  oraTypeNum : UInt8
  csfrm : UInt8
  locator : List UInt8
  size : Nat
  chunkSize : Nat
deriving DecidableEq, Repr

/-- The fields that all date and time values have. -/
structure CivilTime where
  year : Int
  month : UInt8
  day : UInt8
  hour : UInt8
  minute : UInt8
  second : UInt8
  nanosecond : Nat
deriving DecidableEq, Repr

/-- The ids of the named time zone regions, as intervals. -/
def regionIds : List (Nat × Nat) :=
  [(1, 288), (292, 419), (435, 445), (450, 464), (466, 479), (481, 489), (513, 513), (540, 541), (556, 556),
    (558, 558), (568, 568), (570, 570), (612, 615), (618, 618), (620, 621), (623, 623), (625, 625), (627, 628),
    (630, 630), (632, 632), (634, 634), (638, 639), (641, 642), (650, 650), (653, 653), (656, 657), (665, 665),
    (670, 670), (674, 674), (686, 687), (689, 692), (695, 695), (700, 700), (704, 706), (733, 733), (748, 748),
    (756, 757), (762, 763), (766, 769), (772, 772), (774, 774), (776, 776), (778, 779), (785, 785), (793, 793),
    (797, 797), (804, 804), (809, 809), (813, 813), (845, 846), (857, 859), (861, 866), (881, 881), (883, 883),
    (890, 890), (893, 893), (899, 899), (905, 905), (909, 911), (914, 914), (919, 919), (924, 924), (962, 963),
    (976, 976), (978, 978), (983, 984), (990, 990), (1025, 1025), (1052, 1052), (1126, 1126), (1132, 1132),
    (1135, 1135), (1137, 1137), (1151, 1151), (1169, 1169), (1182, 1182), (1201, 1201), (1203, 1203), (1217, 1217),
    (1290, 1290), (1376, 1376), (1393, 1393), (1411, 1411), (1421, 1421), (1431, 1431), (1436, 1436), (1502, 1502),
    (1537, 1537), (1564, 1564), (1637, 1639), (1647, 1647), (1888, 1888), (1905, 1905), (1948, 1948), (2049, 2049),
    (2076, 2076), (2151, 2151), (2417, 2417), (2460, 2460), (2561, 2561), (2929, 2929), (2972, 2972), (3073, 3073),
    (3585, 3585), (4097, 4097), (4609, 4609), (5121, 5121)]

/-- A named time zone region. -/
structure OracleTimeZoneRegion where
  id : Nat
deriving DecidableEq, Repr

def OracleTimeZoneRegion.fromId (id : Nat) : Result OracleTimeZoneRegion :=
  if regionIds.any fun (first, last) => first ≤ id ∧ id ≤ last then .ok ⟨id⟩
  else .error (.unsupportedFeature "unknown TIMESTAMP WITH TIME ZONE region ID")

/-- A value of a column. `J` and `V` are the decoded JSON and VECTOR images. -/
inductive QueryValue (J V : Type)
  | text (value : String)
  | textRaw (bytes : List UInt8) (csfrm : UInt8)
  | raw (bytes : List UInt8)
  | rowid (value : String)
  | binaryDouble (text : String)
  | intervalDS (days hours minutes seconds fseconds : Int)
  | intervalYM (years months : Int)
  | number (value : OracleNumber)
  | boolean (value : Bool)
  | cursor (columns : List ColumnMetadata) (cursorId : Nat)
  | dateTime (time : CivilTime)
  | timestampTz (time : CivilTime) (offsetMinutes : Int)
  | timestampTzRegion (time : CivilTime) (region : OracleTimeZoneRegion)
  | object (schema typeName : Option String) (packedData : List UInt8)
  | lob (value : LobValue)
  | vector (value : V)
  | json (value : J)
  | array (values : List (Option (QueryValue J V)))

/-- The decoders of JSON and VECTOR images. -/
structure ImageDecoders (J V : Type) where
  decodeOsonWithLimits : List UInt8 → ProtocolLimits → Result J
  decodeVectorWithLimits : List UInt8 → ProtocolLimits → Result V

variable {J V : Type}

/-! ### Dates and times -/

def tzHourOffset : Int := 20
def tzMinuteOffset : Int := 60
def tnsHasRegionId : UInt8 := 0x80

def validOracleDateYear (year : Int) : Bool := (-4712 ≤ year ∧ year ≤ -1) ∨ (1 ≤ year ∧ year ≤ 9999)

def validTzOffsetMinutes (offsetMinutes : Int) : Bool := -1439 ≤ offsetMinutes ∧ offsetMinutes ≤ 1439

/-- A field of the time of day, which is sent plus one. -/
def decodeOffsetTimeByte (byte : UInt8) (max : Nat) (field : String) : Result UInt8 :=
  if byte = 0 ∨ max < byte.toNat - 1 then .error (.ttcDecode s!"invalid DATE {field}") else .ok (byte - 1)

/-- The fraction of a second, if there is one. -/
def decodeFraction (bytes : List UInt8) : Result Nat :=
  if 11 ≤ bytes.length then
    let value := ofBe ((bytes.drop 7).take 4)
    if 999999999 < value then .error (.ttcDecode "invalid TIMESTAMP fraction") else .ok value
  else .ok 0

def decodeCivilTime (bytes : List UInt8) : Result CivilTime := do
  let byte (i : Nat) : UInt8 := bytes.getD i 0
  let year : Int := ((byte 0).toNat - 100) * 100 + (byte 1).toNat - 100
  if ¬validOracleDateYear year ∨ ((byte 0).toNat : Int) ≠ year.tdiv 100 + 100 ∨
      ((byte 1).toNat : Int) ≠ year.tmod 100 + 100 then
    throw (.ttcDecode "invalid DATE year")
  let month := byte 2
  if month < 1 ∨ 12 < month then throw (.ttcDecode "invalid DATE month")
  let day := byte 3
  if day < 1 ∨ 31 < day then throw (.ttcDecode "invalid DATE day")
  let hour ← decodeOffsetTimeByte (byte 4) 23 "hour"
  let minute ← decodeOffsetTimeByte (byte 5) 59 "minute"
  let second ← decodeOffsetTimeByte (byte 6) 59 "second"
  let nanosecond ← decodeFraction bytes
  return ⟨year, month, day, hour, minute, second, nanosecond⟩

/-- A region, or an offset in hours and minutes. -/
def decodeZone (time : CivilTime) (hourByte minuteByte : UInt8) : Result (QueryValue J V) :=
  if hourByte &&& tnsHasRegionId ≠ 0 then do
    let region ← OracleTimeZoneRegion.fromId ((hourByte &&& ~~~tnsHasRegionId).toNat * 64 + minuteByte.toNat / 4)
    return .timestampTzRegion time region
  else if hourByte = 0 ∨ minuteByte = 0 then .error (.ttcDecode "invalid TIMESTAMP WITH TIME ZONE offset")
  else if 120 ≤ minuteByte then .error (.ttcDecode "invalid TIMESTAMP WITH TIME ZONE offset minute")
  else
    let offsetMinutes : Int := (hourByte.toNat - tzHourOffset) * 60 + minuteByte.toNat - tzMinuteOffset
    if validTzOffsetMinutes offsetMinutes then .ok (.timestampTz time offsetMinutes)
    else .error (.ttcDecode "invalid TIMESTAMP WITH TIME ZONE offset")

def decodeDatetimeValue (bytes : List UInt8) : Result (QueryValue J V) := do
  if bytes.length ≠ 7 ∧ bytes.length ≠ 11 ∧ bytes.length ≠ 13 then throw (.ttcDecode "invalid DATE/TIMESTAMP length")
  let time ← decodeCivilTime bytes
  if bytes.length = 13 then decodeZone time (bytes.getD 11 0) (bytes.getD 12 0)
  else return .dateTime time

/-! ### Intervals, floating-point numbers and text -/

def tnsDurationMid : Int := 0x80000000
def tnsDurationOffset : Int := 60

def toI32 (value : Int) (message : String) : Result Int :=
  if -2 ^ 31 ≤ value ∧ value < 2 ^ 31 then .ok value else .error (.ttcDecode message)

def decodeIntervalDs (bytes : List UInt8) : Result (QueryValue J V) := do
  if bytes.length < 11 then throw (.ttcDecode "invalid INTERVAL DS length")
  let component (i : Nat) : Int := (bytes.getD i 0).toNat - tnsDurationOffset
  let days ← toI32 (ofBe (bytes.take 4) - tnsDurationMid) "INTERVAL DS out of range"
  let fseconds ← toI32 (ofBe ((bytes.drop 7).take 4) - tnsDurationMid) "INTERVAL DS out of range"
  return .intervalDS days (component 4) (component 5) (component 6) fseconds

def decodeIntervalYm (bytes : List UInt8) : Result (QueryValue J V) := do
  if bytes.length < 5 then throw (.ttcDecode "invalid INTERVAL YM length")
  let years ← toI32 (ofBe (bytes.take 4) - tnsDurationMid) "INTERVAL YM out of range"
  return .intervalYM years ((bytes.getD 4 0).toNat - tnsDurationOffset)

/-- The bits of a floating-point number of the given size: the sign bit is sent inverted, and of a negative number all
the others as well. -/
def decodeFloatBits (size : Nat) (message : String) (bytes : List UInt8) : Result Nat :=
  if bytes.length ≠ size then .error (.ttcDecode message)
  else
    match bytes with
    | [] => .ok 0
    | first :: rest =>
      if first &&& 0x80 ≠ 0 then .ok (ofBe ((first &&& 0x7f) :: rest)) else .ok (ofBe ((first :: rest).map (~~~·)))

def decodeBinaryFloat (bytes : List UInt8) : Result Nat :=
  decodeFloatBits 4 "invalid BINARY_FLOAT length" bytes

def decodeBinaryDouble (bytes : List UInt8) : Result Nat :=
  decodeFloatBits 8 "invalid BINARY_DOUBLE length" bytes

def decodeNumberValue (bytes : List UInt8) : Result (QueryValue J V) := do
  let value ← OracleNumber.fromWire bytes
  return .number value

/-- The UTF-16 units of a text. -/
def utf16Units : List UInt8 → List Nat
  | high :: low :: rest => ofBe [high, low] :: utf16Units rest
  | _ => []

def decodeTextValue (std : StdLib) (bytes : List UInt8) (csfrm : UInt8) : Result String :=
  if csfrm = csFormNchar then
    if (utf16Units bytes).length * 2 ≠ bytes.length then .error (.ttcDecode "invalid UTF-16 text length")
    else
      match std.fromUtf16 (utf16Units bytes) with
      | some text => .ok text
      | none => .error (.ttcDecode "invalid UTF-16 text")
  else
    match String.fromUTF8? (ByteArray.mk bytes.toArray) with
    | some text => .ok text
    | none => .error (.ttcDecode "invalid UTF-8 text")

end OracleThin.Ttc

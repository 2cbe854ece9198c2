import OracleThin.Image.Vector
import OracleThin.Ttc.Borrowed

/-!
# Conversion of values to Arrow

What one value of a fetched column becomes in an Arrow array: NUMBER texts become integers, decimals and
floating-point numbers, dates and times become epochs, intervals become months, days and nanoseconds. The Arrow
library and the parser of floating-point texts are given by `Library`.
-/

namespace OracleThin.Arrow

open Lib Wire Ttc Image

/-! ### Types -/

inductive TimeUnit
  | second
  | millisecond
  | microsecond
  | nanosecond
deriving DecidableEq, Repr

inductive IntervalUnit
  | yearMonth
  | dayTime
  | monthDayNano
deriving DecidableEq, Repr

/-- The widths of the integer types. -/
inductive IntWidth
  | w8
  | w16
  | w32
  | w64
deriving DecidableEq, Repr

def IntWidth.bits : IntWidth → Nat
  | w8 => 8
  | w16 => 16
  | w32 => 32
  | w64 => 64

mutual

/-- The types of Arrow. `other` stands for the ones that nothing is converted to. -/
inductive DataType
  | null
  | boolean
  | int (width : IntWidth)
  | uint (width : IntWidth)
  | float32
  | float64
  | utf8
  | largeUtf8
  | utf8View
  | binary
  | largeBinary
  | binaryView
  | fixedSizeBinary (size : Int)
  | decimal128 (precision : Nat) (scale : Int)
  | date32
  | date64
  | timestamp (unit : TimeUnit) (zone : Option String)
  | interval (unit : IntervalUnit)
  | list (item : Field)
  | fixedSizeList (item : Field) (dim : Int)
  | struct (fields : List Field)
  | other (debugName : String)

inductive Field
  | mk (name : String) (dataType : DataType) (nullable : Bool)

end

def Field.dataType : Field → DataType
  | .mk _ dataType _ => dataType

/-- The types of the elements of a VECTOR. -/
inductive VectorItem
  | float32
  | float64
  | int8
  | uint8
deriving DecidableEq, Repr

/-- The type of an array, given by the builder that makes it. -/
inductive ArrayType
  | int (width : IntWidth)
  | uint (width : IntWidth)
  | float32
  | float64
  | decimal128 (precision : Nat) (scale : Int)
  | boolean
  | utf8
  | largeUtf8
  | binary
  | largeBinary
  | fixedSizeBinary (size : Int)
  | timestamp (unit : TimeUnit)
  | date32
  | date64
  | intervalMonthDayNano
  | vectorList (item : VectorItem)
  | vectorFixedSizeList (item : VectorItem) (dim : Int)
  | vectorStruct (fields : List Field) (item : VectorItem)

/-- A value in an array. Floating-point numbers are given by their bit patterns. -/
inductive ArrowValue
  | int (value : Int)
  | float32 (bits : UInt32)
  | float64 (bits : UInt64)
  | boolean (value : Bool)
  | utf8 (text : String)
  | binary (bytes : List UInt8)
  | interval (months days nanoseconds : Int)
  | vector (values : VectorValues)
  | sparse (numDimensions : UInt32) (indices : List UInt32) (values : VectorValues)
deriving DecidableEq, Repr

/-- An array: its type and its values, `none` where the array has a null. -/
structure ArrowArray where
  arrayType : ArrayType
  values : List (Option ArrowValue)

/-- Where an array has values. -/
def ArrowArray.validity (array : ArrowArray) : List Bool := array.values.map Option.isSome

/-! ### Errors and names -/

inductive ArrowConversionError
  | cannotConvertToArrow (arrowType dbType : String)
  | cannotConvertToInteger (value : String)
  | invalidInteger (value arrowType : String)
  | fixedSizeBinaryViolated (actualLen fixedSizeLen : Nat)
  | cannotConvertToDouble (value : String)
  | cannotConvertToFloat (value : String)
  | decimalOutOfRange (value : String)
  | invalidValue (columnName reason : String)
  | sparseVectorNotAllowed
  | notImplemented (message : String)
  | arrow
  | protocol (error : ProtocolError)
  | indexOutOfBounds
deriving DecidableEq, Repr

/-- What the functions of the Arrow module return. -/
abbrev Result := Except ArrowConversionError

/-- Owned and borrowed values, rows and pages, with decoded vectors. -/
abbrev Value (J : Type) := QueryValue J Image.Vector
abbrev ValueRef (J : Type) := QueryValueRef J Image.Vector
abbrev OwnedRow (J : Type) := Row J Image.Vector
abbrev Page (J : Type) := BorrowedRowBatch J Image.Vector

def invalidValue (column : ColumnMetadata) (reason : String) : ArrowConversionError :=
  .invalidValue column.name reason

def dbTypeName (column : ColumnMetadata) : String :=
  let nchar : Bool := column.csfrm = csFormNchar
  match column.oraTypeNum with
  | 1 => if nchar then "DB_TYPE_NVARCHAR" else "DB_TYPE_VARCHAR"
  | 2 => "DB_TYPE_NUMBER"
  | 3 => "DB_TYPE_BINARY_INTEGER"
  | 8 => if nchar then "DB_TYPE_LONG_NVARCHAR" else "DB_TYPE_LONG"
  | 11 | 208 => "DB_TYPE_ROWID"
  | 12 => "DB_TYPE_DATE"
  | 23 => "DB_TYPE_RAW"
  | 24 => "DB_TYPE_LONG_RAW"
  | 96 => if nchar then "DB_TYPE_NCHAR" else "DB_TYPE_CHAR"
  | 100 => "DB_TYPE_BINARY_FLOAT"
  | 101 => "DB_TYPE_BINARY_DOUBLE"
  | 102 => "DB_TYPE_CURSOR"
  | 109 => "DB_TYPE_OBJECT"
  | 112 => if nchar then "DB_TYPE_NCLOB" else "DB_TYPE_CLOB"
  | 113 => "DB_TYPE_BLOB"
  | 114 => "DB_TYPE_BFILE"
  | 119 => "DB_TYPE_JSON"
  | 127 => "DB_TYPE_VECTOR"
  | 180 => "DB_TYPE_TIMESTAMP"
  | 181 => "DB_TYPE_TIMESTAMP_TZ"
  | 231 => "DB_TYPE_TIMESTAMP_LTZ"
  | 182 => "DB_TYPE_INTERVAL_YM"
  | 183 => "DB_TYPE_INTERVAL_DS"
  | _ => "DB_TYPE_UNKNOWN"

def arrowTypeName : DataType → String
  | .null => "na"
  | .boolean => "bool"
  | .int width => "int" ++ toString width.bits
  | .uint width => "uint" ++ toString width.bits
  | .float32 => "float"
  | .float64 => "double"
  | .utf8 => "string"
  | .largeUtf8 => "large_string"
  | .utf8View => "string_view"
  | .binary => "binary"
  | .largeBinary => "large_binary"
  | .binaryView => "binary_view"
  | .fixedSizeBinary _ => "fixed_size_binary"
  | .decimal128 _ _ => "decimal128"
  | .date32 => "date32"
  | .date64 => "date64"
  | .timestamp _ _ => "timestamp"
  | .interval .monthDayNano => "interval_month_day_nano"
  | .interval .dayTime => "interval_day_time"
  | .interval .yearMonth => "interval_months"
  | .list _ => "list"
  | .fixedSizeList _ _ => "fixed_size_list"
  | .struct _ => "struct"
  | .other debugName => debugName.toLower

/-! ### The libraries -/

/-- What the conversion uses of the Arrow library and of the standard library. -/
structure Library where
  parseFloat32 : List Char → Option UInt32
  parseFloat64 : List Char → Option UInt64
  /-- Whether there is a builder of such arrays: the precision of a decimal and a fixed size have bounds. -/
  builds : ArrayType → Bool
  /-- Whether arrays with these types and nulls are columns of a batch with these fields. -/
  accepts : List Field → List (ArrayType × List Bool) → Bool
  /-- Whether structures with these fields are made of elements of the type, with these nulls. -/
  acceptsStruct : List Field → VectorItem → List Bool → Bool

/-! ### Texts of numbers -/

/-- The digit of a character, as the code computes it from a byte that is a digit. -/
def charValue (c : Char) : Nat := c.toNat - 48

/-- The next digit of a machine integer, if it stays below the bound. -/
def checkedPush (bound value digit : Nat) : Option Nat :=
  if value * 10 < bound ∧ value * 10 + digit < bound then some (value * 10 + digit) else none

def hasExponent (text : List Char) : Bool := text.any fun c => c == 'e' || c == 'E'

def parseNumberI64 (text : List Char) : Option Int :=
  if hasExponent text then none
  else do
    let (negative, rest) := match text with
      | '-' :: rest => (true, rest)
      | '+' :: rest => (false, rest)
      | rest => (false, rest)
    let digits := rest.takeWhile Char.isDigit
    if digits = [] then none
    let value ← (digits.map charValue).foldlM (checkedPush (2 ^ 63)) 0
    return if negative then -(value : Int) else value

def parseNumberU64 (text : List Char) : Option Nat :=
  if hasExponent text then none
  else do
    let rest := match text with
      | '+' :: rest => rest
      | rest => rest
    let digits := rest.takeWhile Char.isDigit
    if digits = [] then none
    (digits.map charValue).foldlM (checkedPush (2 ^ 64)) 0

/-- What `decimal128_from_number_text` does behind the sign. -/
def readDecimal128 (negative : Bool) (rest : List Char) (scale : Int) : Option Int := do
  let intPart := rest.takeWhile (· ≠ '.')
  let fracPart := (rest.dropWhile (· ≠ '.')).drop 1
  if intPart = [] ∧ fracPart = [] then none
  if ¬(intPart.all Char.isDigit ∧ fracPart.all Char.isDigit) then none
  let scaleDigits := (max scale 0).toNat
  if scaleDigits < fracPart.length then none
  let digits := intPart ++ fracPart ++ List.replicate (scaleDigits - fracPart.length) '0'
  if 38 < (digits.dropWhile (· = '0')).length then none
  let value ← (digits.map charValue).foldlM pushDigit 0
  return if negative then -value else value

/-- The unscaled value of a text in a decimal column: its digits without the point, with zeros up to the scale. -/
def decimal128FromNumberText (text : List Char) (scale : Int) : Option Int :=
  if hasExponent text then none
  else
    match text with
    | '-' :: rest => readDecimal128 true rest scale
    | rest => readDecimal128 false rest scale

/-- A text in a column of signed integers. -/
def intFromText (width : IntWidth) (text : String) : Result ArrowValue :=
  match parseNumberI64 text.toList with
  | none => .error (.cannotConvertToInteger text)
  | some wide =>
    if -2 ^ (width.bits - 1) ≤ wide ∧ wide < 2 ^ (width.bits - 1) then .ok (.int wide)
    else .error (.invalidInteger text (arrowTypeName (.int width)))

/-- A text in a column of unsigned integers. A negative integer is out of range. -/
def uintFromText (width : IntWidth) (text : String) : Result ArrowValue :=
  let invalid := ArrowConversionError.invalidInteger text (arrowTypeName (.uint width))
  match parseNumberU64 text.toList with
  | none => .error (if (parseNumberI64 text.toList).isSome then invalid else .cannotConvertToInteger text)
  | some wide => if wide < 2 ^ width.bits then .ok (.int wide) else .error invalid

def float64FromText (lib : Library) (text : String) : Result ArrowValue :=
  match lib.parseFloat64 text.toList with
  | none => .error (.cannotConvertToDouble text)
  | some bits => .ok (.float64 bits)

def float32FromText (lib : Library) (text : String) : Result ArrowValue :=
  match lib.parseFloat32 text.toList with
  | none => .error (.cannotConvertToFloat text)
  | some bits => .ok (.float32 bits)

def decimalFromText (scale : Int) (text : String) : Result ArrowValue :=
  match decimal128FromNumberText text.toList scale with
  | none => .error (.decimalOutOfRange text)
  | some unscaled => .ok (.int unscaled)

def booleanFromText (text : String) : ArrowValue := .boolean (text ≠ "0")

/-! ### Dates, times and intervals -/

structure EpochParts where
  seconds : Int
  nanos : Nat

/-- The days between a civil date and the Unix epoch. -/
def daysFromCivil (year : Int) (month day : UInt8) : Int :=
  let year := year - if month ≤ 2 then 1 else 0
  let era := (if 0 ≤ year then year else year - 399).tdiv 400
  let yearOfEra := year - era * 400
  let month : Int := month.toNat
  let dayOfYear := (153 * (if 2 < month then month - 3 else month + 9) + 2).tdiv 5 + day.toNat - 1
  let dayOfEra := yearOfEra * 365 + yearOfEra.tdiv 4 - yearOfEra.tdiv 100 + dayOfYear
  era * 146097 + dayOfEra - 719468

def epochPartsFromComponents (time : CivilTime) : EpochParts where
  seconds := daysFromCivil time.year time.month time.day * 86400 + time.hour.toNat * 3600 + time.minute.toNat * 60 +
    time.second.toNat
  nanos := time.nanosecond

/-- A time with a zone is written as its wall clock. -/
def epochPartsFromTstz (time : CivilTime) (offsetMinutes : Int) : EpochParts :=
  let parts := epochPartsFromComponents time
  { parts with seconds := parts.seconds + offsetMinutes * 60 }

def checkedI64 (n : Int) : Option Int := if -2 ^ 63 ≤ n ∧ n < 2 ^ 63 then some n else none

def timestampEpochValue (parts : EpochParts) : TimeUnit → Option Int
  | .second => some parts.seconds
  | .millisecond => do
    let seconds ← checkedI64 (parts.seconds * 1000)
    checkedI64 (seconds + parts.nanos / 1000000)
  | .microsecond => do
    let seconds ← checkedI64 (parts.seconds * 1000000)
    checkedI64 (seconds + parts.nanos / 1000)
  | .nanosecond => do
    let seconds ← checkedI64 (parts.seconds * 1000000000)
    checkedI64 (seconds + parts.nanos)

def timestampFromParts (column : ColumnMetadata) (unit : TimeUnit) (parts : EpochParts) : Result ArrowValue :=
  match timestampEpochValue parts unit with
  | none => .error (invalidValue column "timestamp out of range for the requested unit")
  | some epoch => .ok (.int epoch)

def date32FromParts (column : ColumnMetadata) (parts : EpochParts) : Result ArrowValue :=
  let days := parts.seconds / 86400
  if -2 ^ 31 ≤ days ∧ days < 2 ^ 31 then .ok (.int days)
  else .error (invalidValue column "date out of range for date32")

def date64FromParts (column : ColumnMetadata) (parts : EpochParts) : Result ArrowValue :=
  match timestampEpochValue parts .millisecond with
  | none => .error (invalidValue column "date out of range for date64")
  | some millis => .ok (.int millis)

def intervalDsMonthDayNano (days hours minutes seconds fseconds : Int) : ArrowValue :=
  .interval 0 days ((hours * 3600 + minutes * 60 + seconds) * 1000000000 + fseconds)

def intervalYmMonthDayNano (column : ColumnMetadata) (years months : Int) : Result ArrowValue :=
  let total := years * 12 + months
  if -2 ^ 31 ≤ total ∧ total < 2 ^ 31 then .ok (.interval total 0 0)
  else .error (invalidValue column "INTERVAL YEAR TO MONTH exceeds the Arrow month range")

/-! ### Binary values and vectors -/

def fixedSizeBinaryFrom (size : Int) (bytes : List UInt8) : Result ArrowValue :=
  let fixedSizeLen := size.toNat
  if bytes.length ≠ fixedSizeLen then .error (.fixedSizeBinaryViolated bytes.length fixedSizeLen)
  else .ok (.binary bytes)

/-- The element type of a list of vectors. -/
def VectorItem.forItem : DataType → Option VectorItem
  | .float32 => some .float32
  | .float64 => some .float64
  | .int .w8 => some .int8
  | .uint .w8 => some .uint8
  | _ => none

def VectorItem.holds : VectorItem → VectorValues → Bool
  | .float32, .float32 _ => true
  | .float64, .float64 _ => true
  | .int8, .int8 _ => true
  | .uint8, .binary _ => true
  | _, _ => false

def pushVectorValues (column : ColumnMetadata) (item : VectorItem) (values : VectorValues) : Result ArrowValue :=
  if item.holds values then .ok (.vector values) else .error (invalidValue column "vector format mismatch")

/-- A dense vector in a list of fixed size. -/
def pushFixedSize (column : ColumnMetadata) (item : VectorItem) (dim : Int) (values : VectorValues) :
    Result ArrowValue :=
  let dim := dim.toNat
  if item.holds values then
    if values.len ≠ dim then
      .error (invalidValue column ("vector has " ++ toString values.len ++
        " elements but the column's fixed dimension is " ++ toString dim))
    else .ok (.vector values)
  else .error (invalidValue column "vector format mismatch")

end OracleThin.Arrow

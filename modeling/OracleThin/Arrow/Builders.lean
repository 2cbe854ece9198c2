import OracleThin.Arrow.Convert

/-!
# Record batches

A record batch is built from fetched rows in two ways. `buildRecordBatchWithSchema` takes owned rows and converts one
column after the other. `buildRecordBatchColumnar` takes pages of borrowed rows and appends each cell to the builder
of its column while the page is decoded.
-/

namespace OracleThin.Arrow

open Lib Wire Ttc Image

variable {J : Type}

structure RecordBatch where
  schema : List Field
  arrays : List ArrowArray

def RecordBatch.tryNew (lib : Library) (schema : List Field) (arrays : List ArrowArray) : Result RecordBatch :=
  if lib.accepts schema (arrays.map fun array => (array.arrayType, array.validity)) then .ok ⟨schema, arrays⟩
  else .error .arrow

def wrongRowWidth (width columns : Nat) : ArrowConversionError :=
  .invalidValue "" ("row has " ++ toString width ++ " values but " ++ toString columns ++ " columns were described")

/-! ### From owned rows -/

/-- The text of a numeric value. -/
def numericText (column : ColumnMetadata) : Value J → Result String
  | .number value => .ok value.fmtInto
  | .binaryDouble text => .ok text
  | .boolean value => .ok (if value then "1" else "0")
  | _ => .error (invalidValue column "expected a numeric value")

def epochParts (column : ColumnMetadata) : Value J → Result EpochParts
  | .dateTime time => .ok (epochPartsFromComponents time)
  | .timestampTz time offsetMinutes => .ok (epochPartsFromTstz time offsetMinutes)
  | _ => .error (invalidValue column "expected a datetime value")

def textOf (column : ColumnMetadata) : Value J → Result String
  | .text text => .ok text
  | .rowid text => .ok text
  | _ => .error (invalidValue column "expected a text value")

def rawOf (column : ColumnMetadata) : Value J → Result (List UInt8)
  | .raw bytes => .ok bytes
  | _ => .error (invalidValue column "expected a raw value")

def intervalOf (column : ColumnMetadata) : Value J → Result ArrowValue
  | .intervalDS days hours minutes seconds fseconds =>
      .ok (intervalDsMonthDayNano days hours minutes seconds fseconds)
  | .intervalYM years months => intervalYmMonthDayNano column years months
  | _ => .error (invalidValue column "expected an interval value")

/-- A vector in a column of dense vectors. -/
def denseVector (column : ColumnMetadata) (push : VectorValues → Result ArrowValue) : Value J → Result ArrowValue
  | .vector (.dense values) => push values
  | .vector (.sparse _ _ _) => .error .sparseVectorNotAllowed
  | _ => .error (invalidValue column "expected a vector value")

/-- A vector in a column of sparse vectors. -/
def sparseVector (column : ColumnMetadata) (item : VectorItem) : Value J → Result ArrowValue
  | .vector (.sparse numDimensions indices values) => do
    let _ ← pushVectorValues column item values
    return .sparse numDimensions indices values
  | .vector (.dense _) => .error (invalidValue column "expected a sparse vector but received a dense vector")
  | _ => .error (invalidValue column "expected a vector value")

/-- A cell with a conversion of its value: a cell without one is a null. -/
def cellWith {α : Type} (convert : α → Result ArrowValue) : Option α → Result (Option ArrowValue)
  | none => .ok none
  | some value => some <$> convert value

/-- An array of cells. -/
def buildArray (lib : Library) (arrayType : ArrayType)
    (convert : Value J → Result ArrowValue)
    (cells : List (Option (Value J))) : Result ArrowArray :=
  if lib.builds arrayType then do
    let values ← cells.mapM (cellWith convert)
    return ⟨arrayType, values⟩
  else .error .arrow

def buildVectorListColumn (lib : Library) (item : Field) (column : ColumnMetadata)
    (cells : List (Option (Value J))) : Result ArrowArray :=
  match VectorItem.forItem item.dataType with
  | none => .error (.notImplemented "unsupported vector list element type")
  | some item => buildArray lib (.vectorList item) (denseVector column (pushVectorValues column item)) cells

def buildVectorFixedSizeListColumn (lib : Library) (item : Field) (dim : Int) (column : ColumnMetadata)
    (cells : List (Option (Value J))) : Result ArrowArray :=
  match VectorItem.forItem item.dataType with
  | none => .error (.notImplemented "unsupported vector fixed-size-list element type")
  | some item =>
    buildArray lib (.vectorFixedSizeList item dim) (denseVector column (pushFixedSize column item dim)) cells

/-- The third field has the elements. -/
def buildVectorStructColumn (lib : Library) (fields : List Field) (column : ColumnMetadata)
    (cells : List (Option (Value J))) : Result ArrowArray :=
  match fields[2]?.map Field.dataType with
  | none => .error .indexOutOfBounds
  | some (.list item) =>
    match VectorItem.forItem item.dataType with
    | none => .error (.notImplemented "unsupported vector list element type")
    | some item => do
      let array ← buildArray lib (.vectorStruct fields item) (sparseVector column item) cells
      if lib.acceptsStruct fields item array.validity then return array else .error .arrow
  | some _ => .error (invalidValue column "sparse vector values must be a list")

def buildColumnArray (lib : Library) (dataType : DataType) (column : ColumnMetadata)
    (cells : List (Option (Value J))) : Result ArrowArray :=
  match dataType with
  | .int width => buildArray lib (.int width) (fun value => numericText column value >>= intFromText width) cells
  | .uint width => buildArray lib (.uint width) (fun value => numericText column value >>= uintFromText width) cells
  | .float64 => buildArray lib .float64 (fun value => numericText column value >>= float64FromText lib) cells
  | .float32 => buildArray lib .float32 (fun value => numericText column value >>= float32FromText lib) cells
  | .decimal128 precision scale =>
    buildArray lib (.decimal128 precision scale)
      (fun value => numericText column value >>= decimalFromText scale) cells
  | .boolean => buildArray lib .boolean (fun value => booleanFromText <$> numericText column value) cells
  | .utf8 => buildArray lib .utf8 (fun value => .utf8 <$> textOf column value) cells
  | .largeUtf8 => buildArray lib .largeUtf8 (fun value => .utf8 <$> textOf column value) cells
  | .binary => buildArray lib .binary (fun value => .binary <$> rawOf column value) cells
  | .largeBinary => buildArray lib .largeBinary (fun value => .binary <$> rawOf column value) cells
  | .fixedSizeBinary size =>
    buildArray lib (.fixedSizeBinary size) (fun value => rawOf column value >>= fixedSizeBinaryFrom size) cells
  | .timestamp unit none =>
    buildArray lib (.timestamp unit) (fun value => epochParts column value >>= timestampFromParts column unit) cells
  | .date32 => buildArray lib .date32 (fun value => epochParts column value >>= date32FromParts column) cells
  | .date64 => buildArray lib .date64 (fun value => epochParts column value >>= date64FromParts column) cells
  | .interval .monthDayNano => buildArray lib .intervalMonthDayNano (intervalOf column) cells
  | .list item => buildVectorListColumn lib item column cells
  | .fixedSizeList item dim => buildVectorFixedSizeListColumn lib item dim column cells
  | .struct fields => buildVectorStructColumn lib fields column cells
  | other => .error (.cannotConvertToArrow (arrowTypeName other) (dbTypeName column))

/-- A row without a value for each column fails first. -/
def checkRowWidths (columns : List ColumnMetadata) (rows : List (OwnedRow J)) : Result Unit :=
  match rows.find? fun row => row.length ≠ columns.length with
  | none => .ok ()
  | some row => .error (wrongRowWidth row.length columns.length)

/-- The array of the field at an index of the schema. -/
def buildColumnAt (lib : Library) (columns : List ColumnMetadata) (rows : List (OwnedRow J)) (field : Field × Nat) :
    Result ArrowArray :=
  match columns[field.2]? with
  | none => .error .indexOutOfBounds
  | some column => buildColumnArray lib field.1.dataType column (rows.map fun row => row[field.2]?.join)

def buildRecordBatchWithSchema (lib : Library) (schema : List Field) (columns : List ColumnMetadata)
    (rows : List (OwnedRow J)) : Result RecordBatch := do
  checkRowWidths columns rows
  let arrays ← schema.zipIdx.mapM (buildColumnAt lib columns rows)
  RecordBatch.tryNew lib schema arrays

/-! ### From borrowed rows -/

/-- The text of a borrowed numeric value. -/
def numericTextRef (column : ColumnMetadata) : ValueRef J → Result String
  | .number text _ => .ok text
  | .boolean value => .ok (if value then "1" else "0")
  | .owned value => numericText column value
  | _ => .error (invalidValue column "expected a numeric value")

def epochPartsRef (column : ColumnMetadata) : ValueRef J → Result EpochParts
  | .dateTime time => .ok (epochPartsFromComponents time)
  | .timestampTz time offsetMinutes => .ok (epochPartsFromTstz time offsetMinutes)
  | .owned value => epochParts column value
  | _ => .error (invalidValue column "expected a datetime value")

def textRef (column : ColumnMetadata) : ValueRef J → Result String
  | .text text => .ok text
  | .owned (.text text) => .ok text
  | .owned (.rowid text) => .ok text
  | _ => .error (invalidValue column "expected a text value")

def rawRef (column : ColumnMetadata) : ValueRef J → Result (List UInt8)
  | .raw bytes => .ok bytes
  | .owned (.raw bytes) => .ok bytes
  | _ => .error (invalidValue column "expected a raw value")

def intervalRef (column : ColumnMetadata) : ValueRef J → Result ArrowValue
  | .intervalDS days hours minutes seconds fseconds =>
      .ok (intervalDsMonthDayNano days hours minutes seconds fseconds)
  | .intervalYM years months => intervalYmMonthDayNano column years months
  | .owned (.intervalDS days hours minutes seconds fseconds) =>
    .ok (intervalDsMonthDayNano days hours minutes seconds fseconds)
  | .owned (.intervalYM years months) => intervalYmMonthDayNano column years months
  | _ => .error (invalidValue column "expected an interval value")

def vectorRef (column : ColumnMetadata) (item : VectorItem) (dim : Int) :
    ValueRef J → Result ArrowValue
  | .owned (.vector (.dense values)) => pushFixedSize column item dim values
  | .owned (.vector (.sparse _ _ _)) => .error .sparseVectorNotAllowed
  | _ => .error (invalidValue column "expected a vector value")

/-- The builder of a column: the type of its array and the values so far. -/
structure ColumnBuilder where
  arrayType : ArrayType
  values : List (Option ArrowValue) := []

namespace ColumnBuilder

/-- The arrays that are built from borrowed rows. Lists of any length and structures are left to the other way. -/
def arrayTypeFor : DataType → Option ArrayType
  | .int width => some (.int width)
  | .uint width => some (.uint width)
  | .float32 => some .float32
  | .float64 => some .float64
  | .decimal128 precision scale => some (.decimal128 precision scale)
  | .boolean => some .boolean
  | .utf8 => some .utf8
  | .largeUtf8 => some .largeUtf8
  | .binary => some .binary
  | .largeBinary => some .largeBinary
  | .fixedSizeBinary size => some (.fixedSizeBinary size)
  | .timestamp unit none => some (.timestamp unit)
  | .date32 => some .date32
  | .date64 => some .date64
  | .interval .monthDayNano => some .intervalMonthDayNano
  | .fixedSizeList item dim => (VectorItem.forItem item.dataType).map fun item => .vectorFixedSizeList item dim
  | _ => none

def new (lib : Library) (dataType : DataType) : Option ColumnBuilder := do
  let arrayType ← arrayTypeFor dataType
  if lib.builds arrayType then some { arrayType } else none

/-- One borrowed value in a column. There are no builders of the other types. -/
def convertRef (lib : Library) (arrayType : ArrayType) (column : ColumnMetadata) (value : ValueRef J) :
    Result ArrowValue :=
  match arrayType with
  | .int width => numericTextRef column value >>= intFromText width
  | .uint width => numericTextRef column value >>= uintFromText width
  | .float64 => numericTextRef column value >>= float64FromText lib
  | .float32 => numericTextRef column value >>= float32FromText lib
  | .decimal128 _ scale => numericTextRef column value >>= decimalFromText scale
  | .boolean => booleanFromText <$> numericTextRef column value
  | .utf8 | .largeUtf8 => .utf8 <$> textRef column value
  | .binary | .largeBinary => .binary <$> rawRef column value
  | .fixedSizeBinary size => rawRef column value >>= fixedSizeBinaryFrom size
  | .timestamp unit => epochPartsRef column value >>= timestampFromParts column unit
  | .date32 => epochPartsRef column value >>= date32FromParts column
  | .date64 => epochPartsRef column value >>= date64FromParts column
  | .intervalMonthDayNano => intervalRef column value
  | .vectorFixedSizeList item dim => vectorRef column item dim value
  | .vectorList _ | .vectorStruct _ _ => .error .arrow

def appendRef (lib : Library) (builder : ColumnBuilder) (column : ColumnMetadata) :
    Option (ValueRef J) → Result ColumnBuilder
  | none => .ok { builder with values := builder.values ++ [none] }
  | some value => do
    let converted ← convertRef lib builder.arrayType column value
    return { builder with values := builder.values ++ [some converted] }

def finish (builder : ColumnBuilder) : ArrowArray := ⟨builder.arrayType, builder.values⟩

end ColumnBuilder

def columnarSupported (schema : List Field) : Bool :=
  schema.all fun field => match field.dataType with
    | .list _ | .struct _ => false
    | _ => true

structure ColumnarBatchBuilder where
  schema : List Field
  columns : List ColumnMetadata
  builders : List ColumnBuilder

namespace ColumnarBatchBuilder

def new (lib : Library) (schema : List Field) (columns : List ColumnMetadata) : Option ColumnarBatchBuilder := do
  let builders ← schema.mapM fun field => ColumnBuilder.new lib field.dataType
  return { schema, columns, builders }

/-- The cells of a row go to the builders of their columns. -/
def appendCells (lib : Library) : List ColumnMetadata → List ColumnBuilder → List (Option (ValueRef J)) →
    Result (List ColumnBuilder)
  | _, builders, [] => .ok builders
  | column :: columns, builder :: builders, cell :: cells => do
    let builder ← builder.appendRef lib column cell
    let builders ← appendCells lib columns builders cells
    return builder :: builders
  | _, _, _ :: _ => .error .indexOutOfBounds

def appendRow (lib : Library) (builder : ColumnarBatchBuilder) (row : List (Option (ValueRef J))) :
    Result ColumnarBatchBuilder :=
  if row.length ≠ builder.columns.length then .error (wrongRowWidth row.length builder.columns.length)
  else do
    let builders ← appendCells lib builder.columns builder.builders row
    return { builder with builders }

/-- A page of borrowed rows. The last row is given back for the next page. -/
def appendBorrowed (lib : Library) (std : StdLib) (images : ImageDecoders J Image.Vector)
    (builder : ColumnarBatchBuilder) (batch : Page J) : Result (ColumnarBatchBuilder × Option (OwnedRow J)) := do
  let rows ← (batch.forEachRowRef std images).mapError .protocol
  let builder ← rows.foldlM (appendRow lib) builder
  return (builder, rows.getLast?.map fun row => row.map (Option.map QueryValueRef.toOwnedValue))

def finish (lib : Library) (builder : ColumnarBatchBuilder) : Result RecordBatch :=
  RecordBatch.tryNew lib builder.schema (builder.builders.map ColumnBuilder.finish)

end ColumnarBatchBuilder

/-- The batch of the pages of a fetch. -/
def buildRecordBatchColumnar (lib : Library) (std : StdLib) (images : ImageDecoders J Image.Vector)
    (schema : List Field) (columns : List ColumnMetadata) (pages : List (Page J)) : Result RecordBatch :=
  match ColumnarBatchBuilder.new lib schema columns with
  | none => .error (.notImplemented "columnar path does not support this column type")
  | some builder => do
    let builder ← pages.foldlM (fun builder page => Prod.fst <$> builder.appendBorrowed lib std images page) builder
    builder.finish lib

/-- The owned rows of the pages of a fetch. -/
def ownedRows (std : StdLib) (images : ImageDecoders J Image.Vector) (pages : List (Page J)) :
    Result (List (OwnedRow J)) := do
  let rows ← pages.mapM fun page => (page.ownedRows std images).mapError .protocol
  return rows.flatten

/-- The batch of the owned rows of the pages of a fetch. -/
def buildRecordBatchOwned (lib : Library) (std : StdLib) (images : ImageDecoders J Image.Vector) (schema : List Field)
    (columns : List ColumnMetadata) (pages : List (Page J)) : Result RecordBatch := do
  let rows ← ownedRows std images pages
  buildRecordBatchWithSchema lib schema columns rows

end OracleThin.Arrow

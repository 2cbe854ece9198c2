import OracleThin.Bind.Value

/-!
# Rows of binds

A statement is executed with rows of binds, one value for each column. The validators look at the rows before they are
sent, the writer declares each column once and sends the values row by row, and the statement cache records the types
that were declared. Each of the three finds the type of a column by itself, from the first value that has one.
-/

namespace OracleThin.Bind

open Lib Wire Ttc Image Cursor

/-! ### Validators -/

inductive BindError
  | batchRowWidthMismatch (rowIndex expected actual : Nat)
  | batchColumnTypeMismatch (rowIndex columnIndex : Nat) (expected actual : String)
deriving DecidableEq, Repr

/-- The first row that is not as wide as the first one is refused. -/
def validateBindRowsShape : List (List BindValue) → Except BindError Unit
  | [] => .ok ()
  | firstRow :: rows =>
    match (rows.zipIdx 1).find? fun (row, _) => row.length ≠ firstRow.length with
    | some (row, rowIndex) => .error (.batchRowWidthMismatch rowIndex firstRow.length row.length)
    | none => .ok ()

/-- Types whose values may stand in one column. -/
def bindTypeFamily (oraTypeNum : UInt8) : UInt8 :=
  if oraTypeNum = oraTypeNumChar ∨ oraTypeNum = oraTypeNumLong then oraTypeNumVarchar
  else if oraTypeNum = oraTypeNumLongRaw then oraTypeNumRaw
  else oraTypeNum

def publicDbtypeNameFromTypeInfo (oraTypeNum csfrm : UInt8) : String :=
  if oraTypeNum = oraTypeNumBinaryDouble then "DB_TYPE_BINARY_DOUBLE"
  else if oraTypeNum = oraTypeNumBinaryFloat then "DB_TYPE_BINARY_FLOAT"
  else if oraTypeNum = oraTypeNumIntervalDs then "DB_TYPE_INTERVAL_DS"
  else if oraTypeNum = oraTypeNumIntervalYm then "DB_TYPE_INTERVAL_YM"
  else if oraTypeNum = oraTypeNumBoolean then "DB_TYPE_BOOLEAN"
  else if oraTypeNum = oraTypeNumBinaryInteger then "DB_TYPE_BINARY_INTEGER"
  else if oraTypeNum = oraTypeNumNumber then "DB_TYPE_NUMBER"
  else if (oraTypeNum = oraTypeNumChar ∨ oraTypeNum = oraTypeNumVarchar) ∧ csfrm = csFormNchar then "DB_TYPE_NVARCHAR"
  else if oraTypeNum = oraTypeNumChar then "DB_TYPE_CHAR"
  else if oraTypeNum = oraTypeNumVarchar then "DB_TYPE_VARCHAR"
  else if oraTypeNum = oraTypeNumLong ∧ csfrm = csFormNchar then "DB_TYPE_LONG_NVARCHAR"
  else if oraTypeNum = oraTypeNumLong then "DB_TYPE_LONG"
  else if oraTypeNum = oraTypeNumLongRaw then "DB_TYPE_LONG_RAW"
  else if oraTypeNum = oraTypeNumRaw then "DB_TYPE_RAW"
  else if oraTypeNum = oraTypeNumDate then "DB_TYPE_DATE"
  else if oraTypeNum = oraTypeNumTimestamp then "DB_TYPE_TIMESTAMP"
  else if oraTypeNum = oraTypeNumTimestampLtz then "DB_TYPE_TIMESTAMP_LTZ"
  else if oraTypeNum = oraTypeNumTimestampTz then "DB_TYPE_TIMESTAMP_TZ"
  else if oraTypeNum = oraTypeNumCursor then "DB_TYPE_CURSOR"
  else if oraTypeNum = oraTypeNumObject then "DB_TYPE_OBJECT"
  else if oraTypeNum = oraTypeNumVector then "DB_TYPE_VECTOR"
  else if oraTypeNum = oraTypeNumJson then "DB_TYPE_JSON"
  else "DB_TYPE_VARCHAR"

def publicDbtypeNameFromBind : BindValue → String
  | .typedNull oraTypeNum csfrm _ | .output oraTypeNum csfrm _ | .returnOutput oraTypeNum csfrm _
  | .array oraTypeNum csfrm _ _ _ => publicDbtypeNameFromTypeInfo oraTypeNum csfrm
  | .objectOutput .. | .objectInput .. => "DB_TYPE_OBJECT"
  | .inOut value _ => publicDbtypeNameFromBind value
  | .text _ | .null => "DB_TYPE_VARCHAR"
  | .raw _ => "DB_TYPE_RAW"
  | .lob oraTypeNum csfrm _ =>
    if oraTypeNum = oraTypeNumBlob then "DB_TYPE_BLOB"
    else if oraTypeNum = oraTypeNumClob ∧ csfrm = csFormNchar then "DB_TYPE_NCLOB"
    else "DB_TYPE_CLOB"
  | .number _ => "DB_TYPE_NUMBER"
  | .binaryInteger _ => "DB_TYPE_BINARY_INTEGER"
  | .binaryDouble _ => "DB_TYPE_BINARY_DOUBLE"
  | .binaryFloat _ => "DB_TYPE_BINARY_FLOAT"
  | .boolean _ => "DB_TYPE_BOOLEAN"
  | .intervalDS .. => "DB_TYPE_INTERVAL_DS"
  | .intervalYM .. => "DB_TYPE_INTERVAL_YM"
  | .dateTime _ => "DB_TYPE_DATE"
  | .timestamp oraTypeNum _ =>
    if oraTypeNum = oraTypeNumTimestampLtz then "DB_TYPE_TIMESTAMP_LTZ"
    else if oraTypeNum = oraTypeNumTimestampTz then "DB_TYPE_TIMESTAMP_TZ"
    else "DB_TYPE_TIMESTAMP"
  | .timestampTz .. => "DB_TYPE_TIMESTAMP_TZ"
  | .vector _ => "DB_TYPE_VECTOR"
  | .json _ => "DB_TYPE_JSON"
  | .cursor _ => "DB_TYPE_CURSOR"

/-- The family, the character form and the public name of the first typed value of a column. -/
abbrev Established := UInt8 × UInt8 × String

/-- Looks at the value of one row. -/
def checkRowType (columnIndex : Nat) (established : Option Established) (entry : List BindValue × Nat) :
    Except BindError (Option Established) :=
  match entry.1[columnIndex]? with
  | none => .ok established
  | some value =>
    match bindValueTypeInfo value with
    | none => .ok established
    | some info =>
      match established with
      | none => .ok (some (bindTypeFamily info.oraTypeNum, info.csfrm, publicDbtypeNameFromBind value))
      | some (family, csfrm, expected) =>
        if bindTypeFamily info.oraTypeNum ≠ family ∨ info.csfrm ≠ csfrm then
          .error (.batchColumnTypeMismatch entry.2 columnIndex expected (publicDbtypeNameFromBind value))
        else .ok established

def checkColumnTypes (bindRows : List (List BindValue)) (columnIndex : Nat) : Except BindError (Option Established) :=
  bindRows.zipIdx.foldlM (checkRowType columnIndex) none

def validateBindRowsTypes (bindRows : List (List BindValue)) : Except BindError Unit :=
  match bindRows with
  | [] => .ok ()
  | firstRow :: _ => do
    if bindRows.length < 2 then return
    let _ ← (List.range firstRow.length).mapM (checkColumnTypes bindRows)

/-! ### The shape in the statement cache -/

def bindShapeSlot (bindRows : List (List BindValue)) (index : Nat) : BindShapeSlot :=
  match bindRows.findSome? fun row => row[index]?.bind bindValueTypeInfo with
  | some info => { family := bindTypeFamily info.oraTypeNum, csfrm := info.csfrm, untypedNull := false }
  | none => { family := oraTypeNumVarchar, csfrm := csFormImplicit, untypedNull := true }

def bindTypeShape (bindRows : List (List BindValue)) : List BindShapeSlot :=
  match bindRows with
  | [] => []
  | firstRow :: _ => (List.range firstRow.length).map (bindShapeSlot bindRows)

/-! ### The writer -/

def isCharType (oraTypeNum : UInt8) : Bool :=
  oraTypeNum = oraTypeNumChar ∨ oraTypeNum = oraTypeNumVarchar ∨ oraTypeNum = oraTypeNumLong

def isRawType (oraTypeNum : UInt8) : Bool := oraTypeNum = oraTypeNumRaw ∨ oraTypeNum = oraTypeNumLongRaw

def isLongType (oraTypeNum : UInt8) : Bool := oraTypeNum = oraTypeNumLong ∨ oraTypeNum = oraTypeNumLongRaw

def bindMetadataTypesAreCompatible (left right : UInt8) : Bool :=
  left = right ∨ (isCharType left ∧ isCharType right) ∨ (isRawType left ∧ isRawType right)

def promotedBindMetadataType (left right : UInt8) : UInt8 :=
  if isLongType left then left else if isLongType right then right else left

/-- What is known of a column after some of its values: a value that stands for it, its type, and whether all values
were untyped so far. -/
structure ColumnState where
  metadataValue : BindValue
  metadata : BindTypeInfo
  needsTypeInference : Bool

def ColumnState.init (firstValue : BindValue) : ColumnState where
  metadataValue := firstValue
  metadata := bindMetadata firstValue
  needsTypeInference := match firstValue with
    | .null => true
    | _ => false

def ColumnState.step (state : ColumnState) (value : BindValue) : ColumnState :=
  if state.needsTypeInference then
    match value with
    | .null => state
    | _ => { metadataValue := value, metadata := bindMetadata value, needsTypeInference := false }
  else
    let row := bindMetadata value
    if row.csfrm = state.metadata.csfrm ∧ bindMetadataTypesAreCompatible state.metadata.oraTypeNum row.oraTypeNum then
      { state with metadata :=
        { state.metadata with
          oraTypeNum := promotedBindMetadataType state.metadata.oraTypeNum row.oraTypeNum
          bufferSize := max state.metadata.bufferSize row.bufferSize } }
    else state

/-- The state of a column after all rows; a row without the column is passed over. -/
def columnState (firstValue : BindValue) (rows : List (List BindValue)) (index : Nat) : ColumnState :=
  (rows.filterMap (·[index]?)).foldl ColumnState.step (.init firstValue)

def tnsBindUseIndicators : UInt8 := 0x01
def tnsBindArray : UInt8 := 0x40
def tnsLobPrefetchFlag : Nat := 0x02000000
def tnsCharsetUtf8 : Nat := 873

/-- The buffer size that is written for a column: a JSON column always has the same. -/
def declaredBufferSize (metadata : BindTypeInfo) : Nat :=
  if metadata.oraTypeNum = oraTypeNumJson then tnsJsonMaxLength else metadata.bufferSize

def carriesOaccolid (ttcFieldVersion : Nat) : Bool := tnsCcapFieldVersion122 ≤ ttcFieldVersion

def writeBindMetadataWithType (value : BindValue) (metadata : BindTypeInfo) (ttcFieldVersion : Nat) :
    Result (List UInt8) := do
  let (flags, maxElements) := match value with
    | .array _ _ _ maxElements _ => (tnsBindUseIndicators ||| tnsBindArray, maxElements)
    | _ => (tnsBindUseIndicators, 0)
  let oraTypeNum := metadata.oraTypeNum
  let contFlags :=
    if oraTypeNum = oraTypeNumClob ∨ oraTypeNum = oraTypeNumBlob ∨ oraTypeNum = oraTypeNumVector ∨
      oraTypeNum = oraTypeNumJson then tnsLobPrefetchFlag else 0
  let object ← match value with
    | .objectOutput oid version _ | .objectInput oid version _ _ => do
      let oid ← writeBytesWithTwoLengths oid
      pure (oid ++ writeUb4 version)
    | _ => pure (writeUb4 0 ++ writeUb2 0)
  let lobPrefetchLength :=
    if oraTypeNum = oraTypeNumVector then tnsVectorMaxLength
    else if oraTypeNum = oraTypeNumJson then tnsJsonMaxLength
    else 0
  return [oraTypeNum, flags, 0, 0] ++ writeUb4 (declaredBufferSize metadata) ++ writeUb4 maxElements ++
    writeUb8 contFlags ++ object ++ writeUb2 (if metadata.csfrm ≠ 0 then tnsCharsetUtf8 else 0) ++ [metadata.csfrm] ++
    writeUb4 lobPrefetchLength ++ if carriesOaccolid ttcFieldVersion then writeUb4 0 else []

/-- The declaration of a column and what it declares. -/
def writeBindMetadataForRows (bindRows : List (List BindValue)) (index ttcFieldVersion : Nat) :
    Result (List UInt8 × BindTypeInfo) :=
  match bindRows with
  | [] => .ok ([], untypedMetadata)
  | firstRow :: rows =>
    match firstRow[index]? with
    | none => .ok ([], untypedMetadata)
    | some firstValue => do
      let state := columnState firstValue rows index
      let bytes ← writeBindMetadataWithType state.metadataValue state.metadata ttcFieldVersion
      return (bytes, state.metadata)

/-- A column whose values are sent after those of the others. -/
def isLongColumn (isPlsql : Bool) (maxStringSize : Nat) (metadata : Option BindTypeInfo) : Bool :=
  !isPlsql && metadata.any fun metadata =>
    isLongType metadata.oraTypeNum || maxStringSize < metadata.bufferSize

/-- A value that the client sends. -/
def isSent (isPlsql : Bool) (value : BindValue) : Bool := isPlsql || !value.isOutputOnly

/-- Puts the index of a value behind those of its kind. -/
def orderStep (bindMetadata : List BindTypeInfo) (isPlsql : Bool) (maxStringSize : Nat) (found : List Nat × List Nat)
    (entry : BindValue × Nat) : List Nat × List Nat :=
  if isSent isPlsql entry.1 then
    if isLongColumn isPlsql maxStringSize bindMetadata[entry.2]? then (found.1, found.2 ++ [entry.2])
    else (found.1 ++ [entry.2], found.2)
  else found

def bindRowValueOrder (row : List BindValue) (bindMetadata : List BindTypeInfo) (isPlsql : Bool)
    (maxStringSize : Nat) :
    List Nat :=
  let (nonLong, long) := row.zipIdx.foldl (orderStep bindMetadata isPlsql maxStringSize) ([], [])
  nonLong ++ long

section

variable (asF32 : UInt64 → UInt32)

/-- The value of a row at an index; the order has no index without one. -/
def writeRowValue (row : List BindValue) (bindMetadata : List BindTypeInfo) (index : Nat) : Result (List UInt8) :=
  match row[index]? with
  | some value => writeBindValue asF32 value (bindMetadata[index]?.getD untypedMetadata).csfrm
  | none => .ok []

/-- The message of a row; a row with nothing to send has none. -/
def writeBindRow (bindMetadata : List BindTypeInfo) (isPlsql : Bool) (maxStringSize : Nat) (row : List BindValue) :
    Result (List UInt8) := do
  if !isPlsql && row.all BindValue.isOutputOnly then return []
  let values ← (bindRowValueOrder row bindMetadata isPlsql maxStringSize).mapM (writeRowValue asF32 row bindMetadata)
  return tnsMsgTypeRowData :: values.flatten

def writeBindParams (bindRows : List (List BindValue)) (isPlsql : Bool) (maxStringSize ttcFieldVersion : Nat) :
    Result (List UInt8) :=
  match bindRows with
  | [] => .ok []
  | firstRow :: _ => do
    let columns ← (List.range firstRow.length).mapM fun index =>
      writeBindMetadataForRows bindRows index ttcFieldVersion
    let messages ← bindRows.mapM (writeBindRow asF32 (columns.map Prod.snd) isPlsql maxStringSize)
    return (columns.map Prod.fst).flatten ++ messages.flatten

end

end OracleThin.Bind

import OracleThin.Ttc.Column

/-!
# The owned parser of query responses

The messages of the response to an execute or a fetch: metadata, rows with their duplicate columns, out binds,
implicit result sets, and an ERROR message at the end of the call. Unlike the parsers of function calls it returns a
result only if it has seen the end of the response.
-/

namespace OracleThin.Ttc

open Lib Lib.Parser Wire

variable {J V : Type}

/-- The cells of a row. -/
abbrev Row (J V : Type) := List (Option (QueryValue J V))

/-! ### What the parser knows and collects -/

structure QueryContext (J V : Type) where
  std : StdLib
  images : ImageDecoders J V
  capabilities : ClientCapabilities := {}
  previousColumns : List ColumnMetadata := []
  previousRow : Option (Row J V) := none
  bindColumns : List ColumnMetadata := []
  outputBindIndexes : List Nat := []
  fetchLongStatus : Bool := false
  arraydmlrowcounts : Bool := false
  lobDecodeMode : LobDecodeMode := .defineMetadata

structure QueryResult (J V : Type) where
  columns : List ColumnMetadata := []
  rows : List (Row J V) := []
  moreRows : Bool := false
  cursorId : Nat := 0
  rowCount : Nat := 0
  outValues : List (Nat × Option (QueryValue J V)) := []
  returnValues : List (Nat × List (Option (QueryValue J V))) := []
  arrayDmlRowCounts : Option (List Nat) := none
  queryId : Option Nat := none
  txnInProgress : Option Bool := none
  sessionlessTxnState : Option SessionlessTxnState := none
  implicitResultsets : Option (List (QueryValue J V)) := none
  tokenNum : Option Nat := none
  compilationErrorWarning : Bool := false
  lastRowid : Option String := none
  batchErrors : List BatchServerError := []

/-- The variables of the loop. -/
structure QueryState (J V : Type) where
  result : QueryResult J V
  fetchLongStatus : Bool
  bitVector : Option (List UInt8) := none
  outBindIndexes : List Nat := []
  responseBoundarySeen : Bool := false

def anyLong (columns : List ColumnMetadata) : Bool := columns.any ColumnMetadata.isLong

def QueryContext.start (ctx : QueryContext J V) : QueryState J V where
  result := { columns := ctx.previousColumns, moreRows := true }
  fetchLongStatus := ctx.fetchLongStatus || anyLong ctx.previousColumns

/-! ### Rows -/

def parseRowHeader (reader : TtcReader) : Read (Option (List UInt8)) := do
  reader.skip 1
  let _numRequests ← reader.readUb2
  let _iterationNumber ← reader.readUb4
  let _numIters ← reader.readUb4
  let _bufferLength ← reader.readUb2
  let numBytes ← reader.readUb4
  let bitVector ← readIf (0 < numBytes) (do
    reader.skip 1
    let bytes ← reader.readRaw numBytes
    return some bytes) none
  let _rxhrid ← reader.readBytesWithLength
  return bitVector

def parseBitVector (reader : TtcReader) (numColumns : Nat) : Read (List UInt8) := do
  let _numColumnsSent ← reader.readUb2
  reader.readRaw ((numColumns + 7) / 8)

/-- The cell of a duplicate column: the one of the previous row. -/
def duplicateCell (previous : Option (Row J V)) (index : Nat) : Result (Option (QueryValue J V)) :=
  match previous.bind (·[index]?) with
  | some cell => .ok cell
  | none => .error (.ttcDecode "duplicate row data without previous row")

def QueryContext.parseRowData (ctx : QueryContext J V) (reader : TtcReader) (s : QueryState J V) : Read (Row J V) :=
  Parser.each (fun (metadata, index) =>
    if isDuplicateColumn s.bitVector index then
      liftM (duplicateCell (s.result.rows.getLast?.or ctx.previousRow) index)
    else do
      let value ← parseColumnValueWithLobMode ctx.std ctx.images reader metadata ctx.lobDecodeMode
      skipLongStatus reader s.fetchLongStatus metadata
      return value) s.result.columns.zipIdx

/-! ### Out binds -/

def applyOutBindActualNumBytes (metadata : ColumnMetadata) (value : Option (QueryValue J V)) (actualNumBytes : Int)
    (truncationError : String) : Result (Option (QueryValue J V)) :=
  if actualNumBytes < 0 ∧ metadata.oraTypeNum = oraTypeNumBoolean then .ok none
  else if actualNumBytes ≠ 0 ∧ value.isSome then .error (.ttcDecode truncationError)
  else .ok value

def bindMetadata (bindColumns : List ColumnMetadata) (index : Nat) (message : String) : Result ColumnMetadata :=
  match bindColumns[index]? with
  | some metadata => .ok metadata
  | none => .error (.ttcDecode message)

namespace QueryContext

variable (ctx : QueryContext J V) (reader : TtcReader)

def parseBoundValue (metadata : ColumnMetadata) (truncationError : String) : Read (Option (QueryValue J V)) := do
  let value ← parseColumnValue ctx.std ctx.images reader metadata
  let actualNumBytes ← reader.readSb4
  applyOutBindActualNumBytes metadata value actualNumBytes truncationError

/-- Values after their number. -/
def parseBoundValues (metadata : ColumnMetadata) (truncationError : String) :
    Read (List (Option (QueryValue J V))) := do
  let numElements ← reader.readUb4
  reader.limits.checkBatchRows numElements
  Parser.many (ctx.parseBoundValue reader metadata truncationError) numElements

def parseOutBindRowData (outBindIndexes : List Nat) : Read (List (Nat × Option (QueryValue J V))) :=
  Parser.each (fun index => do
    let metadata ← bindMetadata ctx.bindColumns index "out bind index without bind metadata"
    if metadata.isArray then do
      let values ← ctx.parseBoundValues reader metadata "truncated array OUT bind value"
      return (index, some (.array values))
    else do
      let value ← ctx.parseBoundValue reader metadata "truncated OUT bind value"
      return (index, value)) outBindIndexes

def parseReturningRowData : Read (List (Nat × List (Option (QueryValue J V)))) :=
  Parser.each (fun index => do
    let metadata ← bindMetadata ctx.bindColumns index "return bind index without bind metadata"
    let values ← ctx.parseBoundValues reader metadata "truncated DML RETURNING value"
    return (index, values)) ctx.outputBindIndexes

end QueryContext

def tnsBindDirInput : UInt8 := 32

def skipIf (reader : TtcReader) (len : Nat) : Read Unit := if 0 < len then reader.skip len else return ()

/-- The positions of the binds that are not input only. -/
def parseIoVector (reader : TtcReader) (bindCount : Nat) : Read (List Nat) := do
  let _flags ← readU8
  let temp16 ← reader.readUb2
  let temp32 ← reader.readUb4
  let numBinds := temp32 * 256 + temp16
  let _numItersThisTime ← reader.readUb4
  let _uacBufferLength ← reader.readUb2
  let fastFetchLen ← reader.readUb2
  skipIf reader fastFetchLen
  let rowidLen ← reader.readUb2
  skipIf reader rowidLen
  reader.limits.checkBinds numBinds
  let directions ← Parser.many readU8 numBinds
  return (directions.zipIdx.filter fun (direction, index) => index < bindCount ∧
    direction ≠ tnsBindDirInput).map Prod.snd

/-! ### Return parameters, result sets and errors -/

structure QueryReturnParameters where
  rowCounts : Option (List Nat)
  queryId : Option Nat

/-- The id of a registered query is at the end of the registration block, the low half first. -/
def registrationQueryId (block : List UInt8) : Option Nat :=
  if 8 ≤ block.length then
    let tail := block.drop (block.length - 8)
    some (ofBe (tail.drop 4) * 2 ^ 32 + ofBe (tail.take 4))
  else none

def readRowCounts (reader : TtcReader) : Read (Option (List Nat)) := do
  let numRows ← reader.readUb4
  reader.limits.checkBatchRows numRows
  let rowCounts ← Parser.many reader.readUb8 numRows
  return some rowCounts

def parseQueryReturnParameters (reader : TtcReader) (arraydmlrowcounts : Bool) : Read QueryReturnParameters := do
  let numParams ← reader.readUb2
  let _values ← Parser.many reader.readUb4 numParams
  let numBytes ← reader.readUb2
  skipIf reader numBytes
  let numPairs ← reader.readUb2
  skipKeywordValuePairs reader numPairs
  let numBytes ← reader.readUb2
  let block ← readIf (0 < numBytes) (reader.readRaw numBytes) []
  let rowCounts ← readIf arraydmlrowcounts (readRowCounts reader) none
  return ⟨rowCounts, registrationQueryId block⟩

def readImplicitResultset (reader : TtcReader) (capabilities : ClientCapabilities) : Read (QueryValue J V) := do
  let numBytes ← readU8
  reader.skip numBytes.toNat
  let columns ← parseDescribeInfo reader capabilities
  let cursorId ← reader.readUb2
  return .cursor columns cursorId

def readImplicitResultsets (reader : TtcReader) (capabilities : ClientCapabilities) :
    Read (List (QueryValue J V)) := do
  let numResults ← reader.readUb4
  reader.limits.checkLengthPrefixedElements numResults
  Parser.many (readImplicitResultset reader capabilities) numResults

/-- An ERROR message that stands somewhere in the 64 bytes before a message of unknown type. A candidate that cannot
be parsed ends the search. -/
def findEmbeddedServerError (std : StdLib) (payload : List UInt8) (ttcFieldVersion position : Nat) : Option String :=
  go (List.range' (position - 64) (position - (position - 64) + 1))
where
  go : List Nat → Option String
    | [] => none
    | candidate :: candidates =>
      if payload[candidate]? = some tnsMsgTypeError then
        match parseServerErrorInfo std { limits := .default } ttcFieldVersion (payload.drop (candidate + 1)) with
        | .ok (info, _) =>
          if info.number ≠ 0 ∧ info.message.startsWith "ORA-" then some info.message else go candidates
        | .error _ => none
      else go candidates

/-- A message of a type that the query parsers do not know. The type has just been read. -/
def unknownQueryMessage {α : Type} (std : StdLib) (payload : List UInt8) (ttcFieldVersion : Nat)
    (messageType : UInt8) :
    Read α := fun rest =>
  let position := payload.length - rest.length - 1
  match findEmbeddedServerError std payload ttcFieldVersion position with
  | some message => .error (.serverError message)
  | none => .error (.unknownMessageType messageType position)

def tnsErrNoDataFound : Nat := 1403
def tnsErrArrayDmlErrors : Nat := 24381

/-! ### The loop -/

namespace QueryContext

variable (ctx : QueryContext J V)

def describe (reader : TtcReader) (s : QueryState J V) : Read (QueryState J V) := do
  let _describeName ← reader.readBytes
  let described ← parseDescribeInfo reader ctx.capabilities
  let adjusted := adjustColumns s.result.columns described
  let columns := adjusted.map Prod.fst
  return { s with
    result := { s.result with columns }
    fetchLongStatus := s.fetchLongStatus || adjusted.any Prod.snd || anyLong columns }

def rowData (reader : TtcReader) (s : QueryState J V) : Read (QueryState J V) :=
  if s.result.columns.isEmpty && !s.outBindIndexes.isEmpty then do
    let values ← ctx.parseOutBindRowData reader s.outBindIndexes
    return { s with result := { s.result with outValues := s.result.outValues ++ values }, bitVector := none }
  else if s.result.columns.isEmpty && !ctx.outputBindIndexes.isEmpty then do
    let values ← ctx.parseReturningRowData reader
    return { s with result := { s.result with returnValues := s.result.returnValues ++ values }, bitVector := none }
  else do
    let row ← ctx.parseRowData reader s
    return { s with result := { s.result with rows := s.result.rows ++ [row] }, bitVector := none }

/-- What the return parameters change. -/
def setParameters (s : QueryState J V) (params : QueryReturnParameters) : QueryState J V :=
  { s with result := { s.result with
      arrayDmlRowCounts :=
        if ctx.arraydmlrowcounts then some (params.rowCounts.getD []) else s.result.arrayDmlRowCounts
      queryId := params.queryId.or s.result.queryId } }

/-- The end of the call. -/
def serverError (s : QueryState J V) (info : ServerErrorInfo) : Flow ProtocolError (QueryState J V) :=
  let result := { s.result with
    txnInProgress := some (txnInProgress info.callStatus)
    cursorId := if info.cursorId ≠ 0 then info.cursorId else s.result.cursorId
    rowCount := info.rowCount
    compilationErrorWarning := s.result.compilationErrorWarning || info.compilationErrorWarning
    lastRowid := info.rowid }
  let s := { s with result, responseBoundarySeen := true }
  if info.number = tnsErrNoDataFound ∧ result.columns ≠ [] then
    .next { s with result := { result with moreRows := false } }
  else if info.number = tnsErrArrayDmlErrors then
    .next { s with result := { result with batchErrors := info.batchErrors } }
  else if info.number ≠ 0 then
    .fail (.serverErrorInfo { info.intoDetails with arrayDmlRowCounts := result.arrayDmlRowCounts })
  else .next s

/-- What follows the type of a message. -/
def body (reader : TtcReader) (payload : List UInt8) (s : QueryState J V) (messageType : UInt8) :
    Read (Flow ProtocolError (QueryState J V)) :=
  if messageType = 0 then return .next s
  else if messageType = tnsMsgTypeDescribeInfo then .next <$> ctx.describe reader s
  else if messageType = tnsMsgTypeRowHeader then do
    let bitVector ← parseRowHeader reader
    return .next { s with bitVector }
  else if messageType = tnsMsgTypeRowData then .next <$> ctx.rowData reader s
  else if messageType = tnsMsgTypeBitVector then do
    let bitVector ← parseBitVector reader s.result.columns.length
    return .next { s with bitVector := some bitVector }
  else if messageType = tnsMsgTypeParameter then do
    let params ← parseQueryReturnParameters reader ctx.arraydmlrowcounts
    return .next (ctx.setParameters s params)
  else if messageType = tnsMsgTypeStatus then do
    let callStatus ← reader.readUb4
    let _seq ← reader.readUb2
    return .next { s with
      result := { s.result with txnInProgress := some (txnInProgress callStatus) }, responseBoundarySeen := true }
  else if messageType = tnsMsgTypeIoVector then do
    let indexes ← parseIoVector reader ctx.bindColumns.length
    return .next { s with outBindIndexes := indexes.filter fun index => index ∉ ctx.outputBindIndexes }
  else if messageType = tnsMsgTypeFlushOutBinds ∨ messageType = tnsMsgTypeEndOfResponse then
    return .stop { s with responseBoundarySeen := true }
  else if messageType = tnsMsgTypeServerSidePiggyback then do
    let update ← skipServerSidePiggyback reader
    return .next { s with
      result := { s.result with sessionlessTxnState := update.or s.result.sessionlessTxnState } }
  else if messageType = tnsMsgTypeImplicitResultset then do
    let resultsets ← readImplicitResultsets reader ctx.capabilities
    return .next { s with result := { s.result with implicitResultsets := some resultsets } }
  else if messageType = tnsMsgTypeToken then do
    let token ← reader.readUb8
    return .next { s with result := { s.result with tokenNum := some token } }
  else if messageType = tnsMsgTypeError then do
    let info ← parseServerErrorInfo ctx.std reader ctx.capabilities.ttcFieldVersion
    return serverError s info
  else unknownQueryMessage ctx.std payload ctx.capabilities.ttcFieldVersion messageType

def message (reader : TtcReader) (payload : List UInt8) (s : QueryState J V) :
    Read (Flow ProtocolError (QueryState J V)) := do
  let messageType ← readU8
  ctx.body reader payload s messageType

end QueryContext

/-- A result only if the end of the response has been seen. -/
def finishQuery (s : QueryState J V) : Result (QueryResult J V) :=
  if s.responseBoundarySeen then .ok s.result else .error (.ttcDecode "incomplete query response")

def parseQueryResponseWithContextBindsOptionsLobModeAndLimits (ctx : QueryContext J V) (payload : List UInt8)
    (limits : ProtocolLimits) : Result (QueryResult J V) := do
  let reader ← TtcReader.withLimits payload limits
  let s ← scan (ctx.message reader payload) payload.length ctx.start payload
  finishQuery s

/-! ### On a prefix -/

section

variable {reader : TtcReader}

theorem loose_parseRowHeader : Loose reader parseRowHeader := by
  iterate 7 refine Tracks.bind inferInstance fun _ => ?_
  exact loose_readBytesWithLength.return _

instance firm_parseBitVector (numColumns : Nat) : Firm reader (parseBitVector · numColumns) := by
  unfold parseBitVector
  infer_instance

set_option synthInstance.maxSize 10000 in
instance firm_parseIoVector (bindCount : Nat) : Firm reader (parseIoVector · bindCount) := by
  unfold parseIoVector skipIf
  infer_instance

set_option synthInstance.maxSize 10000 in
instance firm_parseQueryReturnParameters (arraydmlrowcounts : Bool) :
    Firm reader (parseQueryReturnParameters · arraydmlrowcounts) := by
  unfold parseQueryReturnParameters skipKeywordValuePairs readRowCounts skipIf
  infer_instance

instance firm_readImplicitResultsets (capabilities : ClientCapabilities) :
    Firm reader fun r => (readImplicitResultsets r capabilities : Read (List (QueryValue J V))) := by
  have hresultset : Firm reader fun r => (readImplicitResultset r capabilities : Read (QueryValue J V)) := by
    refine follows_readU8.bind fun n => (follows_skip _).bind fun _ => ?_
    exact (loose_parseDescribeInfo capabilities).bind_lax (fun _ => inferInstance) fun _ _ _ => starved_of_eq rfl
  unfold readImplicitResultsets
  infer_instance

variable (ctx : QueryContext J V)

instance firm_parseRowData (s : QueryState J V) : Firm reader (ctx.parseRowData · s) := by
  unfold QueryContext.parseRowData
  infer_instance

instance firm_parseBoundValue (metadata : ColumnMetadata) (message : String) :
    Firm reader (ctx.parseBoundValue · metadata message) := by
  unfold QueryContext.parseBoundValue parseColumnValue
  infer_instance

instance firm_parseBoundValues (metadata : ColumnMetadata) (message : String) :
    Firm reader (ctx.parseBoundValues · metadata message) := by
  unfold QueryContext.parseBoundValues
  infer_instance

instance firm_rowData (s : QueryState J V) : Firm reader (ctx.rowData · s) := by
  unfold QueryContext.rowData QueryContext.parseOutBindRowData QueryContext.parseReturningRowData
  infer_instance

end

end OracleThin.Ttc

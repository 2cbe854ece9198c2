import OracleThin.Ttc.Query

/-!
# The zero-copy parser of fetch responses

The zero-copy path walks over the messages of a fetch response as the owned parser does, but of a row it only records
where it begins. The rows are decoded later, one at a time, in two passes: the first reads the columns and puts what
cannot be borrowed from the buffer into two arenas, the second resolves the references into the arenas.
-/

namespace OracleThin.Ttc

open Lib Lib.Parser Wire TtcReader

variable {J V : Type}

/-! ### Borrowed values -/

/-- A value of a row that is being looked at. -/
inductive QueryValueRef (J V : Type)
  | text (value : String)
  | raw (bytes : List UInt8)
  | number (text : String) (isInteger : Bool)
  | boolean (value : Bool)
  | intervalDS (days hours minutes seconds fseconds : Int)
  | intervalYM (years months : Int)
  | dateTime (time : CivilTime)
  | timestampTz (time : CivilTime) (offsetMinutes : Int)
  | timestampTzRegion (time : CivilTime) (region : OracleTimeZoneRegion)
  | owned (value : QueryValue J V)

def QueryValueRef.toOwnedValue : QueryValueRef J V → QueryValue J V
  | .text value => .text value
  | .raw bytes => .raw bytes
  | .number digits isInteger => .number (OracleNumber.fromCanonicalTextWithFlag digits isInteger)
  | .boolean value => .boolean value
  | .intervalDS days hours minutes seconds fseconds => .intervalDS days hours minutes seconds fseconds
  | .intervalYM years months => .intervalYM years months
  | .dateTime time => .dateTime time
  | .timestampTz time offsetMinutes => .timestampTz time offsetMinutes
  | .timestampTzRegion time region => .timestampTzRegion time region
  | .owned value => value

/-! ### The first pass over a row -/

/-- A column after the first pass. -/
inductive ColumnSlot (J V : Type)
  | null
  | wire (value : QueryValueRef J V)
  | number (first last : Nat) (isInteger : Bool)
  | owned (index : Nat)

/-- The texts of the numbers of a row, one behind the other, and the values that are not borrowed. -/
structure RowArena (J V : Type) where
  numbers : List Char := []
  owned : List (QueryValue J V) := []

/-- Puts a value into the arena. -/
def RowArena.park (arena : RowArena J V) : Option (QueryValue J V) → ColumnSlot J V × RowArena J V
  | none => (.null, arena)
  | some value => (.owned arena.owned.length, { arena with owned := arena.owned ++ [value] })

def RowArena.pushNumber (arena : RowArena J V) (text : String) (isInteger : Bool) : ColumnSlot J V × RowArena J V :=
  (.number arena.numbers.length (arena.numbers.length + text.toList.length) isInteger,
    { arena with numbers := arena.numbers ++ text.toList })

def TtcReader.BorrowedBytes.toOption : BorrowedBytes → Option (List UInt8)
  | .null => none
  | .slice bytes => some bytes
  | .chunked bytes => some bytes

/-- Text is borrowed if it is one piece of valid UTF-8. -/
def textSlot (std : StdLib) (csfrm : UInt8) (arena : RowArena J V) (bytes : BorrowedBytes) :
    Result (ColumnSlot J V × RowArena J V) :=
  match bytes with
  | .null => .ok (.null, arena)
  | .slice bytes =>
    if csfrm ≠ csFormNchar then
      match String.fromUTF8? (ByteArray.mk bytes.toArray) with
      | some text => .ok (.wire (.text text), arena)
      | none => .ok (arena.park (some (.textRaw bytes csfrm)))
    else do
      let value ← decodeText std csfrm bytes
      return arena.park (some value)
  | .chunked bytes => do
    let value ← decodeText std csfrm bytes
    return arena.park (some value)

def rawSlot (arena : RowArena J V) : BorrowedBytes → ColumnSlot J V × RowArena J V
  | .null => (.null, arena)
  | .slice bytes => (.wire (.raw bytes), arena)
  | .chunked bytes => arena.park (some (.raw bytes))

def numberSlot (arena : RowArena J V) (bytes : BorrowedBytes) : Result (ColumnSlot J V × RowArena J V) :=
  match bytes.toOption with
  | none => .ok (.null, arena)
  | some bytes => do
    let (text, isInteger) ← decodeNumberTextInto bytes
    return arena.pushNumber text isInteger

/-- The small values that are copied: booleans, intervals, dates and times. -/
def QueryValue.toRef : QueryValue J V → QueryValueRef J V ⊕ QueryValue J V
  | .boolean value => .inl (.boolean value)
  | .intervalDS days hours minutes seconds fseconds => .inl (.intervalDS days hours minutes seconds fseconds)
  | .intervalYM years months => .inl (.intervalYM years months)
  | .dateTime time => .inl (.dateTime time)
  | .timestampTz time offsetMinutes => .inl (.timestampTz time offsetMinutes)
  | .timestampTzRegion time region => .inl (.timestampTzRegion time region)
  | value => .inr value

def smallSlot (decode : List UInt8 → Result (QueryValue J V)) (arena : RowArena J V)
    (bytes : BorrowedBytes) : Result (ColumnSlot J V × RowArena J V) :=
  match bytes.toOption with
  | none => .ok (.null, arena)
  | some bytes => do
    match (← decode bytes).toRef with
    | .inl value => return (.wire value, arena)
    | .inr value => return arena.park (some value)

def parseColumnSlot (std : StdLib) (images : ImageDecoders J V) (reader : TtcReader) (metadata : ColumnMetadata)
    (arena : RowArena J V) (lobDecodeMode : LobDecodeMode) : Read (ColumnSlot J V × RowArena J V) :=
  let oraTypeNum := metadata.oraTypeNum
  if metadata.isNotSent then return (.null, arena)
  else if oraTypeNum = oraTypeNumVarchar ∨ oraTypeNum = oraTypeNumChar ∨ oraTypeNum = oraTypeNumLong then do
    let bytes ← reader.readBytesBorrowed
    textSlot std metadata.csfrm arena bytes
  else if oraTypeNum = oraTypeNumRaw ∨ oraTypeNum = oraTypeNumLongRaw then do
    let bytes ← reader.readBytesBorrowed
    return rawSlot arena bytes
  else if oraTypeNum = oraTypeNumNumber ∨ oraTypeNum = oraTypeNumBinaryInteger then do
    let bytes ← reader.readBytesBorrowed
    numberSlot arena bytes
  else if oraTypeNum = oraTypeNumBoolean then do
    let bytes ← reader.readBytesBorrowed
    smallSlot decodeBoolean arena bytes
  else if oraTypeNum = oraTypeNumIntervalDs then do
    let bytes ← reader.readBytesBorrowed
    smallSlot decodeIntervalDs arena bytes
  else if oraTypeNum = oraTypeNumIntervalYm then do
    let bytes ← reader.readBytesBorrowed
    smallSlot decodeIntervalYm arena bytes
  else if oraTypeNum = oraTypeNumDate ∨ oraTypeNum = oraTypeNumTimestamp ∨ oraTypeNum = oraTypeNumTimestampLtz ∨
      oraTypeNum = oraTypeNumTimestampTz then do
    let bytes ← reader.readBytesBorrowed
    smallSlot decodeDatetimeValue arena bytes
  else do
    let value ← parseColumnValueWithLobMode std images reader metadata lobDecodeMode
    return arena.park value

/-! ### Rows -/

/-- A batch of rows: the buffer with the response, and where the rows begin in it. -/
structure BorrowedRowBatch (J V : Type) where
  buffer : List UInt8
  columns : List ColumnMetadata
  rowStarts : List Nat
  rowBitVectors : List (Option (List UInt8))
  fetchLongStatus : Bool
  lobDecodeMode : LobDecodeMode
  previousRowSeed : Option (Row J V)

namespace BorrowedRowBatch

variable (std : StdLib) (images : ImageDecoders J V) (batch : BorrowedRowBatch J V)

/-- One column in the first pass. The value of a duplicate column goes into the arena. -/
def decodeSlot (reader : TtcReader) (bitVector : Option (List UInt8)) (previousOwned : Row J V)
    (metadata : ColumnMetadata) (index : Nat) (arena : RowArena J V) : Read (ColumnSlot J V × RowArena J V) :=
  if isDuplicateColumn bitVector index then return arena.park previousOwned[index]?.join
  else do
    let slot ← parseColumnSlot std images reader metadata arena batch.lobDecodeMode
    skipLongStatus reader batch.fetchLongStatus metadata
    return slot

def decodeSlots (reader : TtcReader) (bitVector : Option (List UInt8)) (previousOwned : Row J V) :
    List (ColumnMetadata × Nat) → RowArena J V → Read (List (ColumnSlot J V) × RowArena J V)
  | [], arena => return ([], arena)
  | (metadata, index) :: columns, arena => do
    let (slot, arena) ← batch.decodeSlot std images reader bitVector previousOwned metadata index arena
    let (slots, arena) ← decodeSlots reader bitVector previousOwned columns arena
    return (slot :: slots, arena)

/-- The second pass. An index into the arena is always in range. -/
def resolve (arena : RowArena J V) : ColumnSlot J V → Option (QueryValueRef J V)
  | .null => none
  | .wire value => some value
  | .number first last isInteger =>
    some (.number (String.ofList ((arena.numbers.drop first).take (last - first))) isInteger)
  | .owned index => arena.owned[index]?.map .owned

def decodeRow (start : Nat) (bitVector : Option (List UInt8)) (previousOwned : Row J V) :
    Result (List (Option (QueryValueRef J V))) := do
  let ((slots, arena), _) ←
    batch.decodeSlots std images { limits := .default } bitVector previousOwned batch.columns.zipIdx {}
      (batch.buffer.drop start)
  return slots.map (resolve arena)

/-- The rows from the given one on. The previous row is kept only if there are duplicate columns. -/
def rowsFrom : List Nat → Nat → Row J V → Result (List (List (Option (QueryValueRef J V))))
  | [], _, _ => return []
  | start :: starts, rowIndex, previousOwned => do
    let row ← batch.decodeRow std images start batch.rowBitVectors[rowIndex]?.join previousOwned
    let previousOwned :=
      if batch.rowBitVectors.isEmpty then previousOwned else row.map (Option.map QueryValueRef.toOwnedValue)
    let rows ← rowsFrom starts (rowIndex + 1) previousOwned
    return row :: rows

/-- The rows that are given to the callback, in order. -/
def forEachRowRef : Result (List (List (Option (QueryValueRef J V)))) :=
  batch.rowsFrom std images batch.rowStarts 0 (batch.previousRowSeed.getD [])

/-- The row that the owned parser reads at a place of the buffer. -/
def ownedRow (start : Nat) (bitVector : Option (List UInt8)) (previous : Option (Row J V)) : Result (Row J V) := do
  let ctx : QueryContext J V := { std, images, previousRow := previous, lobDecodeMode := batch.lobDecodeMode }
  let (row, _) ← ctx.parseRowData { limits := .default }
    { result := { columns := batch.columns }, fetchLongStatus := batch.fetchLongStatus, bitVector }
      (batch.buffer.drop start)
  return row

def ownedRowsFrom : List Nat → Nat → Option (Row J V) → Result (List (Row J V))
  | [], _, _ => return []
  | start :: starts, rowIndex, previous => do
    let row ← batch.ownedRow std images start batch.rowBitVectors[rowIndex]?.join previous
    let rows ← ownedRowsFrom starts (rowIndex + 1) (some row)
    return row :: rows

/-- What the owned parser makes of the rows of the batch, behind the same previous row. -/
def ownedRows : Result (List (Row J V)) :=
  batch.ownedRowsFrom std images batch.rowStarts 0 batch.previousRowSeed

end BorrowedRowBatch

/-! ### Walking over a response -/

structure BorrowedFetchResult (J V : Type) where
  batch : BorrowedRowBatch J V
  moreRows : Bool
  cursorId : Nat
  rowCount : Nat

/-- The variables of the loop. -/
structure BorrowedState where
  position : Nat := 0
  columns : List ColumnMetadata
  moreRows : Bool := true
  cursorId : Nat := 0
  rowCount : Nat := 0
  rowStarts : List Nat := []
  rowBitVectors : List (Option (List UInt8)) := []
  anyBitVector : Bool := false
  pendingBitVector : Option (List UInt8) := none
  responseBoundarySeen : Bool := false

/-- The types that are one byte string, as the walk over a row has them. -/
def byteFieldTypes : List UInt8 :=
  [oraTypeNumVarchar, oraTypeNumChar, oraTypeNumLong, oraTypeNumRaw, oraTypeNumLongRaw, oraTypeNumNumber,
    oraTypeNumBinaryInteger, oraTypeNumBinaryDouble, oraTypeNumBinaryFloat, oraTypeNumBoolean, oraTypeNumIntervalDs,
    oraTypeNumIntervalYm, oraTypeNumDate, oraTypeNumTimestamp, oraTypeNumTimestampLtz, oraTypeNumTimestampTz]

def skipColumn (std : StdLib) (images : ImageDecoders J V) (reader : TtcReader) (metadata : ColumnMetadata)
    (lobDecodeMode : LobDecodeMode) : Read Unit :=
  if metadata.bufferSize ≠ 0 ∧ metadata.oraTypeNum ∈ byteFieldTypes then reader.skipBytesField
  else do
    let _ ← parseColumnValueWithLobMode std images reader metadata lobDecodeMode

def skipRowData (std : StdLib) (images : ImageDecoders J V) (reader : TtcReader) (columns : List ColumnMetadata)
    (bitVector : Option (List UInt8)) (fetchLongStatus : Bool) (lobDecodeMode : LobDecodeMode) : Read Unit := do
  let _ ← Parser.each (fun (metadata, index) =>
    if isDuplicateColumn bitVector index then return ()
    else do
      skipColumn std images reader metadata lobDecodeMode
      skipLongStatus reader fetchLongStatus metadata) columns.zipIdx

structure BorrowedContext (J V : Type) where
  std : StdLib
  images : ImageDecoders J V
  capabilities : ClientCapabilities := {}
  columns : List ColumnMetadata := []
  previousRow : Option (Row J V) := none
  lobDecodeMode : LobDecodeMode := .plainLocator

namespace BorrowedContext

variable (ctx : BorrowedContext J V)

def describe (reader : TtcReader) (s : BorrowedState) : Read BorrowedState := do
  let _describeName ← reader.readBytes
  let described ← parseDescribeInfo reader ctx.capabilities
  return { s with columns := (adjustColumns s.columns described).map Prod.fst }

/-- Records where a row begins, behind the type of its message, and walks over it. -/
def rowData (reader : TtcReader) (s : BorrowedState) : Read BorrowedState := do
  reader.limits.checkBatchRows (s.rowStarts.length + 1)
  skipRowData ctx.std ctx.images reader s.columns s.pendingBitVector true ctx.lobDecodeMode
  return { s with
    rowStarts := s.rowStarts ++ [s.position + 1]
    rowBitVectors := s.rowBitVectors ++ [s.pendingBitVector]
    anyBitVector := s.anyBitVector || s.pendingBitVector.isSome
    pendingBitVector := none }

/-- The end of the call. -/
def serverError (s : BorrowedState) (info : ServerErrorInfo) : Flow ProtocolError BorrowedState :=
  let s := { s with
    responseBoundarySeen := true
    cursorId := if info.cursorId ≠ 0 then info.cursorId else s.cursorId
    rowCount := info.rowCount }
  if info.number = tnsErrNoDataFound ∧ s.columns ≠ [] then .next { s with moreRows := false }
  else if info.number ≠ 0 ∧ info.number ≠ tnsErrArrayDmlErrors then .fail (.serverErrorInfo info.intoDetails)
  else .next s

/-- What follows the type of a message. -/
def body (reader : TtcReader) (payload : List UInt8) (s : BorrowedState) (messageType : UInt8) :
    Read (Flow ProtocolError BorrowedState) :=
  if messageType = 0 then return .next s
  else if messageType = tnsMsgTypeDescribeInfo then .next <$> ctx.describe reader s
  else if messageType = tnsMsgTypeRowHeader then do
    let bitVector ← parseRowHeader reader
    return .next { s with pendingBitVector := bitVector }
  else if messageType = tnsMsgTypeBitVector then do
    let bitVector ← parseBitVector reader s.columns.length
    return .next { s with pendingBitVector := some bitVector }
  else if messageType = tnsMsgTypeRowData then .next <$> ctx.rowData reader s
  else if messageType = tnsMsgTypeParameter then do
    let _params ← parseQueryReturnParameters reader false
    return .next s
  else if messageType = tnsMsgTypeStatus then do
    let _callStatus ← reader.readUb4
    let _seq ← reader.readUb2
    return .next { s with responseBoundarySeen := true }
  else if messageType = tnsMsgTypeServerSidePiggyback then do
    let _update ← skipServerSidePiggyback reader
    return .next s
  else if messageType = tnsMsgTypeFlushOutBinds ∨ messageType = tnsMsgTypeEndOfResponse then
    return .stop { s with responseBoundarySeen := true }
  else if messageType = tnsMsgTypeToken then do
    let _token ← reader.readUb8
    return .next s
  else if messageType = tnsMsgTypeImplicitResultset then do
    let _resultsets ← (readImplicitResultsets reader ctx.capabilities : Read (List (QueryValue J V)))
    return .next s
  else if messageType = tnsMsgTypeError then do
    let info ← parseServerErrorInfo ctx.std reader ctx.capabilities.ttcFieldVersion
    return serverError s info
  else unknownQueryMessage ctx.std payload ctx.capabilities.ttcFieldVersion messageType

/-- The position of the reader after a message. -/
def advance (consumed : Nat) : Flow ProtocolError BorrowedState → Flow ProtocolError BorrowedState
  | .next s => .next { s with position := s.position + consumed }
  | .stop s => .stop s
  | .fail e => .fail e

def message (reader : TtcReader) (payload : List UInt8) (s : BorrowedState) :
    Read (Flow ProtocolError BorrowedState) := do
  let (flow, consumed) ← Parser.counted (do
    let messageType ← readU8
    ctx.body reader payload s messageType)
  return advance consumed flow

/-- The batch, if the end of the response has been seen. Without duplicate columns the bit vectors are dropped. -/
def finish (payload : List UInt8) (s : BorrowedState) : Result (BorrowedFetchResult J V) :=
  if s.responseBoundarySeen then
    .ok {
      batch := {
        buffer := payload, columns := s.columns, rowStarts := s.rowStarts
        rowBitVectors := if s.anyBitVector then s.rowBitVectors else []
        fetchLongStatus := true, lobDecodeMode := ctx.lobDecodeMode
        previousRowSeed := if s.anyBitVector then some (ctx.previousRow.getD []) else none }
      moreRows := s.moreRows, cursorId := s.cursorId, rowCount := s.rowCount }
  else .error (.ttcDecode "incomplete query response")

end BorrowedContext

def parseQueryResponseBorrowedWithLobModeAndLimits (ctx : BorrowedContext J V) (payload : List UInt8)
    (limits : ProtocolLimits) : Result (BorrowedFetchResult J V) := do
  let reader ← TtcReader.withLimits payload limits
  reader.limits.checkColumns ctx.columns.length
  let s ← scan (ctx.message reader payload) payload.length { columns := ctx.columns } payload
  ctx.finish payload s

/-! ### On a prefix -/

section

variable {reader : TtcReader}

instance firm_skipRowData (std : StdLib) (images : ImageDecoders J V) (columns : List ColumnMetadata)
    (bitVector : Option (List UInt8)) (fetchLongStatus : Bool) (mode : LobDecodeMode) :
    Firm reader (skipRowData std images · columns bitVector fetchLongStatus mode) := by
  unfold skipRowData skipColumn
  infer_instance

instance firm_borrowedRowData (ctx : BorrowedContext J V) (s : BorrowedState) : Firm reader (ctx.rowData · s) := by
  unfold BorrowedContext.rowData
  infer_instance

end

/-! ### One field, three readers -/

theorem TtcReader.readBytes_eq_map (reader : TtcReader) :
    reader.readBytes = BorrowedBytes.toOption <$> reader.readBytesBorrowed := by
  simp [readBytes, readBytesBorrowed, apply_ite (Functor.map _), BorrowedBytes.toOption]

/-- Reading a field owned, reading it borrowed and skipping it fail alike, or end at the same place with the same
bytes. -/
theorem byteFieldReaders_agree (reader : TtcReader) (input : List UInt8) :
    match reader.readBytes input with
    | .error e => reader.readBytesBorrowed input = .error e ∧ reader.skipBytesField input = .error e
    | .ok (bytes, rest) =>
      (∃ borrowed, reader.readBytesBorrowed input = .ok (borrowed, rest) ∧ borrowed.toOption = bytes) ∧
        reader.skipBytesField input = .ok ((), rest) := by
  have hskip : reader.skipBytesField = (fun _ => ()) <$> reader.readBytesBorrowed := by
    simp [skipBytesField, skip, skipChunks_eq, readBytesBorrowed, apply_ite (Functor.map _)]
  rw [readBytes_eq_map, hskip, map_apply, map_apply]
  cases reader.readBytesBorrowed input with
  | error e => exact ⟨rfl, rfl⟩
  | ok result => exact ⟨⟨result.1, rfl, rfl⟩, rfl⟩

end OracleThin.Ttc

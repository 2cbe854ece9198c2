import OracleThin.Ttc.Describe

/-!
# Reading column values

The owned decoder of one column of a row. Most types are a byte string that is decoded as a whole; LOB locators,
VECTOR and JSON images, objects, rowids and cursors have fields of their own.
-/

namespace OracleThin.Ttc

open Lib Lib.Parser Wire

variable {J V : Type}

/-- Whether a LOB locator comes with the size and the chunk size of the LOB. -/
inductive LobDecodeMode
  | plainLocator
  | defineMetadata
deriving DecidableEq, Repr

/-! ### Rowids -/

def parseRowidValue (reader : TtcReader) : Read (Option String) := do
  let len ← readU8
  if len = 0 ∨ len = tnsNullLengthIndicator then return none
  else do
    let rba ← reader.readUb4
    let partitionId ← reader.readUb2
    reader.skip 1
    let blockNum ← reader.readUb4
    let slotNum ← reader.readUb2
    return some (encodePhysicalRowid rba partitionId blockNum slotNum)

/-- Base 64 of a logical rowid, three bytes at a time. -/
def encodeLogicalGroups : List UInt8 → List Char
  | [] => []
  | [a] => [base64Char (a >>> 2).toNat, base64Char ((a &&& 0x03) <<< 4).toNat]
  | [a, b] =>
    [base64Char (a >>> 2).toNat, base64Char (((a &&& 0x03) <<< 4) ||| ((b &&& 0xf0) >>> 4)).toNat,
      base64Char ((b &&& 0x0f) <<< 2).toNat]
  | a :: b :: c :: rest =>
    base64Char (a >>> 2).toNat :: base64Char (((a &&& 0x03) <<< 4) ||| ((b &&& 0xf0) >>> 4)).toNat ::
      base64Char (((b &&& 0x0f) <<< 2) ||| ((c &&& 0xc0) >>> 6)).toNat :: base64Char (c &&& 0x3f).toNat ::
      encodeLogicalGroups rest

def encodeLogicalUrowid (bytes : List UInt8) : String := String.ofList ('*' :: encodeLogicalGroups (bytes.drop 1))

def decodeUrowid (bytes : List UInt8) : Result String :=
  if bytes.length < 13 then .error (.ttcDecode "encoded UROWID too short")
  else if bytes.head? = some 1 then
    .ok (encodePhysicalRowid (ofBe ((bytes.drop 1).take 4)) (ofBe ((bytes.drop 5).take 2))
      (ofBe ((bytes.drop 7).take 4))
      (ofBe ((bytes.drop 11).take 2)))
  else .ok (encodeLogicalUrowid bytes)

/-- Decodes a value that is not NULL. -/
def decodePresent {α β : Type} (decode : α → Result β) : Option α → Result (Option β)
  | none => .ok none
  | some a => do
    let b ← decode a
    return some b

def parseUrowidValue (reader : TtcReader) : Read (Option String) := do
  let present ← reader.readBytes
  if present = none then return none
  else do
    let bytes ← reader.readBytes
    decodePresent decodeUrowid bytes

/-! ### LOBs and images -/

def readLobSizes (reader : TtcReader) (withSizes : Bool) : Read (Nat × Nat) :=
  if withSizes then do
    let size ← reader.readUb8
    let chunkSize ← reader.readUb4
    return (size, chunkSize)
  else return (0, 0)

def parseLobValue (reader : TtcReader) (metadata : ColumnMetadata) (lobDecodeMode : LobDecodeMode) :
    Read (Option (QueryValue J V)) := do
  let numBytes ← reader.readUb4
  reader.limits.checkResponseBytes numBytes
  if numBytes = 0 then return none
  else do
    let (size, chunkSize) ←
      readLobSizes reader (metadata.oraTypeNum ≠ oraTypeNumBfile ∧ lobDecodeMode = .defineMetadata)
    let locator ← reader.readBytes
    return locator.map fun locator =>
      .lob { oraTypeNum := metadata.oraTypeNum, csfrm := metadata.csfrm, locator, size, chunkSize }

/-- An image that comes before its locator, which is not used. An empty image stands for NULL. -/
def parseImage (reader : TtcReader) (decode : List UInt8 → Result (QueryValue J V)) :
    Read (Option (QueryValue J V)) := do
  let numBytes ← reader.readUb4
  reader.limits.checkResponseBytes numBytes
  if numBytes = 0 then return none
  else do
    let _size ← reader.readUb8
    let _chunkSize ← reader.readUb4
    let data ← reader.readBytes
    match data with
    | none => return none
    | some data => do
      let _locator ← reader.readBytes
      if data = [] then return none
      else do
        let value ← decode data
        return some value

def parseVectorValue (images : ImageDecoders J V) (reader : TtcReader) : Read (Option (QueryValue J V)) :=
  parseImage reader fun data => .vector <$> images.decodeVectorWithLimits data reader.limits

def parseJsonValue (images : ImageDecoders J V) (reader : TtcReader) : Read (Option (QueryValue J V)) :=
  parseImage reader fun data => .json <$> images.decodeOsonWithLimits data reader.limits

def parseObjectValue (reader : TtcReader) (metadata : ColumnMetadata) : Read (Option (QueryValue J V)) := do
  let _toid ← reader.readBytesWithLength
  let _oid ← reader.readBytesWithLength
  let _snapshot ← reader.readBytesWithLength
  let _version ← reader.readUb2
  let numBytes ← reader.readUb4
  reader.limits.checkResponseBytes numBytes
  reader.skip 2
  if numBytes = 0 then return none
  else do
    let packedData ← reader.readBytes
    return packedData.map fun packedData => .object metadata.objectSchema metadata.objectTypeName packedData

def parseCursorValue (reader : TtcReader) : Read (QueryValue J V) := do
  reader.skip 1
  let columns ← parseDescribeInfo reader {}
  let cursorId ← reader.readUb2
  return .cursor columns cursorId

/-! ### Scalars -/

/-- Text that cannot be decoded is kept as bytes. -/
def decodeText (std : StdLib) (csfrm : UInt8) (bytes : List UInt8) : Result (QueryValue J V) :=
  match decodeTextValue std bytes csfrm with
  | .ok text => .ok (.text text)
  | .error (.ttcDecode _) => .ok (.textRaw bytes csfrm)
  | .error e => .error e

def decodeBoolean (bytes : List UInt8) : Result (QueryValue J V) :=
  .ok (.boolean (bytes.getLast? == some 1))

/-- The decoder of the types that are one byte string. -/
def scalarDecoder (std : StdLib) (metadata : ColumnMetadata) : Option (List UInt8 → Result (QueryValue J V)) :=
  let oraTypeNum := metadata.oraTypeNum
  if oraTypeNum = oraTypeNumVarchar ∨ oraTypeNum = oraTypeNumChar ∨ oraTypeNum = oraTypeNumLong then
    some (decodeText std metadata.csfrm)
  else if oraTypeNum = oraTypeNumRaw ∨ oraTypeNum = oraTypeNumLongRaw then some fun bytes => .ok (.raw bytes)
  else if oraTypeNum = oraTypeNumNumber ∨ oraTypeNum = oraTypeNumBinaryInteger then some decodeNumberValue
  else if oraTypeNum = oraTypeNumBinaryDouble then
    some fun bytes => (.binaryDouble <| std.displayF64 ·) <$> decodeBinaryDouble bytes
  else if oraTypeNum = oraTypeNumBinaryFloat then
    some fun bytes => (.binaryDouble <| std.displayF32 ·) <$> decodeBinaryFloat bytes
  else if oraTypeNum = oraTypeNumBoolean then some decodeBoolean
  else if oraTypeNum = oraTypeNumIntervalDs then some decodeIntervalDs
  else if oraTypeNum = oraTypeNumIntervalYm then some decodeIntervalYm
  else if oraTypeNum = oraTypeNumDate ∨ oraTypeNum = oraTypeNumTimestamp ∨ oraTypeNum = oraTypeNumTimestampLtz ∨
      oraTypeNum = oraTypeNumTimestampTz then
    some decodeDatetimeValue
  else none

/-- A byte string that is decoded as a whole. -/
def readScalar (reader : TtcReader) (decode : List UInt8 → Result (QueryValue J V)) :
    Read (Option (QueryValue J V)) := do
  let bytes ← reader.readBytes
  decodePresent decode bytes

/-! ### Columns -/

/-- A column without a buffer is NULL and not sent, unless its type has no buffer size. -/
def ColumnMetadata.isNotSent (metadata : ColumnMetadata) : Bool :=
  metadata.bufferSize = 0 ∧ metadata.oraTypeNum ≠ oraTypeNumLong ∧ metadata.oraTypeNum ≠ oraTypeNumLongRaw ∧
    metadata.oraTypeNum ≠ oraTypeNumUrowid

/-- The types with fields of their own. -/
def parseCompositeValue (images : ImageDecoders J V) (reader : TtcReader) (metadata : ColumnMetadata)
    (lobDecodeMode : LobDecodeMode) : Read (Option (QueryValue J V)) :=
  let oraTypeNum := metadata.oraTypeNum
  if oraTypeNum = oraTypeNumRowid then (Option.map .rowid) <$> parseRowidValue reader
  else if oraTypeNum = oraTypeNumUrowid then (Option.map .rowid) <$> parseUrowidValue reader
  else if oraTypeNum = oraTypeNumClob ∨ oraTypeNum = oraTypeNumBlob ∨ oraTypeNum = oraTypeNumBfile then
    parseLobValue reader metadata lobDecodeMode
  else if oraTypeNum = oraTypeNumVector then parseVectorValue images reader
  else if oraTypeNum = oraTypeNumJson then parseJsonValue images reader
  else if oraTypeNum = oraTypeNumCursor then some <$> parseCursorValue reader
  else if oraTypeNum = oraTypeNumObject then parseObjectValue reader metadata
  else throw (.unsupportedFeature "query column type")

def parseColumnValueWithLobMode (std : StdLib) (images : ImageDecoders J V) (reader : TtcReader)
    (metadata : ColumnMetadata) (lobDecodeMode : LobDecodeMode) : Read (Option (QueryValue J V)) :=
  if metadata.isNotSent then return none
  else
    match scalarDecoder std metadata with
    | some decode => readScalar reader decode
    | none => parseCompositeValue images reader metadata lobDecodeMode

def parseColumnValue (std : StdLib) (images : ImageDecoders J V) (reader : TtcReader) (metadata : ColumnMetadata) :
    Read (Option (QueryValue J V)) :=
  parseColumnValueWithLobMode std images reader metadata .defineMetadata

/-- Whether the previous row has the same value in the column, which is then not sent. -/
def isDuplicateColumn (bitVector : Option (List UInt8)) (columnNum : Nat) : Bool :=
  match bitVector with
  | none => false
  | some bitVector =>
    match bitVector[columnNum / 8]? with
    | some byte => byte &&& (1 <<< UInt8.ofNat (columnNum % 8)) == 0
    | none => false

/-- The status behind a LONG value. -/
def skipLongStatus (reader : TtcReader) (fetchLongStatus : Bool) (metadata : ColumnMetadata) : Read Unit :=
  if fetchLongStatus && metadata.isLong then do
    let _nullIndicator ← reader.readSb4
    let _returnCode ← reader.readUb4
  else return ()

/-! ### On a prefix -/

section

variable {reader : TtcReader}

instance firm_parseRowidValue : Firm reader parseRowidValue := by
  unfold parseRowidValue
  infer_instance

instance firm_parseUrowidValue : Firm reader parseUrowidValue := by
  unfold parseUrowidValue
  infer_instance

instance firm_parseLobValue (metadata : ColumnMetadata) (mode : LobDecodeMode) :
    Firm reader fun r => (parseLobValue r metadata mode : Read (Option (QueryValue J V))) := by
  unfold parseLobValue readLobSizes
  infer_instance

instance firm_parseImage (decode : List UInt8 → Result (QueryValue J V)) :
    Firm reader (parseImage · decode) := by
  refine follows_readUb4.bind fun n => (tracks_lift _).bind fun _ => ?_
  split
  · infer_instance
  · refine follows_readUb8.bind fun _ => follows_readUb4.bind fun _ => follows_readBytes.bind fun data => ?_
    split <;> infer_instance

instance firm_parseObjectValue (metadata : ColumnMetadata) :
    Firm reader fun r => (parseObjectValue r metadata : Read (Option (QueryValue J V))) := by
  refine loose_readBytesWithLength.bind_lax (fun _ => ?_) fun _ _ _ => starved_of_eq rfl
  refine loose_readBytesWithLength.bind_lax (fun _ => ?_) fun _ _ _ => starved_of_eq rfl
  refine loose_readBytesWithLength.bind_lax (fun _ => ?_) fun _ _ _ => starved_of_eq rfl
  infer_instance

instance firm_parseCursorValue : Firm reader (parseCursorValue : TtcReader → Read (QueryValue J V)) := by
  refine (follows_skip 1).bind fun _ => ?_
  exact (loose_parseDescribeInfo {}).bind_lax (fun _ => inferInstance) fun _ _ _ => starved_of_eq rfl

instance firm_parseCompositeValue (images : ImageDecoders J V) (metadata : ColumnMetadata) (mode : LobDecodeMode) :
    Firm reader (parseCompositeValue images · metadata mode) := by
  unfold parseCompositeValue parseVectorValue parseJsonValue
  dsimp only
  infer_instance

instance firm_parseColumnValueWithLobMode (std : StdLib) (images : ImageDecoders J V) (metadata : ColumnMetadata)
    (mode : LobDecodeMode) : Firm reader (parseColumnValueWithLobMode std images · metadata mode) := by
  unfold parseColumnValueWithLobMode readScalar
  split
  · infer_instance
  · split <;> infer_instance

instance firm_skipLongStatus (fetchLongStatus : Bool) (metadata : ColumnMetadata) :
    Firm reader (skipLongStatus · fetchLongStatus metadata) := by
  unfold skipLongStatus
  infer_instance

end

end OracleThin.Ttc

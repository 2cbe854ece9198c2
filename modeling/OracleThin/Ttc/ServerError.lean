import OracleThin.Ttc.Prefix

/-!
# ERROR messages and server-side piggybacks

The ERROR message ends a call, with number 0 if it succeeded. A server-side piggyback may stand anywhere in a
response.
-/

namespace OracleThin.Ttc

open Lib Lib.Parser Wire

/-- The functions of the standard library that the driver applies to texts and floating-point numbers. -/
structure StdLib where
  fromUtf8Lossy : List UInt8 → String
  /-- The text of a sequence of UTF-16 units, if it is valid. -/
  fromUtf16 : List Nat → Option String
  trim : String → String
  trimEnd : String → String
  /-- The text of the double with the given bits. -/
  displayF64 : Nat → String
  /-- The text of the single with the given bits, as a double. -/
  displayF32 : Nat → String

/-! ### Rowids -/

def tnsBase64Alphabet : List Char := "ABCDEFGHIJKLMNOPQRSTUVWXYZabcdefghijklmnopqrstuvwxyz0123456789+/".toList

def base64Char (index : Nat) : Char := tnsBase64Alphabet.getD index 'A'

/-- The `size` low digits of `value` in base 64. -/
def encodeRowidComponent (value : Nat) : Nat → List Char
  | 0 => []
  | size + 1 => encodeRowidComponent (value / 64) size ++ [base64Char (value % 64)]

def encodePhysicalRowid (rba partitionId blockNum slotNum : Nat) : String :=
  String.ofList (encodeRowidComponent rba 6 ++ encodeRowidComponent partitionId 3 ++
    encodeRowidComponent blockNum 6 ++
    encodeRowidComponent slotNum 3)

def encodeRowid (rba partitionId blockNum slotNum : Nat) : Option String :=
  if rba = 0 ∧ partitionId = 0 ∧ blockNum = 0 ∧ slotNum = 0 then none
  else some (encodePhysicalRowid rba partitionId blockNum slotNum)

def readRowid (reader : TtcReader) : Read (Option String) := do
  let rba ← reader.readUb4
  let partitionId ← reader.readUb2
  reader.skip 1
  let blockNum ← reader.readUb4
  let slotNum ← reader.readUb2
  return encodeRowid rba partitionId blockNum slotNum

/-! ### The ERROR message -/

structure BatchServerError where
  code : Nat
  offset : Nat := 0
  message : String := ""
deriving DecidableEq, Repr

structure ServerErrorInfo where
  number : Nat
  message : String
  cursorId : Nat
  pos : Int
  rowCount : Nat
  rowid : Option String
  batchErrors : List BatchServerError
  compilationErrorWarning : Bool
  callStatus : Nat
deriving DecidableEq, Repr

def ServerErrorInfo.intoDetails (info : ServerErrorInfo) : ServerErrorDetails where
  message := info.message
  code := info.number
  cursorId := info.cursorId
  pos := info.pos
  rowCount := info.rowCount
  rowid := info.rowid
  arrayDmlRowCounts := none

/-- `ORA-` and the number with at least five digits. -/
def oraCode (number : Nat) : String :=
  let digits := toString number
  "ORA-" ++ String.ofList (List.replicate (5 - digits.length) '0') ++ digits

/-- An element of a batch array, after its chunk length if the array is chunked. -/
def readBatchElement (reader : TtcReader) (chunked : Bool) (element : Read Nat) : Read Nat :=
  if chunked then do
    let _chunkLen ← reader.readUb4
    element
  else element

/-- An array of a batch: `count` elements after a first byte that says whether it is chunked. -/
def readBatchArray (reader : TtcReader) (count : Nat) (element : Read Nat) : Read (List Nat) :=
  if count = 0 then return []
  else do
    let firstByte ← readU8
    let chunked : Bool := firstByte = tnsLongLengthIndicator
    let values ← Parser.many (readBatchElement reader chunked element) count
    (if chunked then reader.skip 1 else pure ())
    return values

def readBatchMessage (std : StdLib) (reader : TtcReader) : Read String := do
  let _chunkLen ← reader.readUb2
  let bytes ← reader.readBytes
  reader.skip 2
  return bytes.elim "" fun bytes => std.trimEnd (std.fromUtf8Lossy bytes)

def readBatchMessages (std : StdLib) (reader : TtcReader) (count : Nat) : Read (List String) :=
  if count = 0 then return []
  else do
    reader.skip 1
    Parser.many (readBatchMessage std reader) count

/-- Gives the entries of a batch their values, as far as there are both. -/
def assignBatch {α : Type} (set : BatchServerError → α → BatchServerError) :
    List BatchServerError → List α → List BatchServerError
  | entry :: entries, value :: values => set entry value :: assignBatch set entries values
  | entries, _ => entries

def tnsCcapFieldVersion201 : Nat := 14

def readsErrorSqlTypeAndChecksum (ttcFieldVersion : Nat) : Bool := tnsCcapFieldVersion201 ≤ ttcFieldVersion

/-- Whether the SQL type and the checksum are there: by the version, or because more than two bytes are left and the
next one is zero. -/
def hasSqlTypeAndChecksum (reader : TtcReader) (ttcFieldVersion : Nat) : Read Bool := fun input =>
  if readsErrorSqlTypeAndChecksum ttcFieldVersion then .ok (true, input)
  else if 2 < input.length ∧ input.head? = some 0 then
    -- The driver refuses nothing here.
    if reader.plain then .error (.unsupportedFeature "SQL type before 20.1") else .ok (true, input)
  else .ok (false, input)

def skipSqlTypeAndChecksum (reader : TtcReader) (ttcFieldVersion : Nat) : Read Unit := do
  let present ← hasSqlTypeAndChecksum reader ttcFieldVersion
  if present then do
    let _sqlType ← reader.readUb4
    let _serverChecksum ← reader.readUb4
  else return ()

def readErrorMessage (std : StdLib) (reader : TtcReader) (number : Nat) : Read String :=
  if number ≠ 0 then do
    let bytes ← reader.readBytes
    return bytes.elim (oraCode number) fun bytes => std.trim (std.fromUtf8Lossy bytes)
  else return ""

def parseServerErrorInfo (std : StdLib) (reader : TtcReader) (ttcFieldVersion : Nat) : Read ServerErrorInfo := do
  let callStatus ← reader.readUb4
  let _seq ← reader.readUb2
  let _currentRow ← reader.readUb4
  let _errorNumber ← reader.readUb2
  let _arrayElemError1 ← reader.readUb2
  let _arrayElemError2 ← reader.readUb2
  let cursorId ← reader.readUb2
  let errorPos ← reader.readSb4
  reader.skip 5
  let warningFlags ← readU8
  let rowid ← readRowid reader
  let _osError ← reader.readUb4
  reader.skip 2
  let _padding ← reader.readUb2
  let _successIters ← reader.readUb4
  let _logicalRowid ← reader.readBytesWithLength
  let batchErrorCount ← reader.readUb2
  let codes ← readBatchArray reader batchErrorCount reader.readUb2
  let batchOffsetCount ← reader.readUb4
  let offsets ← readBatchArray reader batchOffsetCount reader.readUb4
  let batchMessageCount ← reader.readUb2
  let messages ← readBatchMessages std reader batchMessageCount
  let number ← reader.readUb4
  let rowCount ← reader.readUb8
  skipSqlTypeAndChecksum reader ttcFieldVersion
  let message ← readErrorMessage std reader number
  let batchErrors := codes.map fun code => { code }
  let batchErrors := assignBatch (fun entry offset => { entry with offset }) batchErrors offsets
  let batchErrors := assignBatch (fun entry message => { entry with message }) batchErrors messages
  return {
    number, message, cursorId, rowCount, rowid, batchErrors, callStatus
    pos := max errorPos 0
    compilationErrorWarning := warningFlags &&& 0x20 ≠ 0 }

/-- The text of the error of an ERROR message, if there is one. -/
def parseServerError (std : StdLib) (reader : TtcReader) (ttcFieldVersion : Nat) : Read (Option String) := do
  let info ← parseServerErrorInfo std reader ttcFieldVersion
  return if info.number = 0 then none
    else if info.message = "" then some (oraCode info.number)
    else some info.message

/-! ### On a prefix -/

section

variable {reader : TtcReader} {strict : Prop}

instance follows_readRowid : Follows strict reader readRowid := by
  unfold readRowid
  infer_instance

instance follows_readBatchArray (count : Nat) {q p : Read Nat} [Tracks IsDecode strict (fun _ => False) q p] :
    Tracks IsDecode strict (fun _ => False) (readBatchArray reader count q)
    (readBatchArray reader.driver count p) := by
  unfold readBatchArray readBatchElement
  infer_instance

instance follows_readBatchMessages (std : StdLib) (count : Nat) :
    Follows strict reader (readBatchMessages std · count) := by
  unfold readBatchMessages readBatchMessage
  infer_instance

/-- A plain reader, and every reader from 20.1 on, finds the pair or its absence on the prefixes as well. -/
theorem firm_hasSqlTypeAndChecksum {version : Nat}
    (h : reader.plain = true ∨ readsErrorSqlTypeAndChecksum version = true) :
    Firm reader (hasSqlTypeAndChecksum · version) := by
  refine ⟨fun b present r hq => ?_⟩
  unfold hasSqlTypeAndChecksum at hq ⊢
  by_cases hversion : readsErrorSqlTypeAndChecksum version = true
  · simp only [if_pos hversion] at hq ⊢
    cases hq
    exact ⟨[], rfl, fun _ _ => rfl, fun _ t ht hne => absurd (List.prefix_nil.1 ht) hne⟩
  · have hplain : reader.plain = true := h.resolve_right hversion
    simp only [if_neg hversion, if_pos hplain] at hq ⊢
    split at hq
    · cases hq
    · rename_i habsent
      cases hq
      refine ⟨[], rfl, fun s hs => ?_, fun _ t ht hne => absurd (List.prefix_nil.1 ht) hne⟩
      rw [List.nil_append, if_neg]
      rintro ⟨hlen, hhead⟩
      obtain ⟨z, rfl⟩ := hs
      cases s with
      | nil => cases hhead
      | cons x xs => exact habsent ⟨by rw [List.length_append]; omega, hhead⟩

set_option synthInstance.maxSize 4000 in
theorem firm_parseServerErrorInfo (std : StdLib) {version : Nat}
    (h : reader.plain = true ∨ readsErrorSqlTypeAndChecksum version = true) :
    Firm reader (parseServerErrorInfo std · version) := by
  have := firm_hasSqlTypeAndChecksum h
  unfold parseServerErrorInfo skipSqlTypeAndChecksum readErrorMessage
  iterate 15 refine Tracks.bind inferInstance fun _ => ?_
  -- A logical rowid that is cut may be taken as raw bytes; then the count after it is missing.
  exact loose_readBytesWithLength.bind_lax (fun _ => inferInstance) fun _ _ _ => starved_of_eq rfl

end

end OracleThin.Ttc

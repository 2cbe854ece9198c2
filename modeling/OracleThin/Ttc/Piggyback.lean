import OracleThin.Ttc.ServerError

/-!
# Server-side piggybacks

A server-side piggyback may stand anywhere in a response. The driver skips it; of a SYNC piggyback it keeps what it
says about a sessionless transaction.
-/

namespace OracleThin.Ttc

open Lib Lib.Parser Wire

/-! ### Keyword and value pairs -/

inductive SessionlessTxnState
  | unset
  | set (startedOnServer : Bool)
deriving DecidableEq, Repr

def tnsTpcTxnidSyncSet : UInt8 := 0x40
def tnsTpcTxnidSyncUnset : UInt8 := 0x80
def tnsTpcTxnidSyncServer : UInt8 := 0x01
def tnsKeywordNumTransactionId : Nat := 201

/-- The state is in the last byte but one, the version in the last. -/
def decodeSessionlessTxnState (binary : List UInt8) : Result (Option SessionlessTxnState) :=
  match binary.reverse with
  | syncVersion :: state :: _ =>
    if syncVersion ≠ 1 then .error (.ttcDecode "unknown transaction sync version")
    else if state &&& tnsTpcTxnidSyncUnset ≠ 0 then .ok (some .unset)
    else if state &&& tnsTpcTxnidSyncSet ≠ 0 then .ok (some (.set (state &&& tnsTpcTxnidSyncServer ≠ 0)))
    else .ok none
  | _ => .error (.ttcDecode "short sessionless txn state")

/-- A byte string that is there if its length is not zero. -/
def readOptionalBytes (reader : TtcReader) : Read (Option (List UInt8)) := do
  let len ← reader.readUb2
  if 0 < len then reader.readBytes else return none

/-- The update of the transaction state that a pair carries. -/
def txnStateUpdate (keywordNum : Nat) (binary : Option (List UInt8)) : Result (Option SessionlessTxnState) :=
  match binary with
  | some binary => if keywordNum = tnsKeywordNumTransactionId then decodeSessionlessTxnState binary else .ok none
  | none => .ok none

def readKeywordValuePair (reader : TtcReader) : Read (Option SessionlessTxnState) := do
  let _textValue ← readOptionalBytes reader
  let binaryValue ← readOptionalBytes reader
  let keywordNum ← reader.readUb2
  txnStateUpdate keywordNum binaryValue

/-- The last update is the one that counts. -/
def readKeywordValuePairsForTxnState (reader : TtcReader) (numPairs : Nat) : Read (Option SessionlessTxnState) := do
  let updates ← Parser.many (readKeywordValuePair reader) numPairs
  return updates.foldl (fun state update => update.or state) none

def skipKeywordValuePairs (reader : TtcReader) (numPairs : Nat) : Read Unit := do
  let _ ← readKeywordValuePairsForTxnState reader numPairs

/-! ### The piggybacks -/

def tnsServerPiggybackQueryCacheInvalidation : UInt8 := 1
def tnsServerPiggybackOsPidMts : UInt8 := 2
def tnsServerPiggybackTraceEvent : UInt8 := 3
def tnsServerPiggybackSessRet : UInt8 := 4
def tnsServerPiggybackSync : UInt8 := 5
def tnsServerPiggybackLtxid : UInt8 := 7
def tnsServerPiggybackAcReplayContext : UInt8 := 8
def tnsServerPiggybackExtSync : UInt8 := 9
def tnsServerPiggybackSessSignature : UInt8 := 10

def skipSessionPair (reader : TtcReader) : Read Unit := do
  let _key ← readOptionalBytes reader
  let _value ← readOptionalBytes reader
  let _flags ← reader.readUb2

def skipSessionPairs (reader : TtcReader) (numElements : Nat) : Read Unit :=
  if 0 < numElements then do
    reader.skip 1
    let _ ← Parser.many (skipSessionPair reader) numElements
  else return ()

/-- What follows the opcode of a piggyback. -/
def skipPiggybackBody (reader : TtcReader) (opcode : UInt8) : Read (Option SessionlessTxnState) :=
  if opcode = tnsServerPiggybackLtxid then do
    let _ltxid ← reader.readBytesWithLength
    return none
  else if opcode = tnsServerPiggybackQueryCacheInvalidation ∨ opcode = tnsServerPiggybackTraceEvent then return none
  else if opcode = tnsServerPiggybackOsPidMts then do
    let _pid ← reader.readUb2
    let _mts ← reader.readBytes
    return none
  else if opcode = tnsServerPiggybackSync then do
    let _numDtys ← reader.readUb2
    reader.skip 1
    let numElements ← reader.readUb2
    reader.skip 1
    let txnState ← readKeywordValuePairsForTxnState reader numElements
    let _flags ← reader.readUb4
    return txnState
  else if opcode = tnsServerPiggybackExtSync then do
    let _numDtys ← reader.readUb2
    reader.skip 1
    return none
  else if opcode = tnsServerPiggybackAcReplayContext then do
    let _numDtys ← reader.readUb2
    reader.skip 1
    let _flags ← reader.readUb4
    let _errorCode ← reader.readUb4
    reader.skip 1
    let _replayContext ← reader.readBytesWithLength
    return none
  else if opcode = tnsServerPiggybackSessRet then do
    let _numDtys ← reader.readUb2
    reader.skip 1
    let numElements ← reader.readUb2
    skipSessionPairs reader numElements
    let _flags ← reader.readUb4
    let _sessionId ← reader.readUb4
    let _serialNum ← reader.readUb2
    return none
  else if opcode = tnsServerPiggybackSessSignature then do
    let _numDtys ← reader.readUb2
    reader.skip 1
    let _signatureFlags ← reader.readUb8
    let _clientSignature ← reader.readUb8
    let _serverSignature ← reader.readUb8
    return none
  else throw (.unsupportedFeature "server-side piggyback")

def skipServerSidePiggyback (reader : TtcReader) : Read (Option SessionlessTxnState) := do
  let opcode ← readU8
  skipPiggybackBody reader opcode

/-! ### On a prefix -/

section

variable {reader : TtcReader} {strict : Prop}

instance follows_readOptionalBytes : Follows strict reader readOptionalBytes := by
  unfold readOptionalBytes
  infer_instance

instance follows_readKeywordValuePairsForTxnState (numPairs : Nat) :
    Follows strict reader (readKeywordValuePairsForTxnState · numPairs) := by
  unfold readKeywordValuePairsForTxnState readKeywordValuePair
  infer_instance

instance follows_skipSessionPairs (numElements : Nat) : Follows strict reader (skipSessionPairs · numElements) := by
  unfold skipSessionPairs skipSessionPair
  infer_instance

/-- A field after its length at the end of a message, and nothing of it but `value` is used. -/
theorem Loose.return {α β : Type} {f : TtcReader → Read α} (h : Loose reader f) (value : β) :
    Loose reader fun r => f r >>= fun _ => pure value :=
  h.bind_lax (fun _ => tracks_pure _) fun _ _ _ => Or.inr ⟨value, trivial, rfl⟩

set_option synthInstance.maxSize 600 in
theorem loose_skipServerSidePiggyback : Loose reader skipServerSidePiggyback := by
  refine follows_readU8.bind fun opcode => ?_
  have := (@loose_readBytesWithLength reader).return (none : Option SessionlessTxnState)
  unfold skipPiggybackBody
  infer_instance

end

end OracleThin.Ttc

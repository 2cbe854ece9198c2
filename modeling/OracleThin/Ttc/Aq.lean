import OracleThin.Ttc.Functions
import OracleThin.Ttc.Value

/-!
# Responses of Advanced Queuing calls

Enqueue, dequeue and the bulk form of both run the loop of the function responses; their parameters carry message ids
and messages.
-/

namespace OracleThin.Ttc

open Lib Lib.Parser Wire

variable {J V : Type}

/-! ### Messages -/

inductive AqPayloadKind
  | raw
  | json
  | object
deriving DecidableEq, Repr

inductive AqDeqPayload (J : Type)
  | raw (bytes : List UInt8)
  | json (value : J)
  | object (image : List UInt8)

structure AqDeqMessage (J V : Type) where
  priority : Int := 0
  delay : Int := 0
  expiration : Int := 0
  correlation : Option String := none
  numAttempts : Int := 0
  exceptionQueue : Option String := none
  state : Int := 0
  enqTime : Option (QueryValue J V) := none
  deliveryMode : Nat := 0
  msgid : Option (List UInt8) := none
  payload : Option (AqDeqPayload J) := none

def tnsAqMessageIdLength : Nat := 16
def tnsKpdAqBufmsg : Nat := 2
def tnsAqMsgPersistent : Nat := 1
def tnsAqMsgBuffered : Nat := 2
def tnsCcapFieldVersion211 : Nat := 16

def carriesAqShardId (ttcFieldVersion : Nat) : Bool := tnsCcapFieldVersion211 ≤ ttcFieldVersion

def processDate (reader : TtcReader) : Read (Option (QueryValue J V)) := do
  let numBytes ← reader.readUb4
  if numBytes = 0 then return none
  else do
    let len ← readU8
    if len = 0 then return none
    else do
      let bytes ← reader.readRaw len.toNat
      let value ← decodeDatetimeValue bytes
      return some value

def skipExtension (reader : TtcReader) : Read Unit := do
  let _text ← reader.readBytesWithLength
  let _binary ← reader.readBytesWithLength
  let _keyword ← reader.readUb2

def processExtensions (reader : TtcReader) : Read Unit := do
  let numExtensions ← reader.readUb4
  if 0 < numExtensions then do
    let _ ← readU8
    let _ ← Parser.many (skipExtension reader) numExtensions
  else return ()

def skipShardId (reader : TtcReader) (ttcFieldVersion : Nat) : Read Unit :=
  if carriesAqShardId ttcFieldVersion then do
    let _shard ← reader.readUb4
  else return ()

/-- Fails if a count is not zero. -/
def refuse (count : Nat) (feature : String) : Result Unit :=
  if 0 < count then .error (.unsupportedFeature feature) else .ok ()

def processMsgProps (reader : TtcReader) (ttcFieldVersion : Nat) : Read (AqDeqMessage J V) := do
  let priority ← reader.readSb4
  let delay ← reader.readSb4
  let expiration ← reader.readSb4
  let correlation ← reader.readStringWithLength
  let numAttempts ← reader.readSb4
  let exceptionQueue ← reader.readStringWithLength
  let state ← reader.readSb4
  let enqTime ← processDate reader
  let _enqTxnId ← reader.readBytesWithLength
  processExtensions reader
  let userProps ← reader.readUb4
  refuse userProps "AQ user properties"
  let _csn ← reader.readUb4
  let _dsn ← reader.readUb4
  let flags ← reader.readUb4
  skipShardId reader ttcFieldVersion
  return {
    priority, delay, expiration, correlation, numAttempts, exceptionQueue, state, enqTime
    deliveryMode := if flags = tnsKpdAqBufmsg then tnsAqMsgBuffered else tnsAqMsgPersistent }

def processRecipients (reader : TtcReader) : Read Unit := do
  let count ← reader.readUb4
  refuse count "AQ recipients on dequeue"

def processMsgId (reader : TtcReader) : Read (List UInt8) := reader.readRaw tnsAqMessageIdLength

/-- An image that must be there with its declared length. -/
def checkImage (bytes : Option (List UInt8)) (imageLength : Nat) (missing differs : String) : Result (List UInt8) :=
  match bytes with
  | none => .error (.ttcDecode missing)
  | some bytes => if bytes.length ≠ imageLength then .error (.ttcDecode differs) else .ok bytes

/-- The header of an image: its length. -/
def readImageLength (reader : TtcReader) : Read Nat := do
  let _toid ← reader.readBytesWithLength
  let _oid ← reader.readBytesWithLength
  let _snapshot ← reader.readBytesWithLength
  let _version ← reader.readUb2
  let imageLength ← reader.readUb4
  reader.limits.checkResponseBytes imageLength
  let _flags ← reader.readUb2
  return imageLength

/-- The payload in an image, behind its header of four bytes. -/
def decodeAqImage (images : ImageDecoders J V) (limits : ProtocolLimits) (kind : AqPayloadKind) (image : List UInt8) :
    Result (AqDeqPayload J) :=
  if kind = .json then do
    let value ← images.decodeOsonWithLimits (image.drop 4) limits
    return .json value
  else .ok (.raw (image.drop 4))

def processPayload (images : ImageDecoders J V) (reader : TtcReader) (kind : AqPayloadKind) :
    Read (Option (AqDeqPayload J)) := do
  let imageLength ← readImageLength reader
  if kind = .object then
    if imageLength = 0 then return none
    else do
      let bytes ← reader.readBytes
      let image ← checkImage bytes imageLength "AQ object payload missing"
        "AQ object payload length differs from declared image length"
      return some (.object image)
  else if 0 < imageLength then
    if imageLength < 4 then throw (.ttcDecode "AQ payload image shorter than header")
    else do
      let bytes ← reader.readBytes
      let image ← checkImage bytes imageLength "AQ payload missing"
        "AQ payload length differs from declared image length"
      let payload ← decodeAqImage images reader.limits kind image
      return some payload
  else return if kind = .raw then some (.raw []) else none

/-! ### Enqueue and dequeue -/

def tnsErrNoMessagesFound : Nat := 25228

def aqEnq : FunctionParser (Option (List UInt8)) (Option (List UInt8)) where
  start := none
  serverError := failWithDetails
  own := fun messageType =>
    if messageType = tnsMsgTypeParameter then
      some fun reader _ => do
        let id ← reader.readRaw tnsAqMessageIdLength
        let _extLen ← reader.readUb2
        return some id
    else none
  finish := id

def parseAqEnqResponseWithLimits (std : StdLib) (payload : List UInt8) (capabilities : ClientCapabilities)
    (limits : ProtocolLimits) : Result (Option (List UInt8)) :=
  aqEnq.parse std capabilities payload limits

/-- What a dequeue has collected. -/
structure AqDeqState (J V : Type) where
  message : Option (AqDeqMessage J V) := none
  noMsgFound : Bool := false

def readDeqMessage (images : ImageDecoders J V) (ttcFieldVersion : Nat) (kind : AqPayloadKind) (reader : TtcReader)
    (s : AqDeqState J V) : Read (AqDeqState J V) := do
  let numBytes ← reader.readUb4
  if 0 < numBytes then do
    let message ← processMsgProps reader ttcFieldVersion
    processRecipients reader
    let payload ← processPayload images reader kind
    let msgid ← processMsgId reader
    return { s with message := some { message with payload, msgid := some msgid } }
  else return s

def aqDeq (images : ImageDecoders J V) (capabilities : ClientCapabilities) (kind : AqPayloadKind) :
    FunctionParser (AqDeqState J V) (Option (AqDeqMessage J V)) where
  start := {}
  serverError := fun info s =>
    if info.number = tnsErrNoMessagesFound then .next { s with noMsgFound := true } else failWithDetails info s
  own := fun messageType =>
    if messageType = tnsMsgTypeParameter then some (readDeqMessage images capabilities.ttcFieldVersion kind) else none
  finish := fun s => if s.noMsgFound then none else s.message

def parseAqDeqResponseWithLimits (std : StdLib) (images : ImageDecoders J V) (payload : List UInt8)
    (capabilities : ClientCapabilities) (kind : AqPayloadKind) (limits : ProtocolLimits) :
    Result (Option (AqDeqMessage J V)) :=
  (aqDeq images capabilities kind).parse std capabilities payload limits

/-! ### The bulk form -/

inductive AqArrayOperation
  | enq
  | deq
deriving DecidableEq, Repr

structure AqArrayResult (J V : Type) where
  enqMsgids : List (List UInt8) := []
  deqMessages : List (AqDeqMessage J V) := []

/-- What a bulk call has collected. -/
structure AqArrayState (J V : Type) where
  messages : List (AqDeqMessage J V) := []
  enqMsgidBlob : Option (List UInt8) := none
  responseNumIters : Nat := 0
  noMsgFound : Bool := false

def readArrayProps (reader : TtcReader) (ttcFieldVersion : Nat) : Read (AqDeqMessage J V) := do
  let propsLen ← reader.readUb2
  if 0 < propsLen then do
    let _ ← readU8
    processMsgProps reader ttcFieldVersion
  else return {}

def readArrayPayload (images : ImageDecoders J V) (reader : TtcReader) (kind : AqPayloadKind) :
    Read (Option (AqDeqPayload J)) := do
  let payloadLen ← reader.readUb2
  if 0 < payloadLen then processPayload images reader kind else return none

/-- One message of a bulk call and its id. -/
def readArrayElement (images : ImageDecoders J V) (ttcFieldVersion : Nat) (kind : AqPayloadKind)
    (reader : TtcReader) :
    Read (AqDeqMessage J V × List UInt8) := do
  let message ← readArrayProps reader ttcFieldVersion
  processRecipients reader
  let payload ← readArrayPayload images reader kind
  let msgid ← reader.readBytesWithLength
  let extLen ← reader.readUb2
  refuse extLen "AQ array extensions"
  let _outputAck ← reader.readUb2
  return ({ message with payload }, msgid.getD [])

/-- Of an enqueue the last id is kept, of a dequeue all messages. -/
def AqArrayState.collect (operation : AqArrayOperation) (s : AqArrayState J V)
    (elements : List (AqDeqMessage J V × List UInt8)) : AqArrayState J V :=
  match operation with
  | .enq => { s with enqMsgidBlob := (elements.getLast?.map Prod.snd).or s.enqMsgidBlob }
  | .deq =>
    { s with messages := s.messages ++ elements.map fun (message, msgid) => { message with msgid := some msgid } }

def readArrayParameters (images : ImageDecoders J V) (ttcFieldVersion : Nat) (operation : AqArrayOperation)
    (kind : AqPayloadKind) (reader : TtcReader) (s : AqArrayState J V) : Read (AqArrayState J V) := do
  let numIters ← reader.readUb4
  reader.limits.checkBatchRows numIters
  let elements ← Parser.many (readArrayElement images ttcFieldVersion kind reader) numIters
  let s := s.collect operation elements
  if operation = .enq then do
    let responseNumIters ← reader.readUb4
    reader.limits.checkBatchRows responseNumIters
    return { s with responseNumIters }
  else return { s with responseNumIters := numIters }

/-- The ids of `count` messages, side by side; a missing one is empty. -/
def splitMsgids (count : Nat) (blob : List UInt8) : List (List UInt8) :=
  (List.range count).map fun j => if 16 * (j + 1) ≤ blob.length then (blob.drop (16 * j)).take 16 else []

def aqArray (images : ImageDecoders J V) (capabilities : ClientCapabilities) (operation : AqArrayOperation)
    (propsCount : Nat) (kind : AqPayloadKind) : FunctionParser (AqArrayState J V) (AqArrayResult J V) where
  before := fun limits => limits.checkBatchRows propsCount
  start := {}
  serverError := fun info s =>
    if info.number = tnsErrNoMessagesFound then .next { s with noMsgFound := true } else failWithDetails info s
  own := fun messageType =>
    if messageType = tnsMsgTypeParameter then
      some (readArrayParameters images capabilities.ttcFieldVersion operation kind)
    else none
  finish := fun s =>
    match operation with
    | .enq => { enqMsgids := s.enqMsgidBlob.elim [] (splitMsgids propsCount) }
    | .deq => { deqMessages := if s.noMsgFound then [] else s.messages.take s.responseNumIters }

def parseAqArrayResponseWithLimits (std : StdLib) (images : ImageDecoders J V) (payload : List UInt8)
    (capabilities : ClientCapabilities) (operation : AqArrayOperation) (propsCount : Nat) (kind : AqPayloadKind)
    (limits : ProtocolLimits) : Result (AqArrayResult J V) :=
  (aqArray images capabilities operation propsCount kind).parse std capabilities payload limits

end OracleThin.Ttc

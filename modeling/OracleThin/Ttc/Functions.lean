import OracleThin.Ttc.Piggyback

/-!
# Responses of function calls

The parsers of the responses of LOB operations, of plain functions (ping, commit, rollback) and of transaction
switches run the same loop over the messages of the payload. They differ in the messages of their own, in what they
keep of the common ones and in what they do about a message they do not know. None of them asks that the response has
ended: they return what they have when the payload is used up.
-/

namespace OracleThin.Ttc

open Lib Lib.Parser Wire

/-- What the client has negotiated. -/
structure ClientCapabilities where
  ttcFieldVersion : Nat := 24
  maxStringSize : Nat := 32767
  charsetId : Nat := 873
deriving DecidableEq, Repr

/-- A message of a type that the parser does not know. The type has just been read. -/
def unknownMessage {α : Type} (payload : List UInt8) (messageType : UInt8) : Read α := fun rest =>
  .error (.unknownMessageType messageType (payload.length - rest.length - 1))

/-! ### The common loop -/

/-- What one of the parsers does of its own: `σ` is what it collects, `ρ` what it returns. -/
structure FunctionParser (σ ρ : Type) where
  /-- A check before the payload is read. -/
  before : ProtocolLimits → Result Unit := fun _ => .ok ()
  start : σ
  status : Nat → σ → σ := fun _ s => s
  piggyback : Option SessionlessTxnState → σ → σ := fun _ s => s
  serverError : ServerErrorInfo → σ → Flow ProtocolError σ
  /-- The messages of its own. -/
  own : UInt8 → Option (TtcReader → σ → Read σ) := fun _ => none
  /-- Whether it stops at a message that it does not know, instead of failing. -/
  tolerant : Bool := false
  finish : σ → ρ

namespace FunctionParser

variable {σ ρ : Type} (parser : FunctionParser σ ρ) (std : StdLib) (capabilities : ClientCapabilities)

/-- What follows the type of a message. -/
def body (reader : TtcReader) (payload : List UInt8) (s : σ) (messageType : UInt8) : Read (Flow ProtocolError σ) :=
  if messageType = 0 then return .next s
  else if messageType = tnsMsgTypeStatus then do
    let callStatus ← reader.readUb4
    let _seq ← reader.readUb2
    return .next (parser.status callStatus s)
  else if messageType = tnsMsgTypeServerSidePiggyback then do
    let update ← skipServerSidePiggyback reader
    return .next (parser.piggyback update s)
  else if messageType = tnsMsgTypeEndOfResponse then return .stop s
  else if messageType = tnsMsgTypeError then do
    let info ← parseServerErrorInfo std reader capabilities.ttcFieldVersion
    return parser.serverError info s
  else
    match parser.own messageType with
    | some read => .next <$> read reader s
    | none => if parser.tolerant then return .stop s else unknownMessage payload messageType

def message (reader : TtcReader) (payload : List UInt8) (s : σ) : Read (Flow ProtocolError σ) := do
  let messageType ← readU8
  parser.body std capabilities reader payload s messageType

def parse (payload : List UInt8) (limits : ProtocolLimits) : Result ρ := do
  parser.before limits
  let reader ← TtcReader.withLimits payload limits
  let s ← scan (parser.message std capabilities reader payload) payload.length parser.start payload
  return parser.finish s

end FunctionParser

/-- Fails with the message of the server. -/
def failWithMessage {σ : Type} (info : ServerErrorInfo) (s : σ) : Flow ProtocolError σ :=
  if info.number ≠ 0 then .fail (.serverError info.message) else .next s

/-- Fails with all that the server says. -/
def failWithDetails {σ : Type} (info : ServerErrorInfo) (s : σ) : Flow ProtocolError σ :=
  if info.number ≠ 0 then .fail (.serverErrorInfo info.intoDetails) else .next s

/-! ### LOB operations -/

structure LobReadResult where
  data : Option (List UInt8) := none
  locator : List UInt8 := []
  amount : Nat := 0
deriving DecidableEq, Repr

def lobFreeTemp (returnedParameterLen : Nat) : FunctionParser Unit Unit where
  before := fun limits => limits.checkFrameBytes returnedParameterLen
  start := ()
  serverError := failWithMessage
  own := fun messageType =>
    if messageType = tnsMsgTypeParameter then some fun reader _ => reader.skip returnedParameterLen else none
  finish := id

def readLobLocator (reader : TtcReader) (locator : List UInt8) : Read (List UInt8) :=
  if locator ≠ [] then reader.readRaw locator.length else return locator

/-- The parameters that a LOB operation returns: the locator and, for some, the character set or an amount. -/
def readLobParameters (isCreateTemp readAmount : Bool) (reader : TtcReader) (result : LobReadResult) :
    Read LobReadResult := do
  let locator ← readLobLocator reader result.locator
  if isCreateTemp then do
    let _charset ← reader.readUb2
    reader.skip 1
    return { result with locator }
  else if readAmount then do
    let amount ← reader.readSb8
    return { result with locator, amount := if 0 < amount then amount.toNat else result.amount }
  else return { result with locator }

def lobOp (locator : List UInt8) (isCreateTemp readAmount : Bool) : FunctionParser LobReadResult LobReadResult where
  start := { locator }
  serverError := failWithMessage
  own := fun messageType =>
    if messageType = tnsMsgTypeLobData then
      some fun reader result => do
        let data ← reader.readBytes
        return { result with data }
    else if messageType = tnsMsgTypeParameter then some (readLobParameters isCreateTemp readAmount)
    else none
  finish := id

section

variable (std : StdLib) (payload : List UInt8) (capabilities : ClientCapabilities)

def parseLobReadResponseWithLimits (locator : List UInt8) (limits : ProtocolLimits) : Result LobReadResult :=
  (lobOp locator false true).parse std capabilities payload limits

def parseLobCreateTempResponseWithLimits (limits : ProtocolLimits) : Result LobReadResult :=
  (lobOp (List.replicate 40 0) true false).parse std capabilities payload limits

def parseLobWriteResponseWithLimits (locator : List UInt8) (limits : ProtocolLimits) : Result LobReadResult :=
  (lobOp locator false false).parse std capabilities payload limits

def parseLobTrimResponseWithLimits (locator : List UInt8) (limits : ProtocolLimits) : Result LobReadResult :=
  (lobOp locator false true).parse std capabilities payload limits

def parseLobFreeTempResponseWithLimits (returnedParameterLen : Nat) (limits : ProtocolLimits) : Result Unit :=
  (lobFreeTemp returnedParameterLen).parse std capabilities payload limits

/-! ### Plain functions and transaction switches -/

def tnsEocsFlagsTxnInProgress : Nat := 2

/-- Whether the bit for a transaction in progress is set in the status of a call. -/
def txnInProgress (callStatus : Nat) : Bool := callStatus &&& tnsEocsFlagsTxnInProgress ≠ 0

def plainFunction : FunctionParser Bool Bool where
  start := false
  status := fun callStatus _ => txnInProgress callStatus
  serverError := fun info _ => failWithMessage info (txnInProgress info.callStatus)
  tolerant := true
  finish := id

def parsePlainFunctionResponseWithLimits (limits : ProtocolLimits) : Result Bool :=
  plainFunction.parse std capabilities payload limits

def skipTxnContext (reader : TtcReader) : Read Unit := do
  let _applicationValue ← reader.readUb4
  let contextLen ← reader.readUb2
  if 0 < contextLen then reader.skip contextLen else return ()

def tpcTxnSwitch : FunctionParser (Option SessionlessTxnState) (Option SessionlessTxnState) where
  start := none
  piggyback := fun update state => update.or state
  serverError := failWithDetails
  own := fun messageType =>
    if messageType = tnsMsgTypeParameter then
      some fun reader state => do
        skipTxnContext reader
        return state
    else none
  tolerant := true
  finish := id

def parseTpcTxnSwitchResponseWithLimits (limits : ProtocolLimits) : Result (Option SessionlessTxnState) :=
  tpcTxnSwitch.parse std capabilities payload limits

end

end OracleThin.Ttc

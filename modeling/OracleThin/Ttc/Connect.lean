import OracleThin.Ttc.Functions

/-!
# Responses of the connect phase

Protocol negotiation, data types and authentication. Before the framing is negotiated,
`classicConnectResponseIsComplete` says whether what has arrived is a whole response.
-/

namespace OracleThin.Ttc

open Lib Lib.Parser Wire

/-! ### Negotiation -/

def tnsCcapFieldVersion : Nat := 7
def tnsRcapTtc : Nat := 6
def tnsRcapTtc32k : UInt8 := 0x04

/-- The capabilities that follow from what the server sends. -/
def negotiatedCapabilities (charsetId : Nat) (compileCaps : List UInt8) (runtimeCaps : Option (List UInt8)) :
    ClientCapabilities where
  ttcFieldVersion := min ((compileCaps[tnsCcapFieldVersion]?.map UInt8.toNat).getD 24) 24
  maxStringSize :=
    if ((runtimeCaps.bind (·[tnsRcapTtc]?)).any fun flags => flags &&& tnsRcapTtc32k ≠ 0) then 32767 else 4000
  charsetId := charsetId

/-- Reads up to a zero byte. -/
def skipToZero : Read Unit :=
  Parser.iterate (fun () => do
    let byte ← readU8
    if byte = 0 then return .inr () else return .inl ()) (.ttcDecode "missing u8") ()

def skipProtocolMessage (reader : TtcReader) : Read (Option ClientCapabilities) := do
  let _serverVersion ← readU8
  reader.skip 1
  skipToZero
  let charsetId ← reader.readU16le
  let _serverFlags ← readU8
  let numElem ← reader.readU16le
  reader.skip (numElem * 5)
  let fdoLen ← reader.readU16be
  reader.skip fdoLen
  let compileCaps ← reader.readBytes
  let runtimeCaps ← reader.readBytes
  return compileCaps.map fun compileCaps => negotiatedCapabilities charsetId compileCaps runtimeCaps

/-- One data type, or the end. -/
def skipDataType (reader : TtcReader) : Read (Unit ⊕ Unit) := do
  let dataType ← reader.readU16be
  if dataType = 0 then return .inr ()
  else do
    let convDataType ← reader.readU16be
    if convDataType ≠ 0 then do
      reader.skip 4
      return .inl ()
    else return .inl ()

def skipDataTypesResponse (reader : TtcReader) : Read Unit :=
  Parser.iterate (fun () => skipDataType reader) (.ttcDecode "truncated TTC payload") ()

/-! ### Authentication -/

structure AuthResponse where
  sessionData : List (String × String) := []
  verifierType : Option Nat := none
deriving DecidableEq, Repr

def requireKey : Option String → Result String
  | some key => .ok key
  | none => .error (.ttcDecode "missing auth response key")

/-- A key, its value and its flags. -/
def readAuthParameter (reader : TtcReader) : Read (String × String × Nat) := do
  let key ← reader.readStringWithLength
  let key ← requireKey key
  let value ← reader.readStringWithLength
  let flags ← reader.readUb4
  return (key, value.getD "", flags)

def AuthResponse.insert (response : AuthResponse) : String × String × Nat → AuthResponse
  | (key, value, flags) =>
    { sessionData := response.sessionData ++ [(key, value)]
      verifierType := if key = "AUTH_VFR_DATA" then some flags else response.verifierType }

def parseReturnParameters (reader : TtcReader) : Read AuthResponse := do
  let numParams ← reader.readUb2
  reader.limits.checkLengthPrefixedElements numParams
  let parameters ← Parser.many (readAuthParameter reader) numParams
  return parameters.foldl AuthResponse.insert {}

/-! ### The completeness check -/

/-- What follows the type of a message; it stops at a message that ends the response. -/
def connectBody (std : StdLib) (reader : TtcReader) (payload : List UInt8) (messageType : UInt8) :
    Read (Flow ProtocolError Bool) :=
  if messageType = tnsMsgTypeProtocol then do
    let _ ← skipProtocolMessage reader
    return .stop true
  else if messageType = tnsMsgTypeDataTypes then do
    skipDataTypesResponse reader
    return .stop true
  else if messageType = tnsMsgTypeParameter then do
    let _ ← parseReturnParameters reader
    return .next false
  else if messageType = tnsMsgTypeStatus then do
    let _ ← reader.readUb4
    let _ ← reader.readUb2
    return .stop true
  else if messageType = tnsMsgTypeServerSidePiggyback then do
    let _ ← skipServerSidePiggyback reader
    return .next false
  else if messageType = tnsMsgTypeEndOfResponse then return .stop true
  else if messageType = tnsMsgTypeError then do
    let _ ← parseServerError std reader 13
    return .stop true
  else unknownMessage payload messageType

def connectMessage (std : StdLib) (reader : TtcReader) (payload : List UInt8) (_ : Bool) :
    Read (Flow ProtocolError Bool) := do
  let messageType ← readU8
  connectBody std reader payload messageType

def classicConnectResponseIsComplete (std : StdLib) (limits : ProtocolLimits) (payload : List UInt8) : Result Bool :=
  match TtcReader.withLimits payload limits with
  | .error _ => .ok false
  | .ok reader =>
    match scan (connectMessage std reader payload) payload.length false payload with
    | .ok complete => .ok complete
    | .error (.ttcDecode _) => .ok false
    | .error e => .error e

/-! ### On a prefix -/

section

variable {reader : TtcReader} {strict : Prop}

instance follows_skipToZero {lax : Unit → Prop} : Tracks IsDecode strict lax skipToZero skipToZero := by
  refine tracks_iterate (fun _ => inferInstance) (fun _ b s r h => ?_) _
  obtain ⟨byte, s', hbyte, hrest⟩ := bind_eq_ok h
  split at hrest
  · cases hrest
  · cases hrest
    exact readU8_length_lt hbyte

set_option synthInstance.maxSize 4000 in
instance follows_skipProtocolMessage : Follows strict reader skipProtocolMessage := by
  unfold skipProtocolMessage
  infer_instance

private theorem readU16be_length_lt {b r : List UInt8} {n : Nat} (h : reader.readU16be b = .ok (n, r)) :
    r.length < b.length := by
  obtain ⟨bytes, s, hraw, hpure⟩ := bind_eq_ok h
  cases hpure
  obtain ⟨rfl, hlen, -⟩ := readRaw_eq_ok hraw
  rw [List.length_append]
  omega

instance follows_skipDataTypesResponse : Follows strict reader skipDataTypesResponse := by
  refine tracks_iterate (fun _ => ?_) (fun _ b s r h => ?_) _
  · unfold skipDataType
    infer_instance
  obtain ⟨dataType, s', hdata, hrest⟩ := bind_eq_ok h
  have hlt := readU16be_length_lt hdata
  split at hrest
  · cases hrest
  · obtain ⟨conv, s₂, hconv, hrest₂⟩ := bind_eq_ok hrest
    have hlt₂ := readU16be_length_lt hconv
    split at hrest₂
    · obtain ⟨_, s₃, hskip, hpure⟩ := bind_eq_ok hrest₂
      cases hpure
      have hle := (@follows_skip reader True 4).length_le hskip
      omega
    · cases hrest₂
      omega

instance firm_parseReturnParameters : Firm reader parseReturnParameters := by
  have hparameter : Firm reader readAuthParameter := by
    refine loose_readStringWithLength.bind_lax (fun key => (tracks_lift _).bind fun _ => ?_) fun _ key _ => ?_
    · exact loose_readStringWithLength.bind_lax (fun _ => inferInstance) fun _ _ _ => starved_of_eq rfl
    · cases key with
      | none => exact starved_of_eq rfl
      | some key => exact starved_of_eq rfl
  unfold parseReturnParameters
  infer_instance

end

end OracleThin.Ttc

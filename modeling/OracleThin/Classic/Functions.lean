import OracleThin.Classic.Probe
import OracleThin.Ttc.Aq

/-!
# The probes of function calls

The parsers of LOB, plain-function, transaction-switch and queue responses return what they have when the payload is
used up, and a message reads the same whatever follows it. As probes they therefore take every payload that ends
between two messages for a whole response, and the empty one as well.
-/

namespace OracleThin.Classic

open Lib Lib.Parser Wire Ttc

variable {J V σ ρ : Type}

/-! ### Messages on a prefix -/

section

variable {reader : TtcReader}

instance follows_readBytesWithLength : Follows False reader (·.readBytesWithLength) :=
  loose_readBytesWithLength.loosen

instance follows_readStringWithLength : Follows False reader (·.readStringWithLength) :=
  loose_readStringWithLength.loosen

instance follows_readLobParameters (isCreateTemp readAmount : Bool) (result : LobReadResult) :
    Follows False reader (readLobParameters isCreateTemp readAmount · result) := by
  unfold readLobParameters readLobLocator
  infer_instance

instance follows_skipTxnContext : Follows False reader skipTxnContext := by
  unfold skipTxnContext
  infer_instance

instance follows_processDate : Follows False reader (processDate : TtcReader → Read (Option (QueryValue J V))) := by
  unfold processDate
  infer_instance

instance follows_processExtensions : Follows False reader processExtensions := by
  unfold processExtensions skipExtension
  infer_instance

set_option synthInstance.maxSize 100000 in
instance follows_processMsgProps (version : Nat) :
    Follows False reader fun r => (processMsgProps r version : Read (AqDeqMessage J V)) := by
  unfold processMsgProps skipShardId
  infer_instance

instance follows_processRecipients : Follows False reader processRecipients := by
  unfold processRecipients
  infer_instance

set_option synthInstance.maxSize 1000 in
instance follows_processPayload (images : ImageDecoders J V) (kind : AqPayloadKind) :
    Follows False reader (processPayload images · kind) := by
  unfold processPayload readImageLength
  infer_instance

instance follows_readDeqMessage (images : ImageDecoders J V) (version : Nat) (kind : AqPayloadKind)
    (s : AqDeqState J V) :
    Follows False reader (readDeqMessage images version kind · s) := by
  unfold readDeqMessage processMsgId
  infer_instance

instance follows_readArrayElement (images : ImageDecoders J V) (version : Nat) (kind : AqPayloadKind) :
    Follows False reader (readArrayElement images version kind ·) := by
  unfold readArrayElement readArrayProps readArrayPayload
  infer_instance

instance follows_readArrayParameters (images : ImageDecoders J V) (version : Nat) (operation : AqArrayOperation)
    (kind : AqPayloadKind) (s : AqArrayState J V) :
    Follows False reader (readArrayParameters images version operation kind · s) := by
  unfold readArrayParameters
  infer_instance

end

/-! ### The loop on a prefix -/

theorem withLimits_of_length_le {payload payload' : List UInt8} {limits : ProtocolLimits} {reader : TtcReader}
    (h : TtcReader.withLimits payload limits = .ok reader) (hlen : payload'.length ≤ payload.length) :
    TtcReader.withLimits payload' limits = .ok { limits } := by
  obtain ⟨hvalid, hframe, hresponse, -⟩ := TtcReader.withLimits_eq_ok_iff.1 h
  exact TtcReader.withLimits_eq_ok_iff.2 ⟨hvalid, by omega, by omega, rfl⟩

/-- The messages of its own read the same whatever follows them. -/
def IsSteady (parser : FunctionParser σ ρ) : Prop :=
  ∀ messageType read, parser.own messageType = some read →
    ∀ (reader : TtcReader) (s : σ), Follows False reader (read · s)

/-- The message is an ERROR or a STATUS. -/
def EndsCall (m : List UInt8) : Prop := m.head? = some tnsMsgTypeError ∨ m.head? = some tnsMsgTypeStatus

instance (m : List UInt8) : Decidable (EndsCall m) := inferInstanceAs (Decidable (_ ∨ _))

variable {ms : List (List UInt8)}

section

variable {parser : FunctionParser σ ρ} {std : StdLib} {capabilities : ClientCapabilities} {limits : ProtocolLimits}

private theorem steady_body (hsteady : IsSteady parser) (reader : TtcReader) (payload payload' : List UInt8) (s : σ)
    {messageType : UInt8} (hne : messageType ≠ tnsMsgTypeError) :
    Tracks IsDecode False (fun _ => True) (parser.body std capabilities reader payload s messageType)
      (parser.body std capabilities reader.driver payload' s messageType) := by
  unfold FunctionParser.body
  split
  · infer_instance
  split
  · infer_instance
  split
  · exact loose_skipServerSidePiggyback.loosen.bind fun _ => inferInstance
  split
  · infer_instance
  split
  · rename_i read hread
    have := hsteady _ _ hread reader s
    infer_instance
  · split
    · infer_instance
    · exact ⟨nofun⟩

/-- The messages make up a response of a call: the parser reads them one after the other, and only the last one ends
the call. -/
structure Answers (parser : FunctionParser σ ρ) (std : StdLib) (capabilities : ClientCapabilities)
    (limits : ProtocolLimits) (ms : List (List UInt8)) : Prop where
  before : parser.before limits = .ok ()
  fits : TtcReader.withLimits ms.flatten limits = .ok { limits }
  run : ∃ result, Run (parser.message std capabilities { limits } ms.flatten) parser.start ms result
  last : ∃ m ∈ ms.getLast?, EndsCall m
  inner : ∀ m ∈ ms.dropLast, ¬EndsCall m

/-- What ends between two messages is parsed without an error. -/
theorem complete_take (hsteady : IsSteady parser) (h : Answers parser std capabilities limits ms) {k : Nat}
    (hk : k < ms.length) :
    responseComplete (parser.parse std capabilities (ms.take k).flatten limits) = .ok true := by
  obtain ⟨result, hrun⟩ := h.run
  have hlen : (ms.take k).flatten.length ≤ ms.flatten.length := by
    conv_rhs => rw [← List.take_append_drop k ms, List.flatten_append, List.length_append]
    omega
  have hquiet : ∀ s m r s', m.head? ≠ some tnsMsgTypeError ∧ m ≠ [] →
      parser.message std capabilities { limits } ms.flatten s (m ++ r) = .ok (.next s', r) → ∀ r', r' <+: r →
      parser.message std capabilities { limits } (ms.take k).flatten s (m ++ r') = .ok (.next s', r') := by
    rintro s m r s' ⟨hne, hm⟩ hstep r' hr
    cases m with
    | nil => exact absurd rfl hm
    | cons messageType m =>
      have htype : messageType ≠ tnsMsgTypeError := fun heq => hne (by rw [heq]; rfl)
      obtain ⟨c, hc, hsame, -⟩ := (steady_body hsteady { limits } _ _ s htype).follows _ _ _ hstep
      obtain rfl : m = c := List.append_cancel_right hc
      exact hsame r' hr
  have hms : ∀ m ∈ ms.dropLast, m.head? ≠ some tnsMsgTypeError ∧ m ≠ [] := fun m hm =>
    ⟨fun herror => h.inner m hm (Or.inl herror), hrun.ne_nil m (List.dropLast_subset ms hm)⟩
  obtain ⟨s', hscan⟩ := scan_take hquiet hrun hms hk le_rfl
  unfold FunctionParser.parse
  rw [h.before, withLimits_of_length_le h.fits hlen]
  simp only [bind, Except.bind, hscan]
  rfl

end

/-! ### The probes -/

/-- The parsers that the driver uses as probes after a function call, with what they are called with. -/
inductive FunctionProbe
  | lobRead (locator : List UInt8)
  | lobCreateTemp
  | lobWrite (locator : List UInt8)
  | lobTrim (locator : List UInt8)
  | lobFreeTemp (returnedParameterLen : Nat)
  | plainFunction
  | tpcTxnSwitch
  | aqEnq
  | aqDeq (kind : AqPayloadKind)
  | aqArray (operation : AqArrayOperation) (propsCount : Nat) (kind : AqPayloadKind)

namespace FunctionProbe

variable (std : StdLib) (images : ImageDecoders J V) (capabilities : ClientCapabilities) (limits : ProtocolLimits)

def judge (probe : FunctionProbe) : Probe := fun payload =>
  match probe with
  | lobRead locator => responseComplete (parseLobReadResponseWithLimits std payload capabilities locator limits)
  | lobCreateTemp => responseComplete (parseLobCreateTempResponseWithLimits std payload capabilities limits)
  | lobWrite locator => responseComplete (parseLobWriteResponseWithLimits std payload capabilities locator limits)
  | lobTrim locator => responseComplete (parseLobTrimResponseWithLimits std payload capabilities locator limits)
  | lobFreeTemp len => responseComplete (parseLobFreeTempResponseWithLimits std payload capabilities len limits)
  | plainFunction => responseComplete (parsePlainFunctionResponseWithLimits std payload capabilities limits)
  | tpcTxnSwitch => responseComplete (parseTpcTxnSwitchResponseWithLimits std payload capabilities limits)
  | aqEnq => responseComplete (parseAqEnqResponseWithLimits std payload capabilities limits)
  | aqDeq kind => responseComplete (parseAqDeqResponseWithLimits std images payload capabilities kind limits)
  | aqArray operation propsCount kind =>
    responseComplete (parseAqArrayResponseWithLimits std images payload capabilities operation propsCount kind limits)

/-- The messages make up a response of the call: each is complete, and the only ERROR or STATUS is the last one. -/
def Answered (probe : FunctionProbe) (ms : List (List UInt8)) : Prop :=
  match probe with
  | lobRead locator => Answers (lobOp locator false true) std capabilities limits ms
  | lobCreateTemp => Answers (lobOp (List.replicate 40 0) true false) std capabilities limits ms
  | lobWrite locator => Answers (lobOp locator false false) std capabilities limits ms
  | lobTrim locator => Answers (lobOp locator false true) std capabilities limits ms
  | lobFreeTemp len => Answers (Ttc.lobFreeTemp len) std capabilities limits ms
  | plainFunction => Answers Ttc.plainFunction std capabilities limits ms
  | tpcTxnSwitch => Answers Ttc.tpcTxnSwitch std capabilities limits ms
  | aqEnq => Answers Ttc.aqEnq std capabilities limits ms
  | aqDeq kind => Answers (Ttc.aqDeq images capabilities kind) std capabilities limits ms
  | aqArray operation propsCount kind =>
    Answers (Ttc.aqArray images capabilities operation propsCount kind) std capabilities limits ms

end FunctionProbe

private theorem isSteady_of_parameter {parser : FunctionParser σ ρ} {body : TtcReader → σ → Read σ}
    (hown : parser.own = fun messageType => if messageType = tnsMsgTypeParameter then some body else none)
    (h : ∀ (reader : TtcReader) (s : σ), Follows False reader (body · s)) : IsSteady parser := by
  intro messageType read hread reader s
  rw [hown] at hread
  dsimp only at hread
  split at hread
  · cases hread
    exact h reader s
  · cases hread

private theorem isSteady_lobOp (locator : List UInt8) (isCreateTemp readAmount : Bool) :
    IsSteady (lobOp locator isCreateTemp readAmount) := by
  intro messageType read hread reader s
  simp only [lobOp] at hread
  split at hread
  · cases hread
    infer_instance
  · split at hread
    · cases hread
      infer_instance
    · cases hread

private theorem isSteady_lobFreeTemp (len : Nat) : IsSteady (lobFreeTemp len) := by
  refine isSteady_of_parameter rfl ?_
  intro reader s
  infer_instance

private theorem isSteady_plainFunction : IsSteady plainFunction := by
  intro messageType read hread
  cases hread

private theorem isSteady_tpcTxnSwitch : IsSteady tpcTxnSwitch := by
  refine isSteady_of_parameter rfl ?_
  intro reader s
  infer_instance

private theorem isSteady_aqEnq : IsSteady aqEnq := by
  refine isSteady_of_parameter rfl ?_
  intro reader s
  infer_instance

private theorem isSteady_aqDeq (images : ImageDecoders J V) (capabilities : ClientCapabilities)
    (kind : AqPayloadKind) :
    IsSteady (aqDeq images capabilities kind) := by
  refine isSteady_of_parameter rfl ?_
  intro reader s
  infer_instance

private theorem isSteady_aqArray (images : ImageDecoders J V) (capabilities : ClientCapabilities)
    (operation : AqArrayOperation) (propsCount : Nat) (kind : AqPayloadKind) :
    IsSteady (aqArray images capabilities operation propsCount kind) := by
  refine isSteady_of_parameter rfl ?_
  intro reader s
  infer_instance

section

variable {std : StdLib} {images : ImageDecoders J V} {capabilities : ClientCapabilities} {limits : ProtocolLimits}
  {probe : FunctionProbe}

private theorem judge_take (h : probe.Answered std images capabilities limits ms) {k : Nat} (hk : k < ms.length) :
    probe.judge std images capabilities limits (ms.take k).flatten = .ok true := by
  cases probe with
  | lobRead locator | lobTrim locator => exact complete_take (isSteady_lobOp locator false true) h hk
  | lobCreateTemp => exact complete_take (isSteady_lobOp _ true false) h hk
  | lobWrite locator => exact complete_take (isSteady_lobOp locator false false) h hk
  | lobFreeTemp len => exact complete_take (isSteady_lobFreeTemp len) h hk
  | plainFunction => exact complete_take isSteady_plainFunction h hk
  | tpcTxnSwitch => exact complete_take isSteady_tpcTxnSwitch h hk
  | aqEnq => exact complete_take isSteady_aqEnq h hk
  | aqDeq kind => exact complete_take (isSteady_aqDeq images capabilities kind) h hk
  | aqArray operation propsCount kind =>
    exact complete_take (isSteady_aqArray images capabilities operation propsCount kind) h hk

/-! ### Early ends -/

private theorem Answers.length_le {parser : FunctionParser σ ρ} (h : Answers parser std capabilities limits ms) :
    ms ≠ [] ∧ (∀ m ∈ ms, m ≠ []) ∧ ms.flatten.length ≤ limits.maxResponseBytes := by
  obtain ⟨m, hm, -⟩ := h.last
  obtain ⟨result, hrun⟩ := h.run
  refine ⟨?_, hrun.ne_nil, (TtcReader.withLimits_eq_ok_iff.1 h.fits).2.2.1⟩
  rintro rfl
  cases hm

private theorem FunctionProbe.Answered.length_le (h : probe.Answered std images capabilities limits ms) :
    ms ≠ [] ∧ (∀ m ∈ ms, m ≠ []) ∧ ms.flatten.length ≤ limits.maxResponseBytes := by
  cases probe with
  | lobRead | lobCreateTemp | lobWrite | lobTrim | lobFreeTemp | plainFunction | tpcTxnSwitch | aqEnq | aqDeq
  | aqArray =>
    exact Answers.length_le h

end

/-- As a probe, each of these parsers takes what ends between two messages of a response for the whole, and so does
the reader when a packet ends there. -/
theorem functionProbe_early {std : StdLib} {images : ImageDecoders J V} {capabilities : ClientCapabilities}
    {limits : ProtocolLimits} (probe : FunctionProbe) {ms : List (List UInt8)}
    (h : probe.Answered std images capabilities limits ms) :
    ¬NeverEarly limits (probe.judge std images capabilities limits) ms.flatten ∧
    ∀ k < ms.length,
      probe.judge std images capabilities limits (ms.take k).flatten = .ok true ∧
      ∀ (piece : DataPiece) (packet rest : List UInt8), piece.payload = (ms.take k).flatten →
        piece.encode .large32 = .ok packet → packet.length ≤ limits.maxPacketBytes →
        readClassicDataResponseProbedWithLimits limits (probe.judge std images capabilities limits) (packet ++ rest) =
          .ok ⟨(ms.take k).flatten, rest, []⟩ := by
  obtain ⟨hne, hmessages, hlen⟩ := h.length_le
  constructor
  · rintro ⟨hshorter, -⟩
    -- Already the empty prefix is taken for the whole.
    refine hshorter [] List.nil_prefix ?_ (judge_take h (List.length_pos_iff.2 hne))
    intro hnil
    obtain ⟨m, hm⟩ := List.exists_mem_of_ne_nil ms hne
    exact hmessages m hm (List.flatten_eq_nil_iff.1 hnil.symm m hm)
  · intro k hk
    refine ⟨judge_take h hk, fun piece packet rest hpiece hpacket hfits => ?_⟩
    have hshort : (ms.take k).flatten.length ≤ ms.flatten.length := by
      conv_rhs => rw [← List.take_append_drop k ms, List.flatten_append, List.length_append]
      omega
    rw [← hpiece] at hshort ⊢
    exact readClassic_single rest hpacket hfits (by omega) (by rw [hpiece]; exact judge_take h hk)

/-- Functions on texts for the examples. -/
def asciiStd : StdLib where
  fromUtf8Lossy := fun bytes => String.ofList (bytes.map fun byte => Char.ofNat byte.toNat)
  fromUtf16 := fun units => some (String.ofList (units.map Char.ofNat))
  trim := id
  trimEnd := id
  displayF64 := toString
  displayF32 := toString

/-- Decoders for the examples, which carry no images. -/
def noImages : ImageDecoders Unit Unit where
  decodeOsonWithLimits := fun _ _ => .error (.unsupportedFeature "JSON")
  decodeVectorWithLimits := fun _ _ => .error (.unsupportedFeature "VECTOR")

/-- The data of a LOB read, and then a STATUS. -/
theorem functionProbe_early_lobRead :
    (FunctionProbe.lobRead []).Answered asciiStd noImages {} .default [[14, 2, 0xaa, 0xbb], [9, 0, 0]] ∧
    ¬NeverEarly .default ((FunctionProbe.lobRead []).judge asciiStd noImages {} .default)
      [14, 2, 0xaa, 0xbb, 9, 0, 0] := by
  have hanswered : (FunctionProbe.lobRead []).Answered asciiStd noImages
    {} .default [[14, 2, 0xaa, 0xbb], [9, 0, 0]] := by
    refine ⟨rfl, rfl, ⟨_, .next (by decide) rfl (.next (by decide) rfl .nil)⟩, ⟨_, rfl, by decide⟩, by decide⟩
  exact ⟨hanswered, (functionProbe_early _ hanswered).1⟩

/-- When the STATUS comes in a packet of its own, it is left on the stream. -/
theorem lobRead_leaves_status :
    readClassicDataResponseProbedWithLimits .default ((FunctionProbe.lobRead []).judge asciiStd noImages {} .default)
      ([0, 0, 0, 14, 6, 0, 0, 0, 0, 0, 14, 2, 0xaa, 0xbb] ++ [0, 0, 0, 13, 6, 0, 0, 0, 0, 0, 9, 0, 0]) =
      .ok ⟨[14, 2, 0xaa, 0xbb], [0, 0, 0, 13, 6, 0, 0, 0, 0, 0, 9, 0, 0], []⟩ ∧
    ¬ReadsExactly .default ((FunctionProbe.lobRead []).judge asciiStd noImages {} .default)
      [14, 2, 0xaa, 0xbb, 9, 0, 0] := by
  refine ⟨rfl, fun h => ?_⟩
  have hread := h ⟨[⟨0, 0, [14, 2, 0xaa, 0xbb]⟩, ⟨0, 0, [9, 0, 0]⟩], _, rfl, rfl, by decide, by decide⟩ []
  cases hread

end OracleThin.Classic

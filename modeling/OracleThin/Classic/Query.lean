import OracleThin.Classic.Loop
import OracleThin.Ttc.Borrowed
import OracleThin.Ttc.Connect

/-!
# The probes of queries and of the connect phase

The owned parser of query responses, the zero-copy parser of fetch responses and the completeness check of the connect
phase as message loops that know their end. On a response that a plain reader accepts none of them takes a proper
prefix for the whole. On other responses they may: a chunked field that is cut is read again as raw bytes, and what
these leave over may look like the end of the call.
-/

namespace OracleThin.Classic

open Lib Lib.Parser Wire Ttc

variable {J V : Type} {reader : TtcReader}

private theorem handles_unknownQueryMessage {σ : Type} {ended : σ → Bool} {s : σ} {reports : ProtocolError → Prop}
    {plain ends : Prop} (std : StdLib) (payload : List UInt8) (ttcFieldVersion : Nat) (messageType : UInt8)
    (p : Read (Flow ProtocolError σ)) :
    Handles ended s reports plain ends (unknownQueryMessage std payload ttcFieldVersion messageType) p := by
  have hne (b x) : unknownQueryMessage
    (α := Flow ProtocolError σ) std payload ttcFieldVersion messageType b ≠ .ok x := by
    intro h
    unfold unknownQueryMessage at h
    dsimp only at h
    split at h <;> cases h
  exact ⟨fun _ => ⟨fun b _ _ h => absurd h (hne b _)⟩, fun b _ _ h => absurd h (hne b _)⟩

private theorem readU8_bind_eq_ok {α : Type} {f : UInt8 → Read α} {b r : List UInt8} {a : α}
    (h : (readU8 >>= f) b = .ok (a, r)) : ∃ messageType ∈ b.head?, ∃ b', f messageType b' = .ok (a, r) := by
  cases b with
  | nil => cases h
  | cons messageType b' => exact ⟨messageType, rfl, b', h⟩

/-- The error of an ERROR message. -/
def IsServerError (e : ProtocolError) : Prop := ∃ details, e = .serverErrorInfo details

/-! ### The owned parser -/

section

variable (ctx : QueryContext J V)

private theorem yields_rowData (s : QueryState J V) :
    Yields (fun s' => s'.responseBoundarySeen = true → s.responseBoundarySeen = true) (ctx.rowData reader s) := by
  refine yields_ite (fun _ => yields_bind fun _ => yields_pure id) fun _ => ?_
  exact yields_ite (fun _ => yields_bind fun _ => yields_pure id) fun _ => yields_bind fun _ => yields_pure id

private theorem outcome_serverError {s : QueryState J V} {info : ServerErrorInfo} {ends : Prop} (h : ends) :
    Outcome QueryState.responseBoundarySeen s IsServerError ends (QueryContext.serverError s info) := by
  unfold QueryContext.serverError
  dsimp only
  repeat' split
  all_goals first | exact .ended h rfl | exact .failed h ⟨_, rfl⟩

/-- The messages that end the call of a query. -/
def EndsQuery (messageType : UInt8) : Prop := messageType = tnsMsgTypeError ∨ messageType = tnsMsgTypeStatus

instance : DecidablePred EndsQuery := fun _ => inferInstanceAs (Decidable (_ ∨ _))

private theorem handles_queryBody (payload payload' : List UInt8) (s : QueryState J V) (messageType : UInt8) :
    Handles QueryState.responseBoundarySeen s IsServerError (reader.plain = true) (EndsQuery messageType)
      (ctx.body reader payload s messageType) (ctx.body reader.driver payload' s messageType) := by
  refine .ite (fun h => .pure (.goesOn (h ▸ by decide) id)) fun _ => ?_
  refine .ite (fun h => ⟨fun _ => Tracks.map _ (follows_readBytes.bind fun _ => ?_), ?_⟩) fun _ => ?_
  · exact (loose_parseDescribeInfo ctx.capabilities).bind_lax (fun _ => tracks_pure _)
      fun _ _ _ => .pure ⟨_, rfl, id⟩
  · exact yields_map (yields_bind fun _ => yields_bind fun _ => yields_pure (.goesOn (h ▸ by decide) id))
  refine .ite (fun h => .goesOn (h ▸ by decide) loose_parseRowHeader fun _ => id) fun _ => ?_
  refine .ite (fun h => ⟨fun _ => Tracks.map _ (firm_rowData ctx s).weaken, yields_map fun b s' r hrow => ?_⟩)
    fun _ => ?_
  · exact .goesOn (h ▸ by decide) (yields_rowData ctx s b s' r hrow)
  refine .ite (fun h => .bind fun _ => .pure (.goesOn (h ▸ by decide) id)) fun _ => ?_
  refine .ite (fun h => .bind fun _ => .pure (.goesOn (h ▸ by decide) id)) fun _ => ?_
  refine .ite (fun h => .bind fun _ => .bind fun _ => .pure (.ended (Or.inr h) rfl)) fun _ => ?_
  refine .ite (fun h => .bind fun _ => .pure (.goesOn (h ▸ by decide) id)) fun _ => ?_
  refine .ite (fun h => .pure (.stops ?_)) fun _ => ?_
  · rcases h with h | h <;> exact h ▸ by decide
  refine .ite (fun h => .goesOn (h ▸ by decide) loose_skipServerSidePiggyback fun _ => id) fun _ => ?_
  refine .ite (fun h => .bind fun _ => .pure (.goesOn (h ▸ by decide) id)) fun _ => ?_
  refine .ite (fun h => .bind fun _ => .pure (.goesOn (h ▸ by decide) id)) fun _ => ?_
  refine .ite (fun h => ⟨fun hplain => ?_, ?_⟩) fun _ => handles_unknownQueryMessage ..
  · exact (firm_parseServerErrorInfo ctx.std (Or.inl hplain)).bind fun _ => tracks_pure _
  · exact yields_bind fun _ => yields_pure (outcome_serverError (Or.inl h))

def queryLoop : MessageLoop (QueryState J V) where
  message := ctx.message
  start := ctx.start
  ended := QueryState.responseBoundarySeen
  endsCall := EndsQuery
  reports := IsServerError
  not_ended_start := rfl
  tracks_message := fun _ payload payload' s hplain =>
    follows_readU8.bind fun messageType => (handles_queryBody ctx payload payload' s messageType).tracks hplain
  outcome := fun _ payload s b flow r h => by
    obtain ⟨messageType, htype, b', hbody⟩ := readU8_bind_eq_ok h
    exact ⟨messageType, htype, (handles_queryBody ctx payload payload s messageType).yields b' flow r hbody⟩

end

/-! ### The zero-copy parser -/

section

variable (ctx : BorrowedContext J V)

private theorem outcome_fetchServerError {s : BorrowedState} {info : ServerErrorInfo} {ends : Prop} (h : ends) :
    Outcome BorrowedState.responseBoundarySeen s IsServerError ends (BorrowedContext.serverError s info) := by
  unfold BorrowedContext.serverError
  dsimp only
  split
  · exact .ended h rfl
  split
  · exact .failed h ⟨_, rfl⟩
  · exact .ended h rfl

private theorem handles_fetchBody (payload payload' : List UInt8) (s : BorrowedState) (messageType : UInt8) :
    Handles BorrowedState.responseBoundarySeen s IsServerError (reader.plain = true) (EndsQuery messageType)
      (ctx.body reader payload s messageType) (ctx.body reader.driver payload' s messageType) := by
  refine .ite (fun h => .pure (.goesOn (h ▸ by decide) id)) fun _ => ?_
  refine .ite (fun h => ⟨fun _ => Tracks.map _ (follows_readBytes.bind fun _ => ?_), ?_⟩) fun _ => ?_
  · exact (loose_parseDescribeInfo ctx.capabilities).bind_lax (fun _ => tracks_pure _)
      fun _ _ _ => .pure ⟨_, rfl, id⟩
  · exact yields_map (yields_bind fun _ => yields_bind fun _ => yields_pure (.goesOn (h ▸ by decide) id))
  refine .ite (fun h => .goesOn (h ▸ by decide) loose_parseRowHeader fun _ => id) fun _ => ?_
  refine .ite (fun h => .bind fun _ => .pure (.goesOn (h ▸ by decide) id)) fun _ => ?_
  refine .ite (fun h => ⟨fun _ => Tracks.map _ (firm_borrowedRowData ctx s).weaken, ?_⟩) fun _ => ?_
  · exact yields_map (yields_bind fun _ => yields_bind fun _ => yields_pure (.goesOn (h ▸ by decide) id))
  refine .ite (fun h => .bind fun _ => .pure (.goesOn (h ▸ by decide) id)) fun _ => ?_
  refine .ite (fun h => .bind fun _ => .bind fun _ => .pure (.ended (Or.inr h) rfl)) fun _ => ?_
  refine .ite (fun h => .goesOn (h ▸ by decide) loose_skipServerSidePiggyback fun _ => id) fun _ => ?_
  refine .ite (fun h => .pure (.stops ?_)) fun _ => ?_
  · rcases h with h | h <;> exact h ▸ by decide
  refine .ite (fun h => .bind fun _ => .pure (.goesOn (h ▸ by decide) id)) fun _ => ?_
  refine .ite (fun h => .bind fun _ => .pure (.goesOn (h ▸ by decide) id)) fun _ => ?_
  refine .ite (fun h => ⟨fun hplain => ?_, ?_⟩) fun _ => handles_unknownQueryMessage ..
  · exact (firm_parseServerErrorInfo ctx.std (Or.inl hplain)).bind fun _ => tracks_pure _
  · exact yields_bind fun _ => yields_pure (outcome_fetchServerError (Or.inl h))

private theorem outcome_advance {s : BorrowedState} {ends : Prop} {flow : Flow ProtocolError BorrowedState}
    (h : Outcome BorrowedState.responseBoundarySeen s IsServerError ends flow) (consumed : Nat) :
    Outcome BorrowedState.responseBoundarySeen s IsServerError ends (BorrowedContext.advance consumed flow) := by
  cases h with
  | goesOn h hs => exact .goesOn h hs
  | stops h => exact .stops h
  | ended h hs => exact .ended h hs
  | endedAtOnce h hs => exact .endedAtOnce h hs
  | failed h he => exact .failed h he

private theorem tracks_fetchMessage (hplain : reader.plain = true) (payload payload' : List UInt8)
    (s : BorrowedState) :
    Tracks IsDecode (reader.plain = true) (GoesOn BorrowedState.responseBoundarySeen s)
      (ctx.message reader payload s) (ctx.message reader.driver payload' s) := by
  have hbody := tracks_counted (follows_readU8.bind fun messageType =>
    (handles_fetchBody ctx payload payload' s messageType).tracks hplain)
  refine hbody.bind_lax (fun x => tracks_pure _) ?_
  rintro - ⟨flow, consumed⟩ ⟨s', rfl, hs'⟩
  exact .pure ⟨_, rfl, hs'⟩

def fetchLoop : MessageLoop BorrowedState where
  message := ctx.message
  start := { columns := ctx.columns }
  ended := BorrowedState.responseBoundarySeen
  endsCall := EndsQuery
  reports := IsServerError
  not_ended_start := rfl
  tracks_message := fun _ payload payload' s hplain => tracks_fetchMessage ctx hplain payload payload' s
  outcome := fun _ payload s b flow r h => by
    obtain ⟨⟨flow', consumed⟩, r', hcounted, hpure⟩ := bind_eq_ok h
    cases hpure
    obtain ⟨messageType, htype, b', hbody⟩ := readU8_bind_eq_ok (counted_eq_ok hcounted).1
    have houtcome := (handles_fetchBody ctx payload payload s messageType).yields b' flow' r hbody
    exact ⟨messageType, htype, outcome_advance houtcome consumed⟩

end

/-! ### The connect phase -/

section

variable (std : StdLib)

/-- The messages that end a response of the connect phase. -/
def EndsConnect (messageType : UInt8) : Prop :=
  messageType = tnsMsgTypeError ∨ messageType = tnsMsgTypeStatus ∨ messageType = tnsMsgTypeProtocol ∨
    messageType = tnsMsgTypeDataTypes

instance : DecidablePred EndsConnect := fun _ => inferInstanceAs (Decidable (_ ∨ _))

private theorem handles_connectBody (payload payload' : List UInt8) (s : Bool) (messageType : UInt8) :
    Handles id s (fun _ => False) (reader.plain = true) (EndsConnect messageType)
      (connectBody std reader payload messageType) (connectBody std reader.driver payload' messageType) := by
  refine .ite (fun h => .bind fun _ => .pure (.endedAtOnce (h ▸ by decide) rfl)) fun _ => ?_
  refine .ite (fun h => .bind fun _ => .pure (.endedAtOnce (h ▸ by decide) rfl)) fun _ => ?_
  refine .ite (fun h => .bind fun _ => .pure (.goesOn (h ▸ by decide) nofun)) fun _ => ?_
  refine .ite (fun h => .bind fun _ => .bind fun _ =>
    .pure (.endedAtOnce (h ▸ by decide) rfl)) fun _ => ?_
  refine .ite (fun h => .goesOn (h ▸ by decide) loose_skipServerSidePiggyback nofun) fun _ => ?_
  refine .ite (fun h => .pure (.stops (h ▸ by decide))) fun _ => ?_
  refine .ite (fun h => ⟨fun hplain => ?_, ?_⟩) fun _ => ⟨fun _ => ⟨nofun⟩, nofun⟩
  · exact ((firm_parseServerErrorInfo std (Or.inl hplain)).bind fun _ => tracks_pure _).bind fun _ => tracks_pure _
  · exact yields_bind fun _ => yields_pure (.endedAtOnce (h ▸ by decide) rfl)

def connectLoop : MessageLoop Bool where
  message := connectMessage std
  start := false
  ended := id
  endsCall := EndsConnect
  reports := fun _ => False
  not_ended_start := rfl
  tracks_message := fun _ payload payload' s hplain =>
    follows_readU8.bind fun messageType => (handles_connectBody std payload payload' s messageType).tracks hplain
  outcome := fun _ payload s b flow r h => by
    obtain ⟨messageType, htype, b', hbody⟩ := readU8_bind_eq_ok h
    exact ⟨messageType, htype, (handles_connectBody std payload payload s messageType).yields b' flow r hbody⟩

end

/-! ### The probes -/

/-- The parsers that tell the driver whether a response to a query, to a fetch or of the connect phase is complete. -/
inductive QueryProbe (J V : Type)
  | query (ctx : QueryContext J V)
  | fetch (ctx : BorrowedContext J V)
  | connect (std : StdLib)

namespace QueryProbe

def judge (limits : ProtocolLimits) (probe : QueryProbe J V) : Probe := fun payload =>
  match probe with
  | query ctx => responseComplete (parseQueryResponseWithContextBindsOptionsLobModeAndLimits ctx payload limits)
  | fetch ctx => responseComplete (parseQueryResponseBorrowedWithLobModeAndLimits ctx payload limits)
  | connect std => classicConnectResponseIsComplete std limits payload

/-- The messages make up a response for the given reader: each is complete, and the only one that ends the call is the
last one. -/
def Answered (reader : TtcReader) (ms : List (List UInt8)) : QueryProbe J V → Prop
  | query ctx => (queryLoop ctx).Answers reader ms
  | fetch ctx => reader.limits.checkColumns ctx.columns.length = .ok () ∧ (fetchLoop ctx).Answers reader ms
  | connect std => (connectLoop std).Answers reader ms

end QueryProbe

section

variable {limits : ProtocolLimits} {ms : List (List UInt8)} {σ α : Type} {loop : MessageLoop σ}

private theorem judge_of_answers {judge : Probe} (h : loop.Answers { limits, plain := true } ms)
    (hfalse : ∀ payload, TtcReader.withLimits payload limits = .ok { limits } →
      Unfinished IsDecode (fun s => loop.ended s = false)
        (scan (loop.message { limits } payload) payload.length loop.start payload) → judge payload = .ok false)
    (htrue : ∀ payload, TtcReader.withLimits payload limits = .ok { limits } →
      loop.Finished (scan (loop.message { limits } payload) payload.length loop.start payload) →
      judge payload = .ok true) :
    (∀ t, t <+: ms.flatten → t ≠ ms.flatten → judge t = .ok false) ∧ judge ms.flatten = .ok true ∧
      ReadsExactly limits judge ms.flatten := by
  have hshorter : ∀ t, t <+: ms.flatten → t ≠ ms.flatten → judge t = .ok false := by
    intro t ht hne
    exact hfalse t (withLimits_of_length_le h.fits ht.length_le) (h.unfinished rfl ht hne)
  have hwhole : judge ms.flatten = .ok true := htrue _ h.fits (h.finished rfl)
  refine ⟨hshorter, hwhole, readsExactly_of_prefix ?_ (TtcReader.withLimits_eq_ok_iff.1 h.fits).2.2.1 hshorter hwhole⟩
  obtain ⟨m, hm, -⟩ := h.last
  obtain ⟨result, hrun⟩ := h.run
  have hmem : m ∈ ms := List.mem_of_getLast? hm
  exact fun hnil => hrun.ne_nil m hmem (List.flatten_eq_nil_iff.1 hnil m hmem)

/-- A probe that asks whether a parser reports a result or a server error. -/
private theorem judge_of_responseComplete {judge : Probe} {f : List UInt8 → σ → Result α}
    (h : loop.Answers { limits, plain := true } ms) (hreports : loop.reports = IsServerError)
    (hjudge : ∀ payload, TtcReader.withLimits payload limits = .ok { limits } → judge payload =
      responseComplete (scan (loop.message { limits } payload) payload.length loop.start payload >>= f payload))
    (hmore : ∀ payload s, loop.ended s = false → ∃ message, f payload s = .error (.ttcDecode message))
    (hdone : ∀ payload s, loop.ended s = true → ∃ result, f payload s = .ok result) :
    (∀ t, t <+: ms.flatten → t ≠ ms.flatten → judge t = .ok false) ∧ judge ms.flatten = .ok true ∧
      ReadsExactly limits judge ms.flatten := by
  refine judge_of_answers h (fun payload hfits hscan => ?_) fun payload hfits hscan => ?_
  · rw [hjudge payload hfits]
    rcases hscan with ⟨e, hscan, message, rfl⟩ | ⟨s, hs, hscan⟩
    · rw [hscan]
      rfl
    · obtain ⟨message, hmessage⟩ := hmore payload s hs
      simp only [hscan, bind, Except.bind, hmessage, responseComplete]
  · rw [hjudge payload hfits]
    unfold MessageLoop.Finished at hscan
    rw [hreports] at hscan
    rcases hscan with ⟨s, hscan, hs⟩ | ⟨e, hscan, details, rfl⟩
    · obtain ⟨result, hresult⟩ := hdone payload s hs
      simp only [hscan, bind, Except.bind, hresult, responseComplete]
    · rw [hscan]
      rfl

theorem judge_query (ctx : QueryContext J V) (h : (queryLoop ctx).Answers { limits, plain := true } ms) :
    (∀ t, t <+: ms.flatten → t ≠ ms.flatten → (QueryProbe.query ctx).judge limits t = .ok false) ∧
    (QueryProbe.query ctx).judge limits ms.flatten = .ok true ∧
      ReadsExactly limits ((QueryProbe.query ctx).judge limits) ms.flatten := by
  refine judge_of_responseComplete (f := fun _ => finishQuery) h rfl (fun payload hfits => ?_)
    (fun _ s hs => ⟨_, if_neg (Bool.eq_false_iff.1 hs)⟩) fun _ s hs => ⟨_, if_pos hs⟩
  unfold QueryProbe.judge parseQueryResponseWithContextBindsOptionsLobModeAndLimits
  rw [hfits]
  rfl

end

/-- On a response that a plain reader accepts, none of the probes takes a proper prefix for the whole, and the classic
reader returns the response however it is cut. -/
theorem queryProbe_exact {limits : ProtocolLimits} (probe : QueryProbe J V) {ms : List (List UInt8)}
    (h : probe.Answered { limits, plain := true } ms) :
    (∀ t, t <+: ms.flatten → t ≠ ms.flatten → probe.judge limits t = .ok false) ∧
    probe.judge limits ms.flatten = .ok true ∧ ReadsExactly limits (probe.judge limits) ms.flatten := by
  cases probe with
  | query ctx => exact judge_query ctx h
  | fetch ctx =>
    obtain ⟨hcolumns, h⟩ := h
    refine judge_of_responseComplete (f := ctx.finish) h rfl (fun payload hfits => ?_)
      (fun _ s hs => ⟨_, if_neg (Bool.eq_false_iff.1 hs)⟩) fun _ s hs => ⟨_, if_pos hs⟩
    unfold QueryProbe.judge parseQueryResponseBorrowedWithLobModeAndLimits
    rw [hfits]
    simp only [bind, Except.bind]
    rw [hcolumns]
    rfl
  | connect std =>
    refine judge_of_answers h (fun payload hfits hscan => ?_) fun payload hfits hscan => ?_
    · unfold QueryProbe.judge classicConnectResponseIsComplete
      rw [hfits]
      dsimp only
      rcases hscan with ⟨e, hscan, message, rfl⟩ | ⟨s, hs, hscan⟩
      · rw [show scan (connectMessage std { limits } payload) payload.length false payload = _ from hscan]
      · rw [show scan (connectMessage std { limits } payload) payload.length false payload = _ from hscan]
        exact congrArg Except.ok hs
    · unfold QueryProbe.judge classicConnectResponseIsComplete
      rw [hfits]
      dsimp only
      rcases hscan with ⟨s, hscan, hs⟩ | ⟨e, -, hfalse⟩
      · rw [show scan (connectMessage std { limits } payload) payload.length false payload = _ from hscan]
        exact congrArg Except.ok hs
      · exact hfalse.elim

/-- The probe of a query without columns and binds. -/
def bareQuery : QueryProbe Unit Unit := .query { std := asciiStd, images := noImages }

/-- A piggyback message and then a STATUS. -/
theorem queryProbe_exact_status :
    bareQuery.Answered { limits := .default, plain := true } [[23, 2, 0, 2, 0xaa, 0xbb], [9, 0, 0]] ∧
    ReadsExactly .default (bareQuery.judge .default) [23, 2, 0, 2, 0xaa, 0xbb, 9, 0, 0] := by
  have hanswered : bareQuery.Answered
    { limits := .default, plain := true } [[23, 2, 0, 2, 0xaa, 0xbb], [9, 0, 0]] := by
    refine ⟨rfl, ⟨_, .next (by decide) rfl (.next (by decide) rfl .nil)⟩, ⟨_, rfl, 9, rfl, Or.inr rfl⟩, ?_⟩
    simp [MessageLoop.EndsCall, queryLoop, EndsQuery, tnsMsgTypeError, tnsMsgTypeStatus]
  exact ⟨hanswered, (queryProbe_exact bareQuery hanswered).2.2⟩

/-- A logical transaction id in chunks that contain what looks like a STATUS, cut before its last byte; and, in the
connect phase, an ERROR with SQL type and checksum, cut within that pair. -/
theorem query_early_chunked :
    (bareQuery.Answered { limits := .default } [[23, 7, 1, 3, 0xfe, 1, 3, 9, 0, 0, 0], [9, 0, 0]] ∧
      bareQuery.judge .default [23, 7, 1, 3, 0xfe, 1, 3, 9, 0, 0] = .ok true ∧
      ¬ReadsExactly .default (bareQuery.judge .default) [23, 7, 1, 3, 0xfe, 1, 3, 9, 0, 0, 0, 9, 0, 0]) ∧
    (QueryProbe.connect asciiStd : QueryProbe Unit Unit).Answered { limits := .default }
      [4 :: List.replicate 28 0 ++ [1, 1, 0, 0, 0, 3, 65, 66, 67]] ∧
    (QueryProbe.connect asciiStd : QueryProbe Unit Unit).judge .default (4 :: List.replicate 28 0 ++ [1, 1, 0, 0]) =
      .ok true := by
  refine ⟨⟨⟨rfl, ⟨_, .next (by decide) rfl (.next (by decide) rfl .nil)⟩, ⟨_, rfl, 9, rfl, Or.inr rfl⟩, ?_⟩, rfl, ?_⟩,
    ⟨rfl, ⟨_, .stop (by decide) rfl⟩, ⟨_, rfl, 4, rfl, Or.inl rfl⟩, nofun⟩, rfl⟩
  · simp [MessageLoop.EndsCall, queryLoop, EndsQuery, tnsMsgTypeError, tnsMsgTypeStatus]
  · intro h
    have hread := h ⟨[⟨0, 0, [23, 7, 1, 3, 0xfe, 1, 3, 9, 0, 0]⟩, ⟨0, 0, [0, 9, 0, 0]⟩], _, rfl, rfl, by decide,
      by decide⟩ []
    cases hread

end OracleThin.Classic

import OracleThin.Session.Aligned
import OracleThin.Session.Pipeline

/-!
# What a pipeline leaves on the wire

While a pipeline writes, the responses to its first messages arrive; nothing records that they are outstanding. So a
pipeline that returns from the middle of its writes leaves them on the wire with the session ready. It does not when
its messages are all written: a read that fails then leaves a phase that makes the next operation drain the wire, and
after a call timeout the pipeline drains it.
-/

namespace OracleThin.Session

open Lib Wire SessionRecoveryPhase

/-! ### Pending responses -/

/-- One response that its END_OF_RESPONSE flag delimits. -/
def AnswersMessage (answer : List (List UInt8)) : Prop :=
  ∃ pieces, OnlyLastEnds pieces ∧ pieces.mapM (DataPiece.encode .large32) = .ok answer

/-- The responses that are unread or not yet sent; a part of the first one may have been read. -/
structure Pending (limits : ProtocolLimits) (inbound : List UInt8) (outbox : List (List UInt8))
    (responses : List (List DataPiece)) : Prop where
  unread : Unread limits inbound outbox (responses.flatten.map DataPiece.incoming)
  delimited : ∀ pieces ∈ responses, OnlyLastEnds pieces

variable {packet : List UInt8} {pieces : List DataPiece}

theorem forall₂_carries (limits : ProtocolLimits) {packets : List (List UInt8)}
    (h : pieces.mapM (DataPiece.encode .large32) = .ok packets) :
    List.Forall₂ (Carries limits) packets (pieces.map DataPiece.incoming) := by
  have hencoded := forall₂_of_mapM_eq_ok h
  clear h
  induction hencoded with
  | nil => exact .nil
  | cons h _ ih => exact .cons (carries_encodePacket limits h) ih

theorem drainable_incoming (pieces : List DataPiece) : Drainable (pieces.map DataPiece.incoming) := by
  induction pieces with
  | nil => exact .nil
  | cons piece pieces ih => exact .data rfl ih

theorem onlyLastEnds_cons {piece : DataPiece} (h : OnlyLastEnds (piece :: pieces)) :
    (pieces = [] ∧ piece.Flagged) ∨ (piece.Inner ∧ OnlyLastEnds pieces) := by
  obtain ⟨init, last, heq, hlast, hinit⟩ := h
  cases init with
  | nil =>
    rw [List.nil_append, List.cons.injEq] at heq
    exact Or.inl ⟨heq.2, heq.1 ▸ hlast⟩
  | cons first init =>
    rw [List.cons_append, List.cons.injEq] at heq
    rw [heq.1]
    exact Or.inr ⟨hinit first (List.mem_cons_self ..), init, last, heq.2, hlast,
      fun piece hpiece => hinit piece (List.mem_cons_of_mem _ hpiece)⟩

theorem onlyLastEnds_ne_nil (h : OnlyLastEnds pieces) : pieces ≠ [] := by
  obtain ⟨init, last, rfl, -, -⟩ := h
  simp

section

variable {limits : ProtocolLimits} {inbound : List UInt8} {outbox : List (List UInt8)}
  {responses : List (List DataPiece)} {r : Reassembly} {piece : DataPiece}

theorem pending_nil : Pending limits [] [] [] := ⟨unread_nil, nofun⟩

theorem Pending.serve (h : Pending limits inbound (packet :: outbox) responses) :
    Pending limits (inbound ++ packet) outbox responses :=
  ⟨h.unread.serve, h.delimited⟩

theorem Pending.append {answer : List (List UInt8)} (h : Pending limits inbound outbox responses)
    (hanswer : AnswersMessage answer) :
    ∃ pieces, Pending limits inbound (outbox ++ answer) (responses ++ [pieces]) := by
  obtain ⟨pieces, hends, hencoded⟩ := hanswer
  refine ⟨pieces, ?_, ?_⟩
  · rw [List.flatten_append, List.map_append, List.flatten_singleton]
    exact h.unread.append (forall₂_carries limits hencoded)
  · intro pieces' hmem
    rcases List.mem_append.1 hmem with hmem | hmem
    · exact h.delimited pieces' hmem
    · rw [List.mem_singleton.1 hmem]
      exact hends

/-- What the reader gets that has a response before it: it waits, fails for good, comes closer to the end of the
response, or is there and has the next response before it. -/
theorem Pending.read (h : Pending limits inbound outbox (pieces :: responses)) (hr : r.afterReset = false) :
    readPacketWithLimits .large32 limits inbound = .error .io ∨
      (∃ e, readPacketWithLimits .large32 limits inbound = .error (.protocol e)) ∨
      ∃ packet inbound', readPacketWithLimits .large32 limits inbound = .ok (packet, inbound') ∧
        ((∃ r' pieces', boundaryPacket limits true none r packet = .ok (.more r') ∧ r'.afterReset = false ∧
            Pending limits inbound' outbox (pieces' :: responses)) ∨
          (∃ response, boundaryPacket limits true none r packet = .ok (.done response) ∧
            Pending limits inbound' outbox responses) ∨
          ∃ e, boundaryPacket limits true none r packet = .error (.protocol e)) := by
  have hends := h.delimited pieces (List.mem_cons_self ..)
  have hlater : ∀ pieces ∈ responses, OnlyLastEnds pieces := fun pieces hmem =>
    h.delimited pieces (List.mem_cons_of_mem _ hmem)
  rcases h.unread.read with hio | ⟨_, hprotocol⟩ | ⟨packet, rest, inbound', heq, hread, hrest⟩
  · exact Or.inl hio
  · exact Or.inr (Or.inl hprotocol)
  · refine Or.inr (Or.inr ⟨packet, inbound', hread, ?_⟩)
    cases pieces with
    | nil => exact absurd rfl (onlyLastEnds_ne_nil hends)
    | cons piece pieces =>
      obtain ⟨rfl, rfl⟩ := heq
      rcases onlyLastEnds_cons hends with ⟨rfl, hflagged⟩ | ⟨hinner, hends⟩
      · rw [boundaryPacket_flagged hflagged]
        cases limits.checkResponseBytes (r.response.length + piece.payload.length) with
        | ok => exact Or.inr (Or.inl ⟨_, rfl, hrest, hlater⟩)
        | error e => exact Or.inr (Or.inr ⟨e, rfl⟩)
      · rw [boundaryPacket_inner hinner (by rw [hr]; rfl)]
        cases limits.checkResponseBytes (r.response.length + piece.payload.length) with
        | ok =>
          refine Or.inl ⟨_, pieces, rfl, hr, hrest, ?_⟩
          intro pieces' hmem
          rcases List.mem_cons.1 hmem with rfl | hmem
          · exact hends
          · exact hlater pieces' hmem
        | error e => exact Or.inr (Or.inr ⟨e, rfl⟩)

end

/-! ### The property and the condition -/

/-- All messages have been written, and nothing of the server's answers is unread or still to come. -/
structure AllRead {β : Type} (call : PipelineCall β) (w : PipelineWorld) : Prop where
  sent : w.sent = call.requests.length + 1
  inbound : w.session.inbound = []
  outbox : w.session.server.outbox = []
  turns : w.session.server.turns = []

/-- When the pipeline has returned and the phase is ready, no byte of it was written, or all of it was written and all
responses were read. -/
def StrandsNothing {β : Type} (call : PipelineCall β) (w : PipelineWorld) : Prop :=
  ∀ result, w.stage = .returned result → w.session.phase = .ready → w.bytes = 0 ∨ AllRead call w

/-- The server answers each message with one response. After a BREAK it finishes the response it is at with an error
and goes on with the responses to the later messages. -/
def PipelineConforms {β : Type} (call : PipelineCall β) (w : PipelineWorld) : PipelineAction → Prop
  | .write answer =>
    match w.stage with
    | .sending _ _ [_] => AnswersMessage answer
    | _ => True
  | .drain (.sendBreak _ trailing) =>
    match w.stage with
    | .recovering _ => ∃ (error : List (List UInt8)) (later : List (List (List UInt8))),
        trailing = error ++ later.flatten ∧ AnswersBreak call.settings error ∧ ∀ answer ∈ later, AnswersMessage answer
    | _ => AnswersBreak call.settings trailing
  | _ => True

/-- The step leaves responses behind: a message is refused, or cannot be written, when a byte of the pipeline has been
written; a read times out inside a packet; or responses to later messages follow the one that a BREAK has ended. -/
def LeavesBehind {β : Type} (call : PipelineCall β) (w : PipelineWorld) : PipelineAction → Prop
  | .encode =>
    match w.stage with
    | .encoding index => w.bytes ≠ 0 ∧ ∃ e, call.messagePackets index w = .error e
    | _ => False
  | .writeFail bytes => w.bytes + bytes ≠ 0
  | .readFail bytes (.callTimeout _) | .readFail bytes (.cancelled .timeout) => bytes ≠ 0
  | .drain (.sendBreak _ trailing) =>
    match w.stage with
    | .recovering _ => ¬AnswersBreak call.settings trailing
    | _ => False
  | _ => False

/-! ### The invariant -/

/-- Nothing runs on the session, or a drain that no operation waits for. -/
def DrainsAlone : Client → Prop
  | .idle | .breaking none | .draining none _ _ => True
  | _ => False

/-- Of `count` messages that were written, the responses that have not been read are pending. -/
structure Flowing (settings : Settings) (w : PipelineWorld) (count : Nat) : Prop where
  client : w.session.client = .idle
  turns : w.session.server.turns = []
  sent : w.sent = count
  pending : ∃ responses, Pending settings.limits w.session.inbound w.session.server.outbox responses ∧
    responses.length + w.responses.length = count

def PipelineInv {β : Type} (call : PipelineCall β) (w : PipelineWorld) : Prop :=
  match w.stage with
  | .entry => Inv call.settings w.session ∧ w.session.client = .idle ∧ w.bytes = 0 ∧ w.sent = 0 ∧ w.responses = []
  | .cleaning =>
    Inv call.settings w.session ∧ DrainsAlone w.session.client ∧ w.bytes = 0 ∧ w.sent = 0 ∧ w.responses = []
  | .encoding index =>
    w.session.phase = .ready ∧ index ≤ call.requests.length ∧ w.responses = [] ∧
      Settled w.session.server w.session.requests ∧ Flowing call.settings w index
  | .sending index written left =>
    w.session.phase = .ready ∧ index ≤ call.requests.length ∧ w.responses = [] ∧
      if left = [] then Settled w.session.server w.session.requests ∧ Flowing call.settings w (index + 1)
      else MidMessage w.session.server w.session.requests written left ∧ Flowing call.settings w index
  | .reading r =>
    w.session.phase = .inFlight ∧ r.afterReset = false ∧ w.responses.length < call.requests.length + 1 ∧
      Settled w.session.server w.session.requests ∧ Flowing call.settings w (call.requests.length + 1)
  | .recovering _ =>
    Inv call.settings w.session ∧ DrainsAlone w.session.client ∧ w.sent = call.requests.length + 1
  | .returned _ => w.session.phase = .ready → w.bytes = 0 ∨ AllRead call w

/-- Nothing of the pipeline has been written. -/
def Unsent (w : PipelineWorld) : Prop := w.bytes = 0 ∧ w.sent = 0 ∧ w.responses = []

section

variable {β : Type} {call : PipelineCall β} {w w' : PipelineWorld}

theorem PipelineInv.strandsNothing (h : PipelineInv call w) : StrandsNothing call w := by
  intro result hstage
  rw [PipelineInv, hstage] at h
  exact h

/-! ### The steps -/

section

variable (hinv : Inv call.settings w.session) (hclient : w.session.client = .idle) (hunsent : Unsent w)
include hinv hclient hunsent

theorem pipelineInv_proceed (hphase : w.session.phase = .ready) : PipelineInv call (call.proceed w) := by
  obtain ⟨hbytes, hsent, hresponses⟩ := hunsent
  rw [Inv, hclient] at hinv
  have hclean : Clean w.session.server w.session.inbound w.session.requests := by
    rcases hinv with hdead | ⟨-, hclean⟩ | ⟨hstranded, -⟩
    · simp [hphase] at hdead
    · exact hclean
    · simp [hphase] at hstranded
  unfold PipelineCall.proceed
  split
  · exact fun _ => Or.inl hbytes
  · refine ⟨hphase, Nat.zero_le _, hresponses, hclean.settled, hclient, hclean.turns, hsent, [], ?_, ?_⟩
    · rw [hclean.inbound, hclean.outbox]
      exact pending_nil
    · rw [hresponses]
      rfl

theorem pipelineInv_ensureClean : PipelineInv call (call.ensureClean w) := by
  have hrest := hinv.atRest (Or.inl hclient)
  unfold PipelineCall.ensureClean
  rcases hrest with hdead | ⟨hready, hclean⟩ | ⟨hbreak | hflight, hstranded⟩
  · simp only [hdead, beginPendingDrain, reduceCtorEq, if_false]
    exact fun _ => Or.inl hunsent.1
  · simp only [hready, beginPendingDrain, reduceCtorEq, if_false]
    refine pipelineInv_proceed ?_ hclient hunsent rfl
    rw [Inv, hclient]
    exact Or.inr (Or.inl ⟨rfl, hclean⟩)
  · simp only [hbreak, beginPendingDrain, reduceCtorEq, if_false]
    exact ⟨⟨rfl, hstranded⟩, trivial, hunsent⟩
  · simp only [hflight, markBreakRequired, beginPendingDrain, if_true]
    exact ⟨⟨rfl, hstranded⟩, trivial, hunsent⟩

theorem pipelineInv_callStep {cancelled : Option CancelDisposition} :
    PipelineInv call (call.callStep cancelled w) := by
  unfold PipelineCall.callStep
  repeat' split
  case h_2.isFalse => exact pipelineInv_ensureClean hinv hclient hunsent
  all_goals exact fun _ => Or.inl hunsent.1

end

variable {index : Nat} {written left : List (List UInt8)} {settings : Settings}

/-- The steps of a drain keep the invariant of the session, and nothing but the drain runs. -/
theorem drainsAlone_step {session session' : World} {action : Action} (hinv : Inv settings session)
    (halone : DrainsAlone session.client) (hdrains : action.drains = true)
    (hserver : ∀ keep trailing, action = .sendBreak keep trailing → AnswersBreak settings trailing)
    (hs : step settings session action = some session') : Inv settings session' ∧ DrainsAlone session'.client := by
  have hok : AnswerEnds settings session action ∧ ¬GivesUpMidway session action := by
    cases action with
    | sendBreak keep trailing => exact ⟨hserver keep trailing rfl, id⟩
    | drainRead | drainReply | drainFail => exact ⟨trivial, id⟩
    | start | respond | cancel | write | flushed | giveUpSend | read | reply | giveUpRead | serve => cases hdrains
  refine ⟨inv_step hinv hok.1 hok.2 hs, ?_⟩
  unfold step at hs
  split at hs
  case h_6 next hclient | h_8 next _ _ hclient =>
    cases hs
    rw [hclient] at halone
    cases next with
    | none => trivial
    | some op => exact halone
  case h_7 next s hclient =>
    rw [hclient] at halone
    cases next with
    | some op => exact halone.elim
    | none =>
      unfold drainReadStep at hs
      split at hs
      · cases hs
      · cases hs
        trivial
      · split at hs <;> cases hs <;> trivial
  case h_9 | h_10 =>
    cases hs
    trivial
  all_goals first | cases hdrains | cases hs

/-! ### Writing -/

theorem operationPayload_ne_nil {seqNum : UInt8} {tokenNum : Nat} {request : PipelineRequest β} {payload : List UInt8}
    (h : call.operationPayload seqNum tokenNum request = .ok payload) : payload ≠ [] := by
  cases request with
  | execute sql bindRows prefetchRows =>
    obtain ⟨_, -, h⟩ := except_bind_eq_ok.1 h
    obtain ⟨_, -, h⟩ := except_bind_eq_ok.1 h
    exact call.buildExecute_ne_nil h
  | commit =>
    cases h
    exact List.cons_ne_nil _ _

theorem messagePackets_ne_nil {packets : List (List UInt8)} (h : call.messagePackets index w = .ok packets) :
    packets ≠ [] := by
  unfold PipelineCall.messagePackets at h
  split at h
  · obtain ⟨payload, hpayload, h⟩ := except_bind_eq_ok.1 h
    exact sendDataPacket_ne_nil (List.append_ne_nil_of_right_ne_nil _ (operationPayload_ne_nil hpayload)) h
  · exact sendDataPacket_ne_nil (List.cons_ne_nil _ _) h

theorem numbered_eq (call : PipelineCall β) (index : Nat) (w : PipelineWorld) :
    ∃ ttcSeqNum cursorsToClose, call.numbered index w = { w with ttcSeqNum, cursorsToClose } := by
  unfold PipelineCall.numbered
  split
  · exact ⟨_, _, rfl⟩
  · exact ⟨_, w.cursorsToClose, rfl⟩

theorem pipelineInv_encodeStep (hstage : w.stage = .encoding index) (h : PipelineInv call w)
    (hok : ¬LeavesBehind call w .encode) : PipelineInv call (call.encodeStep index w) := by
  rw [PipelineInv, hstage] at h
  obtain ⟨hphase, hindex, hresponses, hsettled, hflowing⟩ := h
  rw [LeavesBehind, hstage] at hok
  obtain ⟨ttcSeqNum, cursorsToClose, hnumbered⟩ := numbered_eq call index w
  unfold PipelineCall.encodeStep
  rw [hnumbered]
  cases hpackets : call.messagePackets index w with
  | error e =>
    refine fun _ => Or.inl ?_
    by_contra hbytes
    exact hok ⟨hbytes, e, hpackets⟩
  | ok packets =>
    refine ⟨hphase, hindex, hresponses, ?_⟩
    rw [if_neg (messagePackets_ne_nil hpackets)]
    exact ⟨⟨hsettled.got, hsettled.intact, w.session.requests, rfl, hsettled.written⟩,
      { hflowing with }⟩

theorem pipelineInv_writeStep {answer : List (List UInt8)}
    (hstage : w.stage = .sending index written (packet :: left)) (h : PipelineInv call w)
    (hanswer : left = [] → AnswersMessage answer) :
    PipelineInv call (PipelineCall.writeStep index written packet left answer w) := by
  rw [PipelineInv, hstage] at h
  obtain ⟨hphase, hindex, hresponses, hsending⟩ := h
  obtain ⟨hmid, hflowing⟩ := hsending
  refine ⟨hphase, hindex, hresponses, ?_⟩
  by_cases hleft : left = []
  · subst hleft
    obtain ⟨hserver, hwritten⟩ := hmid.writeLast answer []
    obtain ⟨responses, hpending, hlength⟩ := hflowing.pending
    obtain ⟨pieces, hpending⟩ := hpending.append (hanswer rfl)
    simp only [PipelineCall.writeStep, hserver]
    refine ⟨⟨rfl, hmid.intact, hwritten⟩, hflowing.client, rfl, ?_, _, hpending, ?_⟩
    · rw [List.isEmpty_nil, if_pos rfl, hflowing.sent]
    · rw [List.length_append, List.length_singleton]
      dsimp only
      omega
  · rw [if_neg hleft]
    obtain ⟨houtbox, hturns, hmid⟩ := hmid.write [answer] hleft
    refine ⟨hmid, hflowing.client, hturns.trans hflowing.turns, ?_, ?_⟩
    · simp [PipelineCall.writeStep, hleft, hflowing.sent]
    · simp only [PipelineCall.writeStep, houtbox]
      exact hflowing.pending

theorem pipelineInv_writeFailStep {bytes : Nat} (hok : ¬LeavesBehind call w (.writeFail bytes))
    (hs : PipelineCall.writeFailStep left bytes w = some w') : PipelineInv call w' := by
  unfold PipelineCall.writeFailStep at hs
  split at hs <;> cases hs
  exact fun _ => Or.inl (not_not.1 hok)

/-! ### Reading -/

theorem Flowing.stranded {count : Nat} (h : Flowing settings w count)
    (hsettled : Settled w.session.server w.session.requests) : Stranded settings w.session := by
  obtain ⟨responses, hpending, -⟩ := h.pending
  exact ⟨hsettled, _, hpending.unread, drainable_incoming _⟩

theorem pipelineInv_armRead (hphase : w.session.phase = .ready)
    (hlength : w.responses.length < call.requests.length + 1) (hsettled : Settled w.session.server w.session.requests)
    (hflowing : Flowing call.settings w (call.requests.length + 1)) : PipelineInv call (PipelineCall.armRead w) := by
  unfold PipelineCall.armRead
  simp only [hphase, beginOrAdoptOperation]
  exact ⟨rfl, rfl, hlength, hsettled, { hflowing with }⟩

theorem pipelineInv_flushed (hstage : w.stage = .sending index written []) (h : PipelineInv call w) :
    PipelineInv call (if index < call.requests.length then { w with stage := .encoding (index + 1) }
      else PipelineCall.armRead w) := by
  rw [PipelineInv, hstage] at h
  obtain ⟨hphase, hindex, hresponses, hsending⟩ := h
  obtain ⟨hsettled, hflowing⟩ := hsending
  split
  · rename_i hlt
    exact ⟨hphase, hlt, hresponses, hsettled, { hflowing with }⟩
  · obtain rfl : index = call.requests.length := by omega
    refine pipelineInv_armRead hphase ?_ hsettled hflowing
    rw [hresponses]
    exact Nat.succ_pos _

/-- A response is received; the next one is awaited, or everything has been read. -/
theorem pipelineInv_receive {response : List UInt8} {responses : List (List DataPiece)}
    (hphase : w.session.phase = .inFlight) (hsettled : Settled w.session.server w.session.requests)
    (hclient : w.session.client = .idle) (hturns : w.session.server.turns = [])
    (hsent : w.sent = call.requests.length + 1)
    (hpending : Pending call.settings.limits w.session.inbound w.session.server.outbox responses)
    (hlength : responses.length + 1 + w.responses.length = call.requests.length + 1) :
    PipelineInv call (call.receive response w) := by
  unfold PipelineCall.receive
  simp only [hphase, completeOperation, List.length_append, List.length_singleton]
  split
  · obtain rfl : responses = [] := List.eq_nil_of_length_eq_zero (by omega)
    obtain ⟨hinbound, houtbox⟩ := hpending.unread.eq_nil
    exact fun _ => Or.inr ⟨hsent, hinbound, houtbox, hturns⟩
  · refine pipelineInv_armRead rfl ?_ hsettled ⟨hclient, hturns, hsent, responses, hpending, ?_⟩
    · simp only [List.length_append, List.length_singleton]
      omega
    · simp only [List.length_append, List.length_singleton]
      omega

theorem pipelineInv_readStep {r : Reassembly} (hstage : w.stage = .reading r) (h : PipelineInv call w)
    (hs : call.readStep r w = some w') : PipelineInv call w' := by
  rw [PipelineInv, hstage] at h
  obtain ⟨hphase, hr, hlength, hsettled, hflowing⟩ := h
  obtain ⟨responses, hpending, hcount⟩ := hflowing.pending
  cases responses with
  | nil =>
    rw [List.length_nil] at hcount
    omega
  | cons pieces responses =>
    have hfatal : ∀ session e, PipelineInv call ({ w with session := failRead (.protocol e) session }.return
        (.wire (.protocol e))) := by
      intro session e hready
      simp [failRead, strand, PipelineWorld.return, markDead, markBreakRequired] at hready
    unfold PipelineCall.readStep at hs
    rcases hpending.read hr with hio | ⟨e, he⟩ | ⟨packet, inbound, hread, hnext⟩
    · simp [hio] at hs
    · simp only [he, Option.some.injEq] at hs
      exact hs ▸ hfatal _ e
    · simp only [hread] at hs
      rcases hnext with ⟨r', pieces', hmore, hr', hpending'⟩ | ⟨response, hdone, hpending'⟩ | ⟨e, he⟩
      · simp only [hmore, Option.some.injEq] at hs
        subst hs
        exact ⟨hphase, hr', hlength, hsettled, hflowing.client, hflowing.turns, hflowing.sent, _, hpending', hcount⟩
      · simp only [hdone, Option.some.injEq] at hs
        exact hs ▸ pipelineInv_receive hphase hsettled hflowing.client hflowing.turns hflowing.sent hpending' hcount
      · simp only [he, Option.some.injEq] at hs
        exact hs ▸ hfatal _ e

theorem pipelineInv_recover {close : Bool} (hphase : w.session.phase = .breakSent)
    (hstranded : Stranded call.settings w.session) (hsent : w.sent = call.requests.length + 1) :
    PipelineInv call (PipelineCall.recover close w) := by
  have hdrain : w.session.phase.beginDrainAfterBreak = .ok .draining := by
    rw [hphase]
    rfl
  unfold PipelineCall.recover
  rw [hdrain]
  exact ⟨⟨rfl, hstranded⟩, trivial, hsent⟩

theorem pipelineInv_readFailStep {r : Reassembly} {bytes : Nat} {failure : ReadFailure}
    (hstage : w.stage = .reading r) (h : PipelineInv call w) (hok : ¬LeavesBehind call w (.readFail bytes failure))
    (hs : call.readFailStep bytes failure w = some w') : PipelineInv call w' := by
  rw [PipelineInv, hstage] at h
  obtain ⟨hphase, hr, hlength, hsettled, hflowing⟩ := h
  have hstranded := hflowing.stranded hsettled
  unfold PipelineCall.readFailStep at hs
  split at hs
  case h_2 => cases hs
  case h_1 =>
    -- The guard leaves a phase that is not ready, unless the pipeline drains the wire itself.
    have hrecover : ∀ close, bytes = 0 → PipelineInv call (PipelineCall.recover close { w with
        session := strand { w.session with inbound := w.session.inbound.drop bytes } }) := by
      rintro close rfl
      refine pipelineInv_recover ?_ ?_ hflowing.sent
      · simp [strand, hphase, markBreakRequired]
      · simpa [Stranded, strand] using hstranded
    cases failure with
    | io =>
      cases hs
      intro hready
      simp [strand, PipelineWorld.return, hphase, markBreakRequired] at hready
    | callTimeout close =>
      cases hs
      exact hrecover close (not_not.1 hok)
    | cancelled disposition =>
      cases disposition with
      | timeout =>
        cases hs
        exact hrecover false (not_not.1 hok)
      | close | cancel =>
        cases hs
        intro hready
        simp [strand, PipelineWorld.return, hphase, markDead, markBreakRequired] at hready

/-! ### Draining -/

theorem pipelineInv_cleaned (hstage : w.stage = .cleaning) (hclient : w.session.client = .idle)
    (h : PipelineInv call w) :
    PipelineInv call (call.cleaned w) := by
  rw [PipelineInv, hstage] at h
  obtain ⟨hinv, -, hunsent⟩ := h
  unfold PipelineCall.cleaned
  split
  · rename_i hready
    exact pipelineInv_proceed hinv hclient hunsent hready
  · exact fun _ => Or.inl hunsent.1

theorem pipelineInv_recovered {close : Bool} (hstage : w.stage = .recovering close)
    (hclient : w.session.client = .idle)
    (h : PipelineInv call w) : PipelineInv call (PipelineCall.recovered close w) := by
  rw [PipelineInv, hstage] at h
  obtain ⟨hinv, -, hsent⟩ := h
  unfold PipelineCall.recovered
  split
  · rename_i hready
    split
    · intro hdead
      simp [PipelineWorld.return, markDead] at hdead
    · rcases hinv.atRest (Or.inl hclient) with hdead | ⟨-, hclean⟩ | ⟨hstranded, -⟩
      · simp [hready] at hdead
      · exact fun _ => Or.inr ⟨hsent, hclean.inbound, hclean.outbox, hclean.turns⟩
      · simp [hready] at hstranded
  · rename_i hdead
    exact fun hready => absurd hready hdead

/-! ### Serving -/

theorem Flowing.serve {count : Nat} {outbox : List (List UInt8)} (h : Flowing settings w count)
    (houtbox : w.session.server.outbox = packet :: outbox) :
    Flowing settings { w with session := { w.session with
      server := { w.session.server with outbox }, inbound := w.session.inbound ++ packet } } count := by
  obtain ⟨responses, hpending, hlength⟩ := h.pending
  rw [houtbox] at hpending
  exact ⟨h.client, h.turns, h.sent, responses, hpending.serve, hlength⟩

theorem pipelineInv_serve {outbox : List (List UInt8)} (h : PipelineInv call w)
    (houtbox : w.session.server.outbox = packet :: outbox) :
    PipelineInv call { w with session := { w.session with
      server := { w.session.server with outbox }, inbound := w.session.inbound ++ packet } } := by
  obtain ⟨session, stage, ttcSeqNum, cursorsToClose, responses, bytes, sent⟩ := w
  cases stage with
  | entry | cleaning | recovering =>
    exact ⟨inv_serve h.1 houtbox, h.2⟩
  | encoding index =>
    obtain ⟨hphase, hindex, hresponses, hsettled, hflowing⟩ := h
    exact ⟨hphase, hindex, hresponses, { hsettled with }, hflowing.serve houtbox⟩
  | sending index written left =>
    obtain ⟨hphase, hindex, hresponses, hsending⟩ := h
    refine ⟨hphase, hindex, hresponses, ?_⟩
    split
    · rename_i hleft
      rw [if_pos hleft] at hsending
      obtain ⟨hsettled, hflowing⟩ := hsending
      exact ⟨{ hsettled with }, hflowing.serve houtbox⟩
    · rename_i hleft
      rw [if_neg hleft] at hsending
      obtain ⟨hmid, hflowing⟩ := hsending
      exact ⟨{ hmid with }, hflowing.serve houtbox⟩
  | reading r =>
    obtain ⟨hphase, hr, hlength, hsettled, hflowing⟩ := h
    exact ⟨hphase, hr, hlength, { hsettled with }, hflowing.serve houtbox⟩
  | returned result =>
    intro hready
    rcases h hready with hbytes | hall
    · exact Or.inl hbytes
    · rw [hall.outbox] at houtbox
      cases houtbox

/-! ### Runs of a pipeline -/

theorem pipelineInv_drain {action : Action} (hstage : w.stage = .cleaning ∨ ∃ close, w.stage = .recovering close)
    (h : PipelineInv call w) (hserver : PipelineConforms call w (.drain action))
    (hok : ¬LeavesBehind call w (.drain action))
    (hs : (if action.drains then (step call.settings w.session action).map fun session =>
      { w with session } else none) =
      some w') : PipelineInv call w' := by
  split at hs
  case isFalse => cases hs
  case isTrue hdrains =>
    obtain ⟨session, hstep, rfl⟩ := Option.map_eq_some_iff.1 hs
    have hbreak : ∀ keep trailing, action = .sendBreak keep trailing → AnswersBreak call.settings trailing := by
      rintro keep trailing rfl
      rcases hstage with hstage | ⟨close, hstage⟩
      · simpa [PipelineConforms, hstage] using hserver
      · simpa [LeavesBehind, hstage] using hok
    rcases hstage with hstage | ⟨close, hstage⟩
    all_goals
      simp only [PipelineInv, hstage] at h ⊢
      obtain ⟨hinv, halone⟩ := drainsAlone_step h.1 h.2.1 hdrains hbreak hstep
      exact ⟨hinv, halone, h.2.2⟩

theorem pipelineInv_step {action : PipelineAction} (h : PipelineInv call w) (hserver : PipelineConforms call w action)
    (hok : ¬LeavesBehind call w action) (hs : pipelineStep call w action = some w') : PipelineInv call w' := by
  unfold pipelineStep at hs
  split at hs
  case h_1 hstage =>
    rw [PipelineInv, hstage] at h
    obtain ⟨hinv, hclient, hunsent⟩ := h
    cases hs
    exact pipelineInv_callStep hinv hclient hunsent
  case h_2 hstage => exact pipelineInv_drain (Or.inl hstage) h hserver hok hs
  case h_3 hstage => exact pipelineInv_drain (Or.inr ⟨_, hstage⟩) h hserver hok hs
  case h_4 hstage =>
    split at hs <;> cases hs
    rename_i hclient
    exact pipelineInv_cleaned hstage hclient h
  case h_5 hstage =>
    split at hs <;> cases hs
    rename_i hclient
    exact pipelineInv_recovered hstage hclient h
  case h_6 hstage =>
    cases hs
    exact pipelineInv_encodeStep hstage h hok
  case h_7 hstage =>
    cases hs
    refine pipelineInv_writeStep hstage h ?_
    rintro rfl
    simpa [PipelineConforms, hstage] using hserver
  case h_8 => exact pipelineInv_writeFailStep hok hs
  case h_9 hstage =>
    cases hs
    exact pipelineInv_flushed hstage h
  case h_10 hstage => exact pipelineInv_readStep hstage h hs
  case h_11 hstage => exact pipelineInv_readFailStep hstage h hok hs
  case h_12 =>
    obtain ⟨session, hstep, rfl⟩ := Option.map_eq_some_iff.1 hs
    obtain ⟨packet, outbox, houtbox, rfl⟩ := step_serve_eq_some hstep
    exact pipelineInv_serve h houtbox
  case h_13 => cases hs

/-- From every session at rest: in every run in which the server conforms and no step leaves responses behind, a
pipeline that returns with the session ready has written nothing, or everything, and then has read all responses. -/
theorem strandsNothing_of_not_leavesBehind (call : PipelineCall β) (session : World) (ttcSeqNum : UInt8)
    (cursorsToClose : List Nat) (hrest : AtRest call.settings session) (hclient : session.client = .idle)
    (actions : List PipelineAction)
    (h : EachStep (pipelineStep call) (fun w action => PipelineConforms call w action ∧ ¬LeavesBehind call w action)
      { session, ttcSeqNum, cursorsToClose } actions) :
    Along (pipelineStep call) (StrandsNothing call) { session, ttcSeqNum, cursorsToClose } actions := by
  have hinv : Inv call.settings session := by
    rw [Inv, hclient]
    exact hrest
  have halong : Along (pipelineStep call) (PipelineInv call) { session, ttcSeqNum, cursorsToClose } actions :=
    along_of_eachStep (I := fun _ => True) (fun _ _ _ _ _ => trivial)
      (fun w action w' _ hw hok hs => pipelineInv_step hw hok.1 hok.2 hs) trivial ⟨hinv, hclient, rfl, rfl, rfl⟩ h
  exact halong.mono fun w hw => hw.strandsNothing

end

/-! ### Two pipelines -/

/-- A pipeline of one commit. -/
def commitCall : PipelineCall Unit where
  settings := ⟨8192, .default, none⟩
  supportsEndOfResponse := true
  ttcFieldVersion := 24
  requests := [.commit]
  continueOnError := false
  buildExecute := fun _ _ seqNum _ _ => .ok [3, 94, seqNum]
  buildExecute_ne_nil := fun h => by cases h; exact List.cons_ne_nil _ _

private theorem answersMessage_lastPacket : AnswersMessage [lastPacket 9] :=
  ⟨[⟨0, tnsDataFlagsEndOfResponse, [9]⟩], ⟨[], _, rfl, by decide, nofun⟩, rfl⟩

private theorem commitCall_answersBreak (byte : UInt8) : AnswersBreak commitCall.settings [lastPacket byte] := by
  have hframes : Frames commitCall.settings.limits (lastPacket byte) ⟨tnsPacketTypeData, 0, [0x20, 0, byte]⟩ :=
    fun _ => rfl
  exact ⟨_, .cons (Or.inl hframes) .nil, .finish trivial rfl⟩

/-- The response to the end-pipeline message does not come in time; the BREAK ends it, and the wire is drained. -/
def timedOutRun : List PipelineAction :=
  [.call none, .encode, .write [lastPacket 9], .flushed, .encode, .write [lastPacket 9], .flushed, .serve, .read,
    .readFail 0 (.callTimeout false), .drain (.sendBreak 0 [lastPacket 4]), .serve, .drain .drainRead,
    .drain .drainReply, .serve, .drain .drainRead, .drained]

theorem strandsNothing_timedOutRun :
    (exec (pipelineStep commitCall) {} timedOutRun).isSome = true ∧
      Along (pipelineStep commitCall) (StrandsNothing commitCall) {} timedOutRun := by
  refine ⟨rfl, strandsNothing_of_not_leavesBehind commitCall {} 0 [] (inv_start _) rfl timedOutRun ?_⟩
  have hencode : ∀ {w : PipelineWorld} {index : Nat} {packets : List (List UInt8)}, w.stage = .encoding index →
      commitCall.messagePackets index w = .ok packets → ¬LeavesBehind commitCall w .encode := by
    intro w index packets hstage hpackets hleaves
    rw [LeavesBehind, hstage] at hleaves
    obtain ⟨-, e, he⟩ := hleaves
    cases hpackets.symm.trans he
  refine .cons rfl ⟨trivial, id⟩ (.cons rfl ⟨trivial, hencode rfl rfl⟩ ?_)
  refine .cons rfl ⟨answersMessage_lastPacket, id⟩ (.cons rfl ⟨trivial, id⟩ (.cons rfl ⟨trivial, hencode rfl rfl⟩ ?_))
  refine .cons rfl ⟨answersMessage_lastPacket, id⟩ (.cons rfl ⟨trivial, id⟩ (.cons rfl ⟨trivial, id⟩ ?_))
  refine .cons rfl ⟨trivial, id⟩ (.cons rfl ⟨trivial, fun h => h rfl⟩ ?_)
  refine .cons rfl ⟨⟨_, [], (List.append_nil _).symm, commitCall_answersBreak 4, nofun⟩,
    fun h => h (commitCall_answersBreak 4)⟩ ?_
  refine .cons rfl ⟨trivial, id⟩ (.cons rfl ⟨trivial, id⟩ (.cons rfl ⟨trivial, id⟩ ?_))
  exact .cons rfl ⟨trivial, id⟩ (.cons rfl ⟨trivial, id⟩ (.cons rfl ⟨trivial, id⟩ trivial))

/-- A commit and an execute with two bind rows, where one row is allowed. -/
def refusedCall : PipelineCall Unit where
  settings := ⟨8192, { ProtocolLimits.default with maxBatchRows := 1 }, none⟩
  supportsEndOfResponse := true
  ttcFieldVersion := 24
  requests := [.commit, .execute "insert into t values (:1)" [[()], [()]] 0]
  continueOnError := false
  buildExecute := fun _ _ seqNum _ _ => .ok [3, 94, seqNum]
  buildExecute_ne_nil := fun h => by cases h; exact List.cons_ne_nil _ _

/-- The commit is written, and the execute is refused. -/
def refusedRun : List PipelineAction := [.call none, .encode, .write [lastPacket 9], .flushed, .encode]

/-- The pipeline returns the refusal with the session ready, and the response to the commit is still to come. -/
theorem refusedRun_strands :
    EachStep (pipelineStep refusedCall) (PipelineConforms refusedCall) {} refusedRun ∧
      ∃ w, exec (pipelineStep refusedCall) {} refusedRun = some w ∧
        w.stage = .returned (.error (.wire (.protocol (.resourceLimit "batch_rows" 2 1)))) ∧
          w.session.phase = .ready ∧
        w.sent = 1 ∧ w.session.server.outbox = [lastPacket 9] ∧ ¬StrandsNothing refusedCall w := by
  refine ⟨?_, _, rfl, rfl, rfl, rfl, rfl, fun h => ?_⟩
  · refine .cons rfl trivial (.cons rfl trivial (.cons rfl (answersMessage_lastPacket) ?_))
    exact .cons rfl trivial (.cons rfl trivial trivial)
  · rcases h _ rfl rfl with hbytes | hall
    · exact absurd hbytes (by decide)
    · exact absurd hall.sent (by decide)

end OracleThin.Session

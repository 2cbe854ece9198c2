import OracleThin.Session.Stream

/-!
# Ordinary round trips keep the wire aligned

An operation that is given up while it reads leaves the phase that makes the next one drain the wire. An operation
that is given up while it sends does not: its guard is armed after the send. So the wire stays aligned in the runs in
which no send is given up midway, no read is given up inside a packet, and none between the RESET of a reset exchange
and the markers that answer it. Besides, the readers have to recognise where a response ends. They go by the
END_OF_RESPONSE flag, but without that framing by a completeness check, and behind a RESET by the last byte of a
packet as well.
-/

namespace OracleThin.Session

open Lib Wire SessionRecoveryPhase

/-! ### The property and the condition -/

/-- When no operation runs and the phase is ready, every request of which a byte was written has been written
completely, and nothing of the server's answers is unread or still to come. -/
def WireAligned (w : World) : Prop :=
  w.client = .idle → w.phase = .ready → ∀ request ∈ w.requests, 0 < request.written →
    request.written = request.total ∧ w.inbound = [] ∧ w.server.outbox = [] ∧ w.server.turns = []

/-- The server answers a complete request with one response and a BREAK with a marker and, behind the RESET, an error.
Without END_OF_RESPONSE framing nothing in the packets says where a response ends. -/
def ServerConforms (settings : Settings) (w : World) : Action → Prop
  | .write answer =>
    match w.client with
    | .sending op _ [_] => settings.classic = none → Responds op false answer
    | _ => True
  | .sendBreak _ trailing => settings.classic = none → ErrorResponse trailing
  | _ => True

/-- The readers of the driver end exactly where the answers of the server do. -/
def AnswerEnds (settings : Settings) (w : World) : Action → Prop
  | .write answer =>
    match w.client with
    | .sending op _ [_] => ReadsExactly settings op answer
    | _ => True
  | .sendBreak _ trailing => AnswersBreak settings trailing
  | _ => True

/-- The end of the answer is recognised: with END_OF_RESPONSE framing no packet behind a RESET has the last byte of a
response before its end, and without it the completeness check holds at the last packet and at no earlier one. -/
def EndRecognised (settings : Settings) (w : World) : Action → Prop
  | .write answer =>
    match w.client with
    | .sending op _ [_] =>
      if settings.classic.isSome then ReadsExactly settings op answer else Responds op true answer
    | _ => True
  | .sendBreak _ trailing => settings.classic.isSome → AnswersBreak settings trailing
  | _ => True

private theorem answerEnds_of_endRecognised {settings : Settings} {w : World} {action : Action}
    (hserver : ServerConforms settings w action) (hend : EndRecognised settings w action) :
    AnswerEnds settings w action := by
  cases action with
  | write answer =>
    rw [AnswerEnds]
    split
    · rename_i hclient
      rw [EndRecognised, hclient] at hend
      by_cases hclassic : settings.classic.isSome = true
      · exact (if_pos hclassic).mp hend
      · exact readsExactly_of_responds (Option.not_isSome_iff_eq_none.1 hclassic) ((if_neg hclassic).mp hend)
    · trivial
  | sendBreak keep trailing =>
    by_cases hclassic : settings.classic.isSome = true
    · exact hend hclassic
    · have hnone := Option.not_isSome_iff_eq_none.1 hclassic
      exact leadsDrain_of_response hnone (hserver hnone) rfl rfl
  | _ => trivial

/-- The step gives up an operation at a point where the recovery phase does not know about it: in a send of which
something was written, unless it is a speculative one that fails or has been written completely; inside a packet; or
between a RESET and the markers that answer it. -/
def GivesUpMidway (w : World) : Action → Prop
  | .giveUpSend bytes failed =>
    match w.client with
    | .sending op written left =>
      (written ≠ [] ∨ left = [] ∨ bytes ≠ 0) ∧ ¬(op.speculative = true ∧ (failed = true ∨ left = []))
    | _ => False
  | .giveUpRead bytes close =>
    match w.client with
    | .reading _ s none => close = false ∧ (bytes ≠ 0 ∨ s.reader.skipping = true)
    | .reading _ _ (some _) => close = false ∧ bytes ≠ 0
    | _ => False
  | _ => False

/-! ### The invariant -/

def Written (requests : List Progress) : Prop :=
  ∀ request ∈ requests, 0 < request.written → request.written = request.total

/-- Every request is written, and the server has received all of them. -/
structure Settled (server : Server) (requests : List Progress) : Prop where
  got : server.got = []
  intact : server.garbled = false
  written : Written requests

/-- Nothing is on the wire. -/
structure Clean (server : Server) (inbound : List UInt8) (requests : List Progress) : Prop where
  settled : Settled server requests
  inbound : inbound = []
  outbox : server.outbox = []
  turns : server.turns = []

/-- What is on the wire can be drained. -/
def Stranded (settings : Settings) (w : World) : Prop :=
  Settled w.server w.requests ∧ ∃ packets, Unread settings.limits w.inbound w.server.outbox packets ∧
    Drainable packets

/-- What is on the wire and what the server will send bring a reader to its end. -/
def Awaits (settings : Settings) {σ : Type} (leads : σ → List IncomingPacket → List (List IncomingPacket) → Prop)
    (Q : List IncomingPacket → Prop) (w : World) (s : σ) (reply : Option Reply) : Prop :=
  Settled w.server w.requests ∧ ∃ packets, Unread settings.limits w.inbound w.server.outbox packets ∧
    match reply with
    | none => ∃ turns, List.Forall₂ (List.Forall₂ (Carries settings.limits)) w.server.turns turns ∧
        leads s packets turns
    | some _ => ∃ turn turns, List.Forall₂ (List.Forall₂ (Carries settings.limits)) w.server.turns (turn :: turns) ∧
        Q packets ∧ leads s (packets ++ turn) turns

abbrev AwaitsRead (settings : Settings) (op : Operation) : World → ReadState → Option Reply → Prop :=
  Awaits settings (LeadsRead settings op) Drainable

abbrev AwaitsDrain (settings : Settings) : World → Drain → Option Reply → Prop :=
  Awaits settings (LeadsDrain settings) fun _ => True

/-- A message is on its way, and its last packet has not been written. -/
structure MidMessage (server : Server) (requests : List Progress) (written left : List (List UInt8)) : Prop where
  got : server.got = written
  intact : server.garbled = false
  requests : ∃ earlier, requests = ⟨written.flatten.length, (written ++ left).flatten.length⟩ :: earlier ∧
    Written earlier

/-- The request is on its way, and its last packet has not been written. -/
structure Sending (server : Server) (inbound : List UInt8) (requests : List Progress)
    (written left : List (List UInt8)) :
    Prop where
  inbound : inbound = []
  outbox : server.outbox = []
  turns : server.turns = []
  got : server.got = written
  intact : server.garbled = false
  requests : ∃ earlier, requests = ⟨written.flatten.length, (written ++ left).flatten.length⟩ :: earlier ∧
    Written earlier

/-- Between two operations: the session is dead, nothing is on the wire, or the phase makes the next operation
drain. -/
def AtRest (settings : Settings) (w : World) : Prop :=
  w.phase = .dead ∨ (w.phase = .ready ∧ Clean w.server w.inbound w.requests) ∨
    ((w.phase = .breakSent ∨ w.phase = .inFlight) ∧ Stranded settings w)

def Inv (settings : Settings) (w : World) : Prop :=
  match w.client with
  | .idle => AtRest settings w
  | .outstanding op => w.phase = .inFlight ∧ AwaitsRead settings op w {} none
  | .breaking _ => w.phase = .draining ∧ Stranded settings w
  | .draining _ s reply => w.phase = .draining ∧ AwaitsDrain settings w s reply
  | .sending op written left =>
    w.phase = (if op.speculative then .inFlight else .ready) ∧
      if left = [] then AwaitsRead settings op w {} none else Sending w.server w.inbound w.requests written left
  | .reading op s reply => w.phase = .inFlight ∧ AwaitsRead settings op w s reply

theorem inv_start (settings : Settings) : Inv settings {} :=
  Or.inr (Or.inl ⟨rfl, ⟨rfl, rfl, by simp [Written]⟩, rfl, rfl, rfl⟩)

theorem Inv.wireAligned {settings : Settings} {w : World} (h : Inv settings w) : WireAligned w := by
  intro hidle hready request hrequest hpos
  rw [Inv, hidle] at h
  rcases h with hdead | ⟨_, hclean⟩ | ⟨hstranded, _⟩
  · simp [hready] at hdead
  · exact ⟨hclean.settled.written request hrequest hpos, hclean.inbound, hclean.outbox, hclean.turns⟩
  · simp [hready] at hstranded

section

variable {settings : Settings} {w : World}

theorem Clean.stranded (h : Clean w.server w.inbound w.requests) : Stranded settings w := by
  refine ⟨h.settled, [], ?_, .nil⟩
  rw [h.inbound, h.outbox]
  exact unread_nil

/-! ### Reading a packet -/

variable {op : Operation} {packet : List UInt8} {written left outbox : List (List UInt8)}
  {answer : List (List (List UInt8))}

section

variable {σ : Type} {react : σ → IncomingPacket → Except Error (Reaction σ Reply)} {fatal : Error → Prop}
  {P : σ → List IncomingPacket → Prop} {Q : List IncomingPacket → Prop} {s : σ}

/-- What a reader gets that awaits its end: it waits for bytes, fails for good, comes closer to the end, or is
there. -/
theorem Awaits.read (h : Awaits settings (Leads react fatal P Q) Q w s none) :
    readPacketWithLimits .large32 settings.limits w.inbound = .error .io ∨
      (∃ e, readPacketWithLimits .large32 settings.limits w.inbound = .error (.protocol e)) ∨
      ∃ packet inbound, readPacketWithLimits .large32 settings.limits w.inbound = .ok (packet, inbound) ∧
        ((react s packet = .ok .finish ∧ Clean w.server inbound w.requests) ∨
          (∃ s', react s packet = .ok (.wait s') ∧
            Awaits settings (Leads react fatal P Q) Q { w with inbound } s' none) ∨
          (∃ r s', react s packet = .ok (.reply r s') ∧
            Awaits settings (Leads react fatal P Q) Q { w with inbound } s' (some r)) ∨
          ∃ e, react s packet = .error e ∧ fatal e) := by
  obtain ⟨hsettled, packets, hunread, turns, hturns, hleads⟩ := h
  rcases hunread.read with hio | ⟨_, hprotocol⟩ | ⟨packet, rest, inbound, rfl, hread, hrest⟩
  · exact Or.inl hio
  · exact Or.inr (Or.inl hprotocol)
  · refine Or.inr (Or.inr ⟨packet, inbound, hread, ?_⟩)
    cases hleads with
    | finish _ hreact =>
      obtain ⟨hinbound, houtbox⟩ := hrest.eq_nil
      exact Or.inl ⟨hreact, hsettled, hinbound, houtbox, List.forall₂_nil_right_iff.1 hturns⟩
    | wait _ hreact hnext => exact Or.inr (Or.inl ⟨_, hreact, hsettled, rest, hrest, turns, hturns, hnext⟩)
    | reply _ hreact hQ hnext =>
      exact Or.inr (Or.inr (Or.inl ⟨_, _, hreact, hsettled, rest, hrest, _, _, hturns, hQ, hnext⟩))
    | fails _ hreact hfatal => exact Or.inr (Or.inr (Or.inr ⟨_, hreact, hfatal⟩))

/-- The server starts its next turn when it gets the reply. -/
theorem Awaits.reply {r : Reply} (h : Awaits settings (Leads react fatal P Q) Q w s (some r)) :
    Awaits settings (Leads react fatal P Q) Q { w with server := w.server.receiveReply } s none := by
  obtain ⟨hsettled, packets, hunread, turn, turns, hturns, _, hleads⟩ := h
  obtain ⟨bytes, bytess, hturn, hrest, hserver⟩ := List.forall₂_cons_right_iff.1 hturns
  have hreply : w.server.receiveReply = { w.server with outbox := w.server.outbox ++ bytes, turns := bytess } := by
    simp [Server.receiveReply, hsettled.intact, hserver]
  rw [hreply]
  exact ⟨{ hsettled with }, packets ++ turn, hunread.append hturn, turns, hrest, hleads⟩

theorem Awaits.serve {reply : Option Reply} (h : Awaits settings (Leads react fatal P Q) Q w s reply)
    (houtbox : w.server.outbox = packet :: outbox) :
    Awaits settings (Leads react fatal P Q) Q
      { w with server := { w.server with outbox }, inbound := w.inbound ++ packet } s reply := by
  obtain ⟨hsettled, packets, hunread, hreply⟩ := h
  rw [houtbox] at hunread
  exact ⟨{ hsettled with }, packets, hunread.serve, hreply⟩

end

theorem Stranded.serve (h : Stranded settings w) (houtbox : w.server.outbox = packet :: outbox) :
    Stranded settings { w with server := { w.server with outbox }, inbound := w.inbound ++ packet } := by
  obtain ⟨hsettled, packets, hunread, hdrain⟩ := h
  rw [houtbox] at hunread
  exact ⟨{ hsettled with }, packets, hunread.serve, hdrain⟩

/-! ### Giving up a read -/

/-- A reader that is not skipping the markers after a RESET leaves a wire that can be drained. -/
theorem Awaits.stranded {s : ReadState} {reply : Option Reply} (h : AwaitsRead settings op w s reply)
    (hskip : reply = none → s.reader.skipping = false) : Stranded settings w := by
  obtain ⟨hsettled, packets, hunread, hreply⟩ := h
  refine ⟨hsettled, packets, hunread, ?_⟩
  cases reply with
  | none =>
    obtain ⟨turns, _, hleads⟩ := hreply
    exact hleads.holds (hskip rfl)
  | some r =>
    obtain ⟨_, _, _, hdrain, _⟩ := hreply
    exact hdrain

/-! ### Draining -/

/-- The answer to a BREAK brings the drain to its end. -/
theorem Stranded.awaitsDrain {keep : Nat} {trailing : List (List UInt8)} (h : Stranded settings w)
    (htrailing : AnswersBreak settings trailing) :
    AwaitsDrain settings { w with server := w.server.receiveBreak keep trailing } .discarding none := by
  obtain ⟨hsettled, packets, hunread, hdrain⟩ := h
  obtain ⟨error, hcarries, herror⟩ := htrailing
  obtain ⟨n, hkept⟩ := hunread.take keep
  have hmarker := carries_encodePacket settings.limits (encodePacket_marker tnsMarkerTypeBreak)
  have hserver : w.server.receiveBreak keep trailing = { w.server with
      got := [], outbox := w.server.outbox.take keep ++ [markerPacket tnsMarkerTypeBreak], turns := [trailing] } := by
    simp [Server.receiveBreak, hsettled.intact]
  rw [hserver]
  exact ⟨⟨rfl, hsettled.intact, hsettled.written⟩, _, hkept.append (.cons hmarker .nil), [error], .cons hcarries .nil,
    leadsDrain_of_drainable (hdrain.take n) rfl herror⟩

/-! ### Sending -/

theorem inv_sendRequest (hclean : Clean w.server w.inbound w.requests)
    (hphase : w.phase = (if op.speculative then .inFlight else .ready)) :
    Inv settings (sendRequest settings op w) := by
  unfold sendRequest
  split
  · -- The request is too long for a packet: nothing was written.
    rw [Inv]
    split at hphase
    · exact Or.inr (Or.inr ⟨Or.inr hphase, hclean.stranded⟩)
    · exact Or.inr (Or.inl ⟨hphase, hclean⟩)
  · rename_i packets hpackets
    refine ⟨hphase, ?_⟩
    rw [if_neg (sendDataPacket_ne_nil op.payload_ne_nil hpackets)]
    exact ⟨hclean.inbound, hclean.outbox, hclean.turns, hclean.settled.got, hclean.settled.intact, w.requests, rfl,
      hclean.settled.written⟩

private theorem inv_beginRequest (hclean : Clean w.server w.inbound w.requests) (hphase : w.phase = .ready) :
    Inv settings (beginRequest settings op w) := by
  unfold beginRequest
  split
  · rename_i hspeculative
    rw [hphase]
    exact inv_sendRequest hclean (by rw [if_pos hspeculative])
  · rename_i hspeculative
    exact inv_sendRequest hclean (by rw [hphase, if_neg hspeculative])

theorem MidMessage.write {server : Server} {requests : List Progress} (answer : List (List (List UInt8)))
    (h : MidMessage server requests written (packet :: left)) (hleft : left ≠ []) :
    (server.receiveRequest (written ++ packet :: left) packet answer).outbox = server.outbox ∧
      (server.receiveRequest (written ++ packet :: left) packet answer).turns = server.turns ∧
      MidMessage (server.receiveRequest (written ++ packet :: left) packet answer) (advance packet.length requests)
        (written ++ [packet]) left := by
  obtain ⟨earlier, hrequests, hearlier⟩ := h.requests
  have hincomplete : ¬(server.garbled = false ∧ server.got ++ [packet] = written ++ packet :: left) := by
    rw [h.got]
    simpa using fun _ => hleft.symm
  rw [Server.receiveRequest, if_neg hincomplete]
  refine ⟨rfl, rfl, by rw [h.got], h.intact, earlier, ?_, hearlier⟩
  rw [hrequests, advance]
  simp

theorem MidMessage.writeLast {server : Server} {requests : List Progress} (turn : List (List UInt8))
    (turns : List (List (List UInt8))) (h : MidMessage server requests written [packet]) :
    server.receiveRequest (written ++ [packet]) packet (turn :: turns) =
        { server with got := [], outbox := server.outbox ++ turn, turns } ∧
      Written (advance packet.length requests) := by
  obtain ⟨earlier, hrequests, hearlier⟩ := h.requests
  refine ⟨by simp [Server.receiveRequest, h.got, h.intact], ?_⟩
  intro request hrequest hpos
  rw [hrequests, advance, List.mem_cons] at hrequest
  rcases hrequest with rfl | hrequest
  · simp
  · exact hearlier request hrequest hpos

theorem Sending.mid (h : Sending w.server w.inbound w.requests written left) :
    MidMessage w.server w.requests written left :=
  ⟨h.got, h.intact, h.requests⟩

theorem Sending.write (h : Sending w.server w.inbound w.requests written (packet :: left)) (hleft : left ≠ []) :
    Sending (w.server.receiveRequest (written ++ packet :: left) packet answer) w.inbound
      (advance packet.length w.requests) (written ++ [packet]) left := by
  obtain ⟨houtbox, hturns, hmid⟩ := h.mid.write answer hleft
  exact ⟨h.inbound, houtbox.trans h.outbox, hturns.trans h.turns, hmid.got, hmid.intact, hmid.requests⟩

theorem Sending.writeLast (h : Sending w.server w.inbound w.requests written [packet])
    (hanswer : ReadsExactly settings op answer) (client : Client) :
    AwaitsRead settings op { w with
      client
      server := w.server.receiveRequest (written ++ [packet]) packet answer
      requests := advance packet.length w.requests } {} none := by
  obtain ⟨turn, turns, hcarries, hleads⟩ := hanswer
  obtain ⟨bytes, bytess, hturn, hturns, rfl⟩ := List.forall₂_cons_right_iff.1 hcarries
  obtain ⟨hserver, hwritten⟩ := h.mid.writeLast bytes bytess
  rw [hserver, h.outbox]
  refine ⟨⟨rfl, h.intact, hwritten⟩, turn, ?_, turns, hturns, hleads⟩
  have hunread := Unread.append unread_nil hturn
  rw [← h.inbound] at hunread
  exact hunread

theorem Sending.clean (h : Sending w.server w.inbound w.requests [] left) : Clean w.server w.inbound w.requests := by
  obtain ⟨earlier, hrequests, hearlier⟩ := h.requests
  refine ⟨⟨h.got, h.intact, ?_⟩, h.inbound, h.outbox, h.turns⟩
  intro request hrequest hpos
  rw [hrequests, List.mem_cons] at hrequest
  rcases hrequest with rfl | hrequest
  · simp at hpos
  · exact hearlier request hrequest hpos

/-! ### The steps -/

variable {w' : World}

theorem Inv.atRest (h : Inv settings w) (hclient : w.client = .idle ∨ ∃ op, w.client = .outstanding op) :
    AtRest settings w := by
  rcases hclient with hclient | ⟨op, hclient⟩
  · rw [Inv, hclient] at h
    exact h
  · rw [Inv, hclient] at h
    exact Or.inr (Or.inr ⟨Or.inr h.1, h.2.stranded fun _ => rfl⟩)

private theorem inv_startStep (h : AtRest settings w) : Inv settings (startStep settings op w) := by
  rcases h with hdead | ⟨hready, hclean⟩ | ⟨hbreak | hflight, hstranded⟩
  · simp only [startStep, hdead, beginPendingDrain, reduceCtorEq, if_false]
    exact Or.inl rfl
  · simp only [startStep, hready, beginPendingDrain, reduceCtorEq, if_false]
    exact inv_beginRequest hclean rfl
  · simp only [startStep, hbreak, beginPendingDrain, reduceCtorEq, if_false]
    exact ⟨rfl, hstranded⟩
  · simp only [startStep, hflight, markBreakRequired, beginPendingDrain, if_true]
    exact ⟨rfl, hstranded⟩

private theorem inv_cancel {phase : SessionRecoveryPhase} (h : AtRest settings w)
    (hphase : w.phase.beginDrainAfterBreak = .ok phase) :
    Inv settings { w with phase, client := .breaking none } := by
  rcases h with hdead | ⟨hready, hclean⟩ | ⟨hbreak | hflight, hstranded⟩
  · rw [hdead] at hphase
    cases hphase
  · rw [hready] at hphase
    cases hphase
    exact ⟨rfl, hclean.stranded⟩
  · rw [hbreak] at hphase
    cases hphase
    exact ⟨rfl, hstranded⟩
  · rw [hflight] at hphase
    cases hphase
    exact ⟨rfl, hstranded⟩

private theorem inv_failDrain : Inv settings (failDrain w) := Or.inl rfl

private theorem inv_drainReadStep {next : Option Operation} {s : Drain} (hphase : w.phase = .draining)
    (h : AwaitsDrain settings w s none) (hs : drainReadStep settings next s w = some w') : Inv settings w' := by
  unfold drainReadStep at hs
  rcases h.read with hio | ⟨e, he⟩ | ⟨packet, inbound, hread, hreact⟩
  · simp [hio] at hs
  · simp only [he, Option.some.injEq] at hs
    exact hs ▸ inv_failDrain
  · simp only [hread] at hs
    rcases hreact with ⟨hfinish, hclean⟩ | ⟨s', hwait, hawaits⟩ | ⟨r, s', hreply, hawaits⟩ | ⟨e, he, _⟩
    · simp only [hfinish, Option.some.injEq] at hs
      subst hs
      cases next with
      | none => exact Or.inr (Or.inl ⟨rfl, hclean⟩)
      | some op => exact inv_beginRequest hclean rfl
    · simp only [hwait, Option.some.injEq] at hs
      exact hs ▸ ⟨hphase, hawaits⟩
    · simp only [hreply, Option.some.injEq] at hs
      exact hs ▸ ⟨hphase, hawaits⟩
    · simp only [he, Option.some.injEq] at hs
      exact hs ▸ inv_failDrain

private theorem inv_readStep {s : ReadState} {sessionDead : Bool} (hphase : w.phase = .inFlight)
    (h : AwaitsRead settings op w s none) (hs : readStep settings op s sessionDead w = some w') :
    Inv settings w' := by
  unfold readStep at hs
  rcases h.read with hio | ⟨e, he⟩ | ⟨packet, inbound, hread, hreact⟩
  · simp [hio] at hs
  · simp only [he, Option.some.injEq] at hs
    exact hs ▸ Or.inl rfl
  · simp only [hread] at hs
    rcases hreact with ⟨hfinish, hclean⟩ | ⟨s', hwait, hawaits⟩ | ⟨r, s', hreply, hawaits⟩ | ⟨e, he, hfatal⟩
    · simp only [hfinish, Option.some.injEq, hphase, completeOperation] at hs
      subst hs
      cases sessionDead with
      | true => exact Or.inl rfl
      | false => exact Or.inr (Or.inl ⟨rfl, hclean⟩)
    · simp only [hwait, Option.some.injEq] at hs
      exact hs ▸ ⟨hphase, hawaits⟩
    · simp only [hreply, Option.some.injEq] at hs
      exact hs ▸ ⟨hphase, hawaits⟩
    · simp only [he, Option.some.injEq] at hs
      cases e with
      | protocol e => exact hs ▸ Or.inl rfl
      | io | cancelled | unexpectedPacket => exact hfatal.elim

private theorem inv_armStep (hphase : w.phase = .inFlight ∨ w.phase = .ready) (h : AwaitsRead settings op w {} none) :
    Inv settings (armStep op w) := by
  unfold armStep
  rcases hphase with hphase | hphase
  · simp only [hphase, beginOrAdoptOperation]
    exact ⟨rfl, h⟩
  · simp only [hphase, beginOrAdoptOperation]
    exact ⟨rfl, h⟩

private theorem inv_write (hclient : w.client = .sending op written (packet :: left)) (h : Inv settings w)
    (hanswer : left = [] → ReadsExactly settings op answer) :
    Inv settings { w with
      client := .sending op (written ++ [packet]) left
      server := w.server.receiveRequest (written ++ packet :: left) packet answer
      requests := advance packet.length w.requests } := by
  rw [Inv, hclient] at h
  obtain ⟨hphase, hsending⟩ := h
  refine ⟨hphase, ?_⟩
  by_cases hleft : left = []
  · subst hleft
    exact hsending.writeLast (hanswer rfl) _
  · rw [if_neg hleft]
    exact hsending.write hleft

private theorem inv_giveUpSendStep {bytes : Nat} {failed : Bool} (hclient : w.client = .sending op written left)
    (h : Inv settings w) (hok : ¬GivesUpMidway w (.giveUpSend bytes failed))
    (hs : giveUpSendStep op left bytes failed w = some w') : Inv settings w' := by
  rw [Inv, hclient] at h
  obtain ⟨hphase, hsending⟩ := h
  rw [GivesUpMidway, hclient] at hok
  simp only [not_and_or, not_or, not_not] at hok
  unfold giveUpSendStep at hs
  split at hs
  case isFalse => cases hs
  case isTrue hbytes =>
    cases hs
    by_cases hdead : op.speculative = true ∧ failed = true
    · refine Or.inl ?_
      simp [hdead.1, hdead.2, markDead]
    · have hlive : (if op.speculative && failed then w.phase.markDead else w.phase) = w.phase :=
        if_neg (by simpa using hdead)
      have hadvance : ∀ requests, advance 0 requests = requests := by
        intro requests
        cases requests <;> rfl
      by_cases hleft : left = []
      · -- A speculative request that was written completely: its response is stranded.
        rw [if_pos hleft] at hsending
        subst hleft
        have hzero : bytes = 0 := by simpa using hbytes
        have hspeculative : op.speculative = true := by simpa using hok
        subst hzero
        refine Or.inr (Or.inr ⟨Or.inr ?_, ?_⟩)
        · exact hlive.trans (by rw [hphase, if_pos hspeculative])
        · simpa [Stranded, hadvance] using hsending.stranded fun _ => rfl
      · -- Nothing was written.
        rw [if_neg hleft] at hsending
        obtain ⟨rfl, -, rfl⟩ : written = [] ∧ ¬left = [] ∧ bytes = 0 := by
          rcases hok with hok | ⟨hspeculative, hfailed | hnil⟩
          · exact hok
          · exact absurd ⟨hspeculative, hfailed⟩ hdead
          · exact absurd hnil hleft
        have hclean := hsending.clean
        by_cases hspeculative : op.speculative = true
        · refine Or.inr (Or.inr ⟨Or.inr ?_, ?_⟩)
          · exact hlive.trans (by rw [hphase, if_pos hspeculative])
          · have hstranded : Stranded settings _ := hclean.stranded
            simpa [Stranded, hadvance] using hstranded
        · refine Or.inr (Or.inl ⟨?_, ?_⟩)
          · exact hlive.trans (by rw [hphase, if_neg hspeculative])
          · simpa [hadvance] using hclean

private theorem inv_giveUpReadStep {s : ReadState} {reply : Option Reply} {bytes : Nat} {close : Bool}
    (hclient : w.client = .reading op s reply) (h : Inv settings w)
    (hok : ¬GivesUpMidway w (.giveUpRead bytes close)) (hs : giveUpReadStep settings reply bytes close w = some w') :
    Inv settings w' := by
  rw [Inv, hclient] at h
  obtain ⟨hphase, hawaits⟩ := h
  unfold giveUpReadStep at hs
  cases close with
  | true =>
    -- A shutdown kills the session.
    cases reply with
    | none | some r => dsimp only at hs; split at hs <;> cases hs; exact Or.inl rfl
  | false =>
    cases reply with
    | none =>
      obtain ⟨rfl, hskip⟩ : bytes = 0 ∧ s.reader.skipping = false := by
        simpa [GivesUpMidway, hclient, not_or] using hok
      dsimp only at hs
      split at hs <;> cases hs
      refine Or.inr (Or.inr ⟨Or.inl ?_, ?_⟩)
      · simp [strand, hphase, markBreakRequired]
      · simpa [Stranded, strand] using hawaits.stranded fun _ => hskip
    | some r =>
      obtain rfl : bytes = 0 := by simpa [GivesUpMidway, hclient] using hok
      dsimp only at hs
      split at hs <;> cases hs
      refine Or.inr (Or.inr ⟨Or.inl ?_, ?_⟩)
      · simp [strand, hphase, markBreakRequired]
      · simpa [Stranded, strand] using hawaits.stranded fun h => by cases h

theorem step_serve_eq_some (hs : step settings w .serve = some w') :
    ∃ packet outbox, w.server.outbox = packet :: outbox ∧
      w' = { w with server := { w.server with outbox }, inbound := w.inbound ++ packet } := by
  cases hclient : w.client <;> simp only [step, hclient] at hs <;> split at hs <;> cases hs <;> exact ⟨_, _, ‹_›, rfl⟩

theorem inv_serve (h : Inv settings w) (houtbox : w.server.outbox = packet :: outbox) :
    Inv settings { w with server := { w.server with outbox }, inbound := w.inbound ++ packet } := by
  rw [Inv] at h ⊢
  dsimp only
  split at h
  · rcases h with hdead | ⟨_, hclean⟩ | ⟨hphase, hstranded⟩
    · exact Or.inl hdead
    · rw [hclean.outbox] at houtbox
      cases houtbox
    · exact Or.inr (Or.inr ⟨hphase, hstranded.serve houtbox⟩)
  · exact ⟨h.1, h.2.serve houtbox⟩
  · exact ⟨h.1, h.2.serve houtbox⟩
  · exact ⟨h.1, h.2.serve houtbox⟩
  · obtain ⟨hphase, hsending⟩ := h
    refine ⟨hphase, ?_⟩
    split
    · rename_i hleft
      rw [if_pos hleft] at hsending
      exact hsending.serve houtbox
    · rename_i hleft
      rw [if_neg hleft] at hsending
      rw [hsending.outbox] at houtbox
      cases houtbox
  · exact ⟨h.1, h.2.serve houtbox⟩

/-- Every step of a server whose answers are read to their ends and of a driver that does not give up midway keeps the
invariant. -/
theorem inv_step {action : Action} (h : Inv settings w) (hends : AnswerEnds settings w action)
    (hok : ¬GivesUpMidway w action) (hs : step settings w action = some w') : Inv settings w' := by
  unfold step at hs
  split at hs
  -- an operation is started, answered or cancelled
  case h_1 hclient =>
    cases hs
    exact inv_startStep (h.atRest (Or.inl hclient))
  case h_2 hclient =>
    cases hs
    exact inv_startStep (h.atRest (Or.inr ⟨_, hclient⟩))
  case h_3 hclient =>
    cases hs
    rw [Inv, hclient] at h
    exact inv_armStep (Or.inl h.1) h.2
  case h_4 hclient =>
    split at hs <;> cases hs
    · exact h
    · exact inv_cancel (h.atRest (Or.inl hclient)) ‹_›
  case h_5 hclient =>
    split at hs <;> cases hs
    · exact h
    · exact inv_cancel (h.atRest (Or.inr ⟨_, hclient⟩)) ‹_›
  -- the wire is drained
  case h_6 hclient =>
    cases hs
    rw [Inv, hclient] at h
    exact ⟨h.1, h.2.awaitsDrain hends⟩
  case h_7 hclient =>
    rw [Inv, hclient] at h
    exact inv_drainReadStep h.1 h.2 hs
  case h_8 hclient =>
    cases hs
    rw [Inv, hclient] at h
    exact ⟨h.1, h.2.reply⟩
  case h_9 | h_10 =>
    cases hs
    exact inv_failDrain
  -- a request is written
  case h_11 hclient =>
    cases hs
    refine inv_write hclient h fun hleft => ?_
    subst hleft
    simpa [AnswerEnds, hclient] using hends
  case h_12 hclient =>
    cases hs
    rw [Inv, hclient] at h
    obtain ⟨hphase, hawaits⟩ := h
    split
    · rename_i hspeculative
      rw [if_pos hspeculative] at hphase
      exact ⟨hphase, hawaits⟩
    · rename_i hspeculative
      rw [if_neg hspeculative] at hphase
      exact inv_armStep (Or.inr hphase) hawaits
  case h_13 hclient => exact inv_giveUpSendStep hclient h hok hs
  -- a response is read
  case h_14 hclient =>
    rw [Inv, hclient] at h
    exact inv_readStep h.1 h.2 hs
  case h_15 hclient =>
    cases hs
    rw [Inv, hclient] at h
    exact ⟨h.1, h.2.reply⟩
  case h_16 hclient => exact inv_giveUpReadStep hclient h hok hs
  case h_17 =>
    split at hs <;> cases hs
    exact inv_serve h ‹_›
  case h_18 => cases hs

end

/-! ### Runs -/

/-- A connection whose SDU leaves one byte for the payload of a packet. -/
def narrow : Settings := ⟨11, .default, none⟩

/-- A call whose request is one packet, and one whose request is three packets on a narrow connection. -/
def shortCall : Operation := ⟨[3], false, fun _ => .ok true, false, by simp⟩

def longCall : Operation := ⟨[3, 1, 147], false, fun _ => .ok true, false, by simp⟩

/-- One DATA packet that carries the END_OF_RESPONSE flag. -/
def lastPacket (byte : UInt8) : List UInt8 := [0, 0, 0, 11, tnsPacketTypeData, 0, 0, 0, 0x20, 0, byte]

/-- A call is given up before its response is read; the next one sends a BREAK and drains. -/
def cancelledRun : List Action :=
  [.start shortCall, .write [[lastPacket 9]], .flushed, .giveUpRead 0 false, .start shortCall,
    .sendBreak 0 [lastPacket 4], .serve, .drainRead, .drainReply, .serve, .drainRead]

private theorem response_lastPacket (quiet resetting : Bool) (byte : UInt8) :
    Response false quiet false resetting [] [lastPacket byte] [] := by
  have hflag : tnsDataFlagsEndOfResponse &&& tnsDataFlagsEndOfResponse ≠ 0 := by decide
  have hflagged : DataPiece.Flagged ⟨0, tnsDataFlagsEndOfResponse, [byte]⟩ := hflag
  refine .last hflagged ?_ nofun
  simp [DataPiece.encode, encodePacket, dataFlagsBytes, toBe, tnsHeaderLen, tnsDataFlagsEndOfResponse, lastPacket]

/-- The call is given up after the first of its three packets. -/
def droppedSendRun : List Action := [.start longCall, .write [], .giveUpSend 0 false]

end OracleThin.Session

import OracleThin.Session.Machine
import OracleThin.Wire.Framing

/-!
# What is on the wire

The unread bytes and the packets that the server has still to send make up the packets before a reader. This file says
what a response is on the wire, which packet sequences the readers of the driver get to the end of, that a response
with END_OF_RESPONSE framing is one of them, and that a stranded response can be drained.
-/

namespace OracleThin.Session

open Lib Wire

/-! ### Packets before a reader -/

/-- The bytes are one packet: a reader gets it, or refuses it because of its limits. -/
def Carries (limits : ProtocolLimits) (bytes : List UInt8) (packet : IncomingPacket) : Prop :=
  Frames limits bytes packet ∨
    ∀ rest, ∃ e, readPacketWithLimits .large32 limits (bytes ++ rest) = .error (.protocol e)

theorem carries_encodePacket {packetType packetFlags : UInt8} {dataFlags : Option UInt16} {payload bytes : List UInt8}
    (limits : ProtocolLimits) (h : encodePacket packetType packetFlags dataFlags payload .large32 = .ok bytes) :
    Carries limits bytes ⟨packetType, packetFlags, dataFlagsBytes dataFlags ++ payload⟩ := by
  have hread := fun rest => readPacketWithLimits_encodePacket limits rest h
  cases hcheck : limits.checkPacketBytes bytes.length with
  | error e =>
    simp only [hcheck] at hread
    exact Or.inr fun rest => ⟨e, hread rest⟩
  | ok _ =>
    simp only [hcheck] at hread
    exact Or.inl hread

/-- The packets that are unread or not yet sent. -/
def Unread (limits : ProtocolLimits) (inbound : List UInt8) (outbox : List (List UInt8))
    (packets : List IncomingPacket) :
    Prop :=
  ∃ arrived, inbound = arrived.flatten ∧ List.Forall₂ (Carries limits) (arrived ++ outbox) packets

section

variable {limits : ProtocolLimits} {inbound : List UInt8} {outbox : List (List UInt8)} {packets : List IncomingPacket}

theorem unread_nil : Unread limits [] [] [] := ⟨[], rfl, .nil⟩

theorem Unread.eq_nil (h : Unread limits inbound outbox []) : inbound = [] ∧ outbox = [] := by
  obtain ⟨arrived, rfl, h⟩ := h
  have hnil := List.forall₂_nil_right_iff.1 h
  rw [List.append_eq_nil_iff] at hnil
  rw [hnil.1]
  exact ⟨rfl, hnil.2⟩

theorem Unread.serve {packet : List UInt8} (h : Unread limits inbound (packet :: outbox) packets) :
    Unread limits (inbound ++ packet) outbox packets := by
  obtain ⟨arrived, rfl, h⟩ := h
  exact ⟨arrived ++ [packet], by simp, by simpa using h⟩

theorem Unread.append {more : List (List UInt8)} {packets' : List IncomingPacket}
    (h : Unread limits inbound outbox packets) (hmore : List.Forall₂ (Carries limits) more packets') :
    Unread limits inbound (outbox ++ more) (packets ++ packets') := by
  obtain ⟨arrived, rfl, h⟩ := h
  refine ⟨arrived, rfl, ?_⟩
  rw [← List.append_assoc]
  exact List.rel_append h hmore

/-- A server that stops after some more packets leaves a prefix. -/
theorem Unread.take (h : Unread limits inbound outbox packets) (keep : Nat) :
    ∃ n, Unread limits inbound (outbox.take keep) (packets.take n) := by
  obtain ⟨arrived, rfl, h⟩ := h
  refine ⟨arrived.length + keep, arrived, rfl, ?_⟩
  have := List.forall₂_take (arrived.length + keep) h
  rwa [List.take_length_add_append] at this

/-- A reader waits, fails, or gets the first of the packets. -/
theorem Unread.read (h : Unread limits inbound outbox packets) :
    readPacketWithLimits .large32 limits inbound = .error .io ∨
      (packets ≠ [] ∧ ∃ e, readPacketWithLimits .large32 limits inbound = .error (.protocol e)) ∨
      ∃ packet rest inbound', packets = packet :: rest ∧
        readPacketWithLimits .large32 limits inbound = .ok (packet, inbound') ∧
        Unread limits inbound' outbox rest := by
  obtain ⟨arrived, rfl, h⟩ := h
  cases arrived with
  | nil => exact Or.inl rfl
  | cons bytes arrived =>
    obtain ⟨packet, rest, hpacket, hrest, rfl⟩ := List.forall₂_cons_left_iff.1 h
    rcases hpacket with hframes | hfails
    · exact Or.inr (Or.inr ⟨packet, rest, arrived.flatten, rfl, hframes _, arrived, rfl, hrest⟩)
    · exact Or.inr (Or.inl ⟨by simp, hfails _⟩)

end

/-! ### Draining -/

/-- DATA packets, with at most one marker at the end: what a drain can discard. -/
inductive Drainable : List IncomingPacket → Prop
  | nil : Drainable []
  | marker {packet} (h : packet.packetType = tnsPacketTypeMarker) : Drainable [packet]
  | data {packet packets} (h : packet.packetType = tnsPacketTypeData) (hrest : Drainable packets) :
      Drainable (packet :: packets)

theorem Drainable.take {packets : List IncomingPacket} (h : Drainable packets) (n : Nat) :
    Drainable (packets.take n) := by
  induction h generalizing n with
  | nil => rw [List.take_nil]; exact .nil
  | marker h => cases n with
    | zero => exact .nil
    | succ n => rw [List.take_succ_cons, List.take_nil]; exact .marker h
  | data h _ ih => cases n with
    | zero => exact .nil
    | succ n => exact .data h (ih n)

/-- The packets bring the drain to its end. -/
abbrev LeadsDrain (settings : Settings) : Drain → List IncomingPacket → List (List IncomingPacket) → Prop :=
  Leads (Drain.onPacket settings) (fun _ => True) (fun _ _ => True) (fun _ => True)

/-- The trailing packets of an answer to a BREAK: markers, then an error response that the drain gets to the end
of. -/
def TrailingError (settings : Settings) (packets : List IncomingPacket) : Prop :=
  LeadsDrain settings (.trailing { skipping := true }) packets []

/-- A stranded response, the marker that acknowledges the BREAK, and, after the RESET, the trailing error. -/
theorem leadsDrain_of_drainable {settings : Settings} {packets trailing : List IncomingPacket}
    {marker : IncomingPacket} (h : Drainable packets) (hmarker : marker.packetType = tnsPacketTypeMarker)
    (htrailing : TrailingError settings trailing) :
    LeadsDrain settings .discarding (packets ++ [marker]) [trailing] := by
  have hreply : ∀ packet : IncomingPacket, packet.packetType = tnsPacketTypeMarker →
      Drain.onPacket settings .discarding packet = .ok (.reply .reset (.trailing { skipping := true })) := by
    intro packet hpacket
    simp [Drain.onPacket, hpacket]
  induction h with
  | nil => exact .reply trivial (hreply marker hmarker) trivial htrailing
  | marker h =>
    -- The server had asked for a reset of its own: the acknowledgement of the BREAK is skipped as a further marker.
    exact .reply trivial (hreply _ h) trivial
      (.wait trivial (by simp [Drain.onPacket, Reader.react, hmarker]) htrailing)
  | data h _ ih =>
    refine .wait trivial ?_ ih
    simp [Drain.onPacket, h, tnsPacketTypeData, tnsPacketTypeMarker]

/-! ### Responses -/

/-- A protocol error kills the session. -/
def Fatal : Error → Prop
  | .protocol _ => True
  | _ => False

/-- The packets bring the reader of the operation to its end. Unless it skips the markers after a RESET, what is left
of the current turn can be drained. -/
abbrev LeadsRead (settings : Settings) (op : Operation) : ReadState → List IncomingPacket →
    List (List IncomingPacket) → Prop :=
  Leads (op.onPacket settings) Fatal (fun s packets => s.reader.skipping = false → Drainable packets) Drainable

/-- The reader of the operation comes to its end exactly where the turns end. -/
def ReadsExactly (settings : Settings) (op : Operation) (answer : List (List (List UInt8))) : Prop :=
  ∃ turn turns, List.Forall₂ (List.Forall₂ (Carries settings.limits)) answer (turn :: turns) ∧
    LeadsRead settings op {} turn turns

/-- The packets are the trailing error of an answer to a BREAK. -/
def AnswersBreak (settings : Settings) (trailing : List (List UInt8)) : Prop :=
  ∃ packets, List.Forall₂ (Carries settings.limits) trailing packets ∧ TrailingError settings packets

/-! ### What a response is -/

/-- What the server still sends of a response with END_OF_RESPONSE framing, when it has sent `sent`: the rest of a
turn, and the turns that follow the replies of the driver. Only the last packet of a response carries the flag. A
marker asks for a RESET, which further markers answer, and the response goes on behind them. A response that ends in
the byte of FLUSH_OUT_BINDS asks for that message, and another response follows. In a `quiet` response, no packet
behind a RESET but the last one ends in the byte of END_OF_RESPONSE or of FLUSH_OUT_BINDS. -/
inductive Response (flushing quiet : Bool) :
    (reset resetting : Bool) → (sent : List UInt8) → List (List UInt8) → List (List (List UInt8)) → Prop
  | last {reset resetting sent bytes} {piece : DataPiece} (hflagged : piece.Flagged)
      (hbytes : piece.encode .large32 = .ok bytes)
      (hlast : flushing = true → endsInFlush (sent ++ piece.payload) = false) :
      Response flushing quiet reset resetting sent [bytes] []
  | flush {reset resetting sent bytes turn turns} {piece : DataPiece} (hflagged : piece.Flagged)
      (hbytes : piece.encode .large32 = .ok bytes) (hflushing : flushing = true)
      (hflush : endsInFlush (sent ++ piece.payload) = true)
        (hrest : Response flushing quiet false false [] turn turns) :
      Response flushing quiet reset resetting sent [bytes] (turn :: turns)
  | data {reset resetting sent bytes packets turns} {piece : DataPiece} (hinner : piece.Inner)
      (hbytes : piece.encode .large32 = .ok bytes)
      (hquiet : quiet = true → reset = true → postResetPacketEndsResponse piece.payload = false)
      (hrest : Response flushing quiet reset false (sent ++ piece.payload) packets turns) :
      Response flushing quiet reset resetting sent (bytes :: packets) turns
  | marker {reset sent turn turns} (markerType : UInt8) (hrest : Response flushing quiet true true sent turn turns) :
      Response flushing quiet reset false sent [markerPacket markerType] (turn :: turns)
  | resetting {reset sent packets turns} (markerType : UInt8)
      (hrest : Response flushing quiet reset true sent packets turns) :
      Response flushing quiet reset true sent (markerPacket markerType :: packets) turns

/-- The turns are one response to the operation. -/
def Responds (op : Operation) (quiet : Bool) (answer : List (List (List UInt8))) : Prop :=
  ∃ turn turns, answer = turn :: turns ∧ Response op.flushing quiet false false [] turn turns

/-- Markers that answer the RESET, and one response. -/
def ErrorResponse (trailing : List (List UInt8)) : Prop := Response false false false true [] trailing []

/-! ### Reading a response -/

theorem checkResponseBytes_bind {α : Type} (limits : ProtocolLimits) (n : Nat) (x : Except Error α) :
    ((limits.checkResponseBytes n).mapError .protocol >>= fun _ => x) = x ∨
      ∃ e, ((limits.checkResponseBytes n).mapError .protocol >>= fun _ => x) = .error (.protocol e) := by
  cases limits.checkResponseBytes n with
  | error e => exact Or.inr ⟨e, rfl⟩
  | ok => exact Or.inl rfl

section

variable {σ : Type} {limits : ProtocolLimits} {wrap : Reader → σ}
    {done : List UInt8 → Except Error (Reaction σ Reply)}
  (reader : Reader) {piece : DataPiece}

/-- At a flagged packet a response ends, unless it is too long. -/
theorem Reader.react_flagged (hflagged : piece.Flagged) :
    reader.react (boundaryPacket limits false none) wrap done piece.incoming =
    done (reader.r.response ++ piece.payload) ∨
      ∃ e, reader.react (boundaryPacket limits false none) wrap done piece.incoming = .error (.protocol e) := by
  unfold react
  rw [if_neg fun h => DataPiece.type_ne_marker h.2, boundaryPacket_flagged hflagged]
  rcases checkResponseBytes_bind limits (reader.r.response.length + piece.payload.length)
    (Except.ok (Verdict.done (reader.r.response ++ piece.payload))) with h | ⟨e, h⟩
  · rw [h]
    exact Or.inl rfl
  · rw [h]
    exact Or.inr ⟨e, rfl⟩

theorem Reader.react_inner (hinner : piece.Inner)
    (hreset : (reader.r.afterReset && postResetPacketEndsResponse piece.payload) = false) :
    reader.react (boundaryPacket limits false none) wrap done piece.incoming =
        .ok (.wait (wrap ⟨{ reader.r with response := reader.r.response ++ piece.payload }, false⟩)) ∨
      ∃ e, reader.react (boundaryPacket limits false none) wrap done piece.incoming = .error (.protocol e) := by
  unfold react
  rw [if_neg fun h => DataPiece.type_ne_marker h.2, boundaryPacket_inner hinner hreset]
  rcases checkResponseBytes_bind limits (reader.r.response.length + piece.payload.length)
    (Except.ok (Verdict.more { reader.r with response := reader.r.response ++ piece.payload })) with h | ⟨e, h⟩
  · rw [h]
    exact Or.inl rfl
  · rw [h]
    exact Or.inr ⟨e, rfl⟩

end

section

variable {settings : Settings} (hclassic : settings.classic = none) {op : Operation} {payload response : List UInt8}
  {packets : List (List UInt8)}
include hclassic

theorem Operation.onPacket_eq (op : Operation) (s : ReadState) (packet : IncomingPacket) :
    op.onPacket settings s packet =
      s.reader.react (boundaryPacket settings.limits false none) ({ s with reader := · })
      (op.received settings s.payload) packet := by
  simp [Operation.onPacket, Operation.handle, hclassic]

/-- At a flagged packet the operation asks for the out binds or is finished, unless the response is too long. -/
theorem Operation.onPacket_flagged (s : ReadState) {piece : DataPiece} (hflagged : piece.Flagged) {flush : Bool}
    (hflush : (op.flushing && endsInFlush (s.reader.r.response ++ piece.payload)) = flush) :
    op.onPacket settings s piece.incoming = .ok (if flush then
        .reply .flushOutBinds { payload := (s.payload ++ (s.reader.r.response ++ piece.payload)).dropLast }
      else .finish) ∨
      ∃ e, op.onPacket settings s piece.incoming = .error (.protocol e) := by
  subst hflush
  rw [Operation.onPacket_eq hclassic]
  rcases s.reader.react_flagged hflagged with h | h
  · rw [h]
    unfold received
    cases op.flushing with
    | false => exact Or.inl rfl
    | true =>
      simp only [hclassic, Bool.not_true, Bool.false_eq_true, if_false, Option.isSome_none, Bool.true_and]
      exact checkResponseBytes_bind ..
  · exact Or.inr h

/-- A quiet response brings the reader to its end. -/
theorem leadsRead_of_response {reset resetting : Bool} {sent : List UInt8} {turns : List (List (List UInt8))}
    (h : Response op.flushing true reset resetting sent packets turns) :
    ∃ packets' turns', List.Forall₂ (Carries settings.limits) packets packets' ∧
      List.Forall₂ (List.Forall₂ (Carries settings.limits)) turns turns' ∧ (resetting = false → Drainable packets') ∧
      ∀ payload, LeadsRead settings op ⟨payload, ⟨⟨sent, reset⟩, resetting⟩⟩ packets' turns' := by
  induction h with
  | @last reset resetting sent bytes piece hflagged hbytes hlast =>
    have hdrain : Drainable [piece.incoming] := .data rfl .nil
    refine ⟨_, [], .cons (carries_encodePacket _ hbytes) .nil, .nil, fun _ => hdrain, fun payload => ?_⟩
    have hflush : (op.flushing && endsInFlush (sent ++ piece.payload)) = false := by simpa using hlast
    rcases Operation.onPacket_flagged hclassic ⟨payload, ⟨⟨sent, reset⟩, resetting⟩⟩ hflagged hflush with h | ⟨e, h⟩
    · exact .finish (fun _ => hdrain) h
    · exact .fails (fun _ => hdrain) h trivial
  | @flush reset resetting sent bytes turn turns piece hflagged hbytes hflushing hflush _ ih =>
    obtain ⟨turn', turns', hturn, hturns, -, hleads⟩ := ih
    have hdrain : Drainable [piece.incoming] := .data rfl .nil
    refine ⟨_, turn' :: turns', .cons (carries_encodePacket _ hbytes) .nil, .cons hturn hturns, fun _ => hdrain,
      fun payload => ?_⟩
    have hflush : (op.flushing && endsInFlush (sent ++ piece.payload)) = true := by rw [hflushing, hflush]; rfl
    rcases Operation.onPacket_flagged hclassic ⟨payload, ⟨⟨sent, reset⟩, resetting⟩⟩ hflagged hflush with h | ⟨e, h⟩
    · exact .reply (fun _ => hdrain) h .nil (hleads _)
    · exact .fails (fun _ => hdrain) h trivial
  | @data reset resetting sent bytes packets turns piece hinner hbytes hquiet _ ih =>
    obtain ⟨packets', turns', hpackets, hturns, hdrain, hleads⟩ := ih
    have hdrain : Drainable (piece.incoming :: packets') := .data rfl (hdrain rfl)
    refine ⟨_, turns', .cons (carries_encodePacket _ hbytes) hpackets, hturns, fun _ => hdrain, fun payload => ?_⟩
    have hreact := Operation.onPacket_eq hclassic op ⟨payload, ⟨⟨sent, reset⟩, resetting⟩⟩ piece.incoming
    rcases Reader.react_inner ⟨⟨sent, reset⟩, resetting⟩ hinner (by simpa using hquiet rfl) with h | ⟨e, h⟩
    · exact .wait (fun _ => hdrain) (hreact.trans h) (hleads payload)
    · exact .fails (fun _ => hdrain) (hreact.trans h) trivial
  | @marker reset sent turn turns markerType _ ih =>
    obtain ⟨turn', turns', hturn, hturns, -, hleads⟩ := ih
    refine ⟨_, turn' :: turns', .cons (carries_encodePacket _ (encodePacket_marker markerType)) .nil,
      .cons hturn hturns, fun _ => .marker rfl, fun payload => ?_⟩
    exact .reply (fun _ => .marker rfl) (Operation.onPacket_eq hclassic op _ _) .nil (hleads payload)
  | @resetting reset sent packets turns markerType _ ih =>
    obtain ⟨packets', turns', hpackets, hturns, -, hleads⟩ := ih
    refine ⟨_, turns', .cons (carries_encodePacket _ (encodePacket_marker markerType)) hpackets, hturns, nofun,
      fun payload => ?_⟩
    exact .wait nofun (Operation.onPacket_eq hclassic op _ _) (hleads payload)

theorem readsExactly_of_responds {answer : List (List (List UInt8))} (h : Responds op true answer) :
    ReadsExactly settings op answer := by
  obtain ⟨turn, turns, rfl, h⟩ := h
  obtain ⟨turn', turns', hturn, hturns, -, hleads⟩ := leadsRead_of_response hclassic h
  exact ⟨turn', turns', .cons hturn hturns, hleads []⟩

/-- A response without a reply brings the drain to its end. -/
theorem leadsDrain_of_response {reset resetting : Bool} {sent : List UInt8} {turns : List (List (List UInt8))}
    (h : Response false false reset resetting sent packets turns) (hreset : reset = false) (hturns : turns = []) :
    ∃ packets', List.Forall₂ (Carries settings.limits) packets packets' ∧
      LeadsDrain settings (.trailing ⟨⟨sent, reset⟩, resetting⟩) packets' [] := by
  have hdrain (reader : Reader) (packet : IncomingPacket) : Drain.onPacket settings (.trailing reader) packet =
      reader.react (boundaryPacket settings.limits false none) .trailing (fun _ => .ok .finish) packet := by
    rw [Drain.onPacket, hclassic]
  induction h with
  | last hflagged hbytes =>
    refine ⟨_, .cons (carries_encodePacket _ hbytes) .nil, ?_⟩
    rcases Reader.react_flagged _ hflagged with h | ⟨e, h⟩
    · exact .finish trivial ((hdrain _ _).trans h)
    · exact .fails trivial ((hdrain _ _).trans h) trivial
  | flush | marker => cases hturns
  | @data reset resetting sent _ _ _ _ hinner hbytes _ _ ih =>
    obtain ⟨packets', hpackets, hleads⟩ := ih hreset hturns
    refine ⟨_, .cons (carries_encodePacket _ hbytes) hpackets, ?_⟩
    rcases Reader.react_inner ⟨⟨sent, reset⟩, resetting⟩ hinner (by rw [hreset]; rfl) with h | ⟨e, h⟩
    · exact .wait trivial ((hdrain _ _).trans h) hleads
    · exact .fails trivial ((hdrain _ _).trans h) trivial
  | resetting markerType _ ih =>
    obtain ⟨packets', hpackets, hleads⟩ := ih hreset hturns
    exact ⟨_, .cons (carries_encodePacket _ (encodePacket_marker markerType)) hpackets,
      .wait trivial (hdrain _ _) hleads⟩

end

end OracleThin.Session

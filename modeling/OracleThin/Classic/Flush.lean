import OracleThin.Classic.Query

/-!
# Flushing out binds

A server that has to be asked for the out binds of an execute ends its response with a FLUSH_OUT_BINDS message, a
single byte. The classic reader of execute responses recognises it by the last byte of what it has read, drops that
byte, answers and reads on. The last byte of a response that does not end with such a message may be the same.
-/

namespace OracleThin.Classic

open Lib Lib.Parser Wire Ttc

/-! ### The reader -/

/-- What a reader comes to, the response and what is left on the stream or an error, and the packets that it has
sent. -/
structure Exchange where
  result : Except Error (List UInt8 × List UInt8)
  sent : List (List UInt8)
deriving DecidableEq

section

variable (limits : ProtocolLimits) (probe : Probe) (sdu : Nat) (cancelled : Nat → Bool)

/-- Answers the requests to flush while the payload ends with one. Every round takes at least one packet off the
stream. `cancelled` says whether the call is found cancelled before the given round. -/
def flushOutBinds : Nat → Nat → List UInt8 → List UInt8 → List (List UInt8) → Exchange
  | 0, _, _, _, sent => ⟨.error .io, sent⟩
  | fuel + 1, round, payload, stream, sent =>
    if endsInFlush payload then
      if cancelled round then ⟨.error .cancelled, sent⟩
      else
        match sendDataPacketWithFlagsAndWidth [tnsMsgTypeFlushOutBinds] sdu 0 0 .large32 with
        | .error e => ⟨.error (.protocol e), sent⟩
        | .ok packets =>
          match readClassicDataResponseProbedInto limits probe stream payload.dropLast with
          | .error e => ⟨.error e, sent ++ packets⟩
          | .ok received =>
            flushOutBinds fuel (round + 1) received.response received.unread (sent ++ packets ++ received.sent)
    else ⟨.ok (payload, stream), sent⟩

def readClassicDataResponseFlushingOutBindsProbedWithLimits (stream : List UInt8) : Exchange :=
  match readClassicDataResponseProbedInto limits probe stream [] with
  | .error e => ⟨.error e, []⟩
  | .ok received =>
    flushOutBinds limits probe sdu cancelled (stream.length + 1) 0 received.response received.unread received.sent

end

/-! ### What the classic reader returns -/

section

variable {limits : ProtocolLimits} {probe : Probe} {r : Reassembly}

/-- If the loop returns all that the pieces carry, the probe has refused what arrived before the last piece. -/
theorem probe_of_reassemble (hr : r.afterReset = false) {pieces : List DataPiece} {bytes : List (List UInt8)}
    (hframes : List.Forall₂ (Frames limits) bytes (pieces.map DataPiece.incoming))
    (hlast : ∀ piece ∈ pieces.getLast?, piece.payload ≠ [])
    (hlen : (r.response ++ joined pieces).length ≤ limits.maxResponseBytes) {fuel : Nat} {rest unread : List UInt8}
    {sent sent' : List (List UInt8)}
    (h : reassemble limits (classicPacket limits probe) fuel none r (bytes.flatten ++ rest) sent =
      .ok ⟨r.response ++ joined pieces, unread, sent'⟩) {k : Nat} (hpos : 0 < k) (hk : k < pieces.length) :
    probe (r.response ++ joined (pieces.take k)) = .ok false := by
  induction pieces generalizing r bytes fuel k with
  | nil => exact absurd hk (Nat.not_lt_zero k)
  | cons piece pieces ih =>
    have hmore : pieces ≠ [] := by
      rintro rfl
      rw [List.length_singleton] at hk
      omega
    obtain ⟨b, bs, hb, hbs, rfl⟩ := List.forall₂_cons_right_iff.1 hframes
    have hjoined : joined (piece :: pieces) = piece.payload ++ joined pieces := rfl
    rw [hjoined, ← List.append_assoc] at hlen h
    have hpacket : (r.response ++ piece.payload).length ≤ limits.maxResponseBytes := by
      rw [List.length_append] at hlen
      omega
    rw [List.getLast?_cons_of_ne_nil hmore] at hlast
    cases fuel with
    | zero => cases h
    | succ fuel =>
      simp only [reassemble, List.flatten_cons, List.append_assoc, hb (bs.flatten ++ rest), bind, Except.bind] at h
      cases hprobe : probe (r.response ++ piece.payload) with
      | error e =>
        rw [classicPacket_eq hr hpacket hprobe] at h
        cases h
      | ok complete =>
        rw [classicPacket_eq hr hpacket hprobe] at h
        dsimp only [Except.mapError, bind, Except.bind] at h
        cases complete with
        | true =>
          -- The loop has stopped before the last piece, so something is missing.
          exfalso
          simp only [if_true, pure, Except.pure, Except.ok.injEq, Received.mk.injEq] at h
          have hnil : joined pieces = [] := by
            have h₁ := h.1
            rw [← List.append_assoc] at h₁
            exact List.self_eq_append_right.1 h₁
          refine hlast _ (List.getLast?_eq_some_getLast hmore) ?_
          exact List.flatten_eq_nil_iff.1 hnil _ (List.mem_map_of_mem (List.getLast_mem hmore))
        | false =>
          have hrest : ∀ j, 0 < j → j < pieces.length →
              probe (r.response ++ piece.payload ++ joined (pieces.take j)) = .ok false := fun j hj hlt =>
            ih (r := { r with response := r.response ++ piece.payload }) hr hbs hlast hlen (by simpa using h) hj hlt
          obtain ⟨k, rfl⟩ := Nat.exists_eq_succ_of_ne_zero (Nat.pos_iff_ne_zero.1 hpos)
          cases k with
          | zero => simpa [joined] using hprobe
          | succ k =>
            have hk' := hrest (k + 1) (Nat.succ_pos k) (by rw [List.length_cons] at hk; omega)
            simpa [joined] using hk'

/-- The classic reader returns a payload that the probe takes exactly when the probe refuses what the packets before
the last one carry. -/
theorem readClassic_eq_iff {payload : List UInt8} (hwhole : probe payload = .ok true) (hne : payload ≠ [])
    (hlen : payload.length ≤ limits.maxResponseBytes) (cut : Cut limits payload) (rest : List UInt8) :
    readClassicDataResponseProbedInto limits probe (cut.packets.flatten ++ rest) [] = .ok ⟨payload, rest, []⟩ ↔
      ∀ k, 0 < k → k < cut.pieces.length → probe (joined (cut.pieces.take k)) = .ok false := by
  obtain ⟨pieces, packets, rfl, hpackets, hfits, hlast⟩ := cut
  constructor
  · intro h k hpos hk
    exact probe_of_reassemble (r := {}) rfl (forall₂_frames hpackets hfits) hlast hlen h hpos hk
  · intro h
    have hpieces : pieces ≠ [] := by
      rintro rfl
      exact hne rfl
    exact readClassic_of_probe rest hpieces hpackets hfits hlen h hwhole

/-- The classic reader returns a response that the probe takes, however it is cut, exactly if the probe refuses its
proper prefixes. -/
theorem readsExactly_iff {payload : List UInt8} (hwhole : probe payload = .ok true) (hne : payload ≠ [])
    (hlen : payload.length ≤ limits.maxResponseBytes)
    (hfits : payload.length + 10 ≤ min limits.maxPacketBytes (2 ^ 32 - 1)) :
    ReadsExactly limits probe payload ↔ ∀ t, t <+: payload → t ≠ payload → probe t = .ok false := by
  refine ⟨fun h t ht hproper => ?_, fun h => readsExactly_of_prefix hne hlen h hwhole⟩
  obtain ⟨last, rfl⟩ := ht
  have hpacket (bytes : List UInt8) (hle : bytes.length ≤ (t ++ last).length) : ∃ packet,
      DataPiece.encode .large32 ⟨0, 0, bytes⟩ = .ok packet ∧ packet.length ≤ limits.maxPacketBytes := by
    refine ⟨_, if_pos ?_, ?_⟩ <;> simp [dataFlagsBytes, tnsHeaderLen] <;> omega
  obtain ⟨first, hfirst, hfirstFits⟩ := hpacket t (by simp)
  obtain ⟨second, hsecond, hsecondFits⟩ := hpacket last (by simp)
  -- The response arrives in two packets, cut after the prefix.
  have hread := (readClassic_eq_iff hwhole hne hlen ⟨[⟨0, 0, t⟩, ⟨0, 0, last⟩], [first, second], by simp [joined],
    by rw [List.mapM_cons, hfirst, List.mapM_cons, hsecond]; rfl, by simp [hfirstFits, hsecondFits],
    by simpa using hproper⟩ []).1 (h _ [])
  simpa [joined] using hread 1 Nat.one_pos Nat.one_lt_two

theorem readsExactly_iff_two : ReadsExactly .default (fun bytes => .ok (bytes == [9, 0])) [9, 0] :=
  (readsExactly_iff rfl (by decide) (by decide) (by decide)).2 fun t _ hne => by simp [hne]

end

/-! ### When nothing is flushed -/

section

variable {limits : ProtocolLimits} {probe : Probe} {sdu : Nat} {cancelled : Nat → Bool}

private theorem sent_flushOutBinds (fuel round : Nat) (payload stream : List UInt8) (sent : List (List UInt8)) :
    sent <+: (flushOutBinds limits probe sdu cancelled fuel round payload stream sent).sent := by
  induction fuel generalizing round payload stream sent with
  | zero => exact List.prefix_rfl
  | succ fuel ih =>
    unfold flushOutBinds
    split
    · split
      · exact List.prefix_rfl
      · split
        · exact List.prefix_rfl
        · split
          · exact List.prefix_append ..
          · refine List.IsPrefix.trans ?_ (ih ..)
            rw [List.append_assoc]
            exact List.prefix_append ..
    · exact List.prefix_rfl

/-- A response is returned without a request to flush exactly when the first reading returns it and it does not end in
the byte of such a request. -/
theorem flushing_eq_iff {payload stream rest : List UInt8} :
    readClassicDataResponseFlushingOutBindsProbedWithLimits limits probe sdu cancelled stream =
      ⟨.ok (payload, rest), []⟩ ↔
      readClassicDataResponseProbedInto limits probe stream [] = .ok ⟨payload, rest, []⟩ ∧
        payload.getLast? ≠ some tnsMsgTypeFlushOutBinds := by
  unfold readClassicDataResponseFlushingOutBindsProbedWithLimits
  cases hread : readClassicDataResponseProbedInto limits probe stream [] with
  | error e => simp
  | ok received =>
    obtain ⟨response, unread, sent⟩ := received
    dsimp only
    by_cases hflush : endsInFlush response = true
    · have hlast : response.getLast? = some tnsMsgTypeFlushOutBinds := by simpa [endsInFlush] using hflush
      constructor
      · intro h
        exfalso
        rw [flushOutBinds, if_pos hflush] at h
        split at h
        · cases h
        · split at h
          · cases h
          · rename_i packets hpackets
            have hpackets := sendDataPacket_ne_nil (List.cons_ne_nil _ _) hpackets
            split at h
            · cases h
            · -- The request that was sent is among what has been sent in the end.
              rename_i received _
              have hsent : sent ++ packets ++
                received.sent <+: (flushOutBinds limits probe sdu cancelled stream.length
                  (0 + 1) received.response received.unread (sent ++ packets ++ received.sent)).sent :=
                sent_flushOutBinds ..
              rw [h] at hsent
              exact hpackets (List.append_eq_nil_iff.1 (List.append_eq_nil_iff.1 (List.prefix_nil.1 hsent)).1).2
      · rintro ⟨h, hne⟩
        cases h
        exact absurd hlast hne
    · have hlast : response.getLast? ≠ some tnsMsgTypeFlushOutBinds := by
        intro heq
        exact hflush (by simpa [endsInFlush] using heq)
      rw [flushOutBinds, if_neg hflush]
      constructor
      · intro h
        cases h
        exact ⟨rfl, hlast⟩
      · rintro ⟨h, -⟩
        cases h
        rfl

end

/-! ### Execute responses -/

section

variable {J V : Type} {limits : ProtocolLimits} {ctx : QueryContext J V} {ms : List (List UInt8)}

/-- The messages are a complete response to an execute, and the last one is no request to flush. -/
structure Responds (ctx : QueryContext J V) (limits : ProtocolLimits) (ms : List (List UInt8)) : Prop where
  fits : TtcReader.withLimits ms.flatten limits = .ok { limits }
  run : ∃ result, Run (ctx.message { limits } ms.flatten) ctx.start ms result
  complete : (QueryProbe.query ctx).judge limits ms.flatten = .ok true
  last : ∃ m ∈ ms.getLast?, m.head? ≠ some tnsMsgTypeFlushOutBinds

/-- The reader returns a complete response unmodified and sends nothing exactly when the last byte of the response is
not that of FLUSH_OUT_BINDS and no packet but the last completes the response for the probe. The latter goes without
saying for a response that a plain reader accepts. -/
theorem flush_only_on_request (h : Responds ctx limits ms) (sdu : Nat) (cancelled : Nat → Bool)
    (cut : Cut limits ms.flatten) (rest : List UInt8) :
    (readClassicDataResponseFlushingOutBindsProbedWithLimits limits
      ((QueryProbe.query ctx).judge limits) sdu cancelled
        (cut.packets.flatten ++ rest) = ⟨.ok (ms.flatten, rest), []⟩ ↔
      ms.flatten.getLast? ≠ some tnsMsgTypeFlushOutBinds ∧
        ∀ k, 0 < k → k < cut.pieces.length →
          (QueryProbe.query ctx).judge limits (joined (cut.pieces.take k)) = .ok false) ∧
    ((QueryProbe.query ctx).Answered { limits, plain := true } ms →
      (readClassicDataResponseFlushingOutBindsProbedWithLimits limits
        ((QueryProbe.query ctx).judge limits) sdu cancelled
          (cut.packets.flatten ++ rest) = ⟨.ok (ms.flatten, rest), []⟩ ↔
        ms.flatten.getLast? ≠ some tnsMsgTypeFlushOutBinds)) := by
  have hlen := (TtcReader.withLimits_eq_ok_iff.1 h.fits).2.2.1
  have hne : ms.flatten ≠ [] := by
    obtain ⟨m, hm, -⟩ := h.last
    obtain ⟨result, hrun⟩ := h.run
    have hmem : m ∈ ms := List.mem_of_getLast? hm
    exact fun hnil => hrun.ne_nil m hmem (List.flatten_eq_nil_iff.1 hnil m hmem)
  constructor
  · rw [flushing_eq_iff, readClassic_eq_iff h.complete hne hlen]
    exact and_comm
  · intro hplain
    rw [flushing_eq_iff]
    exact and_iff_right ((judge_query ctx hplain).2.2 cut rest)

end

/-- A context of an execute without columns and binds before 20.1. -/
def bareExecute : QueryContext Unit Unit where
  std := asciiStd
  images := noImages
  capabilities := { ttcFieldVersion := 13 }

/-- An ERROR message without an error, at the end the number of rows. -/
def rowsMessage (rows : UInt8) : List UInt8 := 4 :: List.replicate 28 0 ++ [0, 1, rows]

private theorem responds_rowsMessage {rows : UInt8} (h : rows = 18 ∨ rows = 19) :
    Responds bareExecute .default [rowsMessage rows] := by
  rcases h with rfl | rfl
  · exact ⟨rfl, ⟨_, .next (by decide) rfl .nil⟩, rfl, _, rfl, by decide⟩
  · exact ⟨rfl, ⟨_, .next (by decide) rfl .nil⟩, rfl, _, rfl, by decide⟩

/-- The reader on a response that reports 18 rows. -/
theorem flush_only_on_request_rows :
    Responds bareExecute .default [rowsMessage 18] ∧
    readClassicDataResponseFlushingOutBindsProbedWithLimits .default
    ((QueryProbe.query bareExecute).judge .default) 8192
      (fun _ => false) ([0, 0, 0, 42, 6, 0, 0, 0, 0, 0] ++ rowsMessage 18) = ⟨.ok (rowsMessage 18, []), []⟩ := by
  have hresponds : Responds bareExecute .default [rowsMessage 18] := responds_rowsMessage (Or.inl rfl)
  refine ⟨hresponds, ?_⟩
  let cut : Cut .default [rowsMessage 18].flatten := ⟨[⟨0, 0, rowsMessage 18⟩], _, rfl, rfl, by decide, by decide⟩
  refine (flush_only_on_request hresponds 8192 (fun _ => false) cut []).1.2 ⟨by decide, fun k hpos hk => ?_⟩
  have hlen : cut.pieces.length = 1 := rfl
  omega

/-- When the response reports 19 rows, the reader takes the number for a request to flush: it drops that byte, sends a
FLUSH_OUT_BINDS that nobody has asked for, and waits for more. -/
theorem flush_without_request :
    Responds bareExecute .default [rowsMessage 19] ∧
    readClassicDataResponseFlushingOutBindsProbedWithLimits .default
    ((QueryProbe.query bareExecute).judge .default) 8192
      (fun _ => false) ([0, 0, 0, 42, 6, 0, 0, 0, 0, 0] ++ rowsMessage 19) =
      ⟨.error .io, [[0, 0, 0, 11, 6, 0, 0, 0, 0, 0, 19]]⟩ :=
  ⟨responds_rowsMessage (Or.inr rfl), rfl⟩

end OracleThin.Classic

import OracleThin.Wire.Response

/-!
# END_OF_RESPONSE framing does not depend on fragmentation

A response that only its last packet marks as ended is reassembled byte for byte, however it was cut, and the reader
stops right behind it. What the packet sender makes of a payload is such a cut.
-/

namespace OracleThin.Wire

open Lib

variable {limits : ProtocolLimits}

/-! ### One packet -/

/-- The piece does not end a response: it carries no end flag and is not a lone END_OF_RESPONSE or FLUSH_OUT_BINDS
byte. -/
def DataPiece.Inner (piece : DataPiece) : Prop :=
  piece.dataFlags &&& (tnsDataFlagsEndOfResponse ||| tnsDataFlagsEof) = 0 ∧
    piece.payload ≠ [tnsMsgTypeEndOfResponse] ∧ piece.payload ≠ [tnsMsgTypeFlushOutBinds]

/-- The piece carries the END_OF_RESPONSE flag. -/
def DataPiece.Flagged (piece : DataPiece) : Prop := piece.dataFlags &&& tnsDataFlagsEndOfResponse ≠ 0

instance (piece : DataPiece) : Decidable piece.Inner := inferInstanceAs (Decidable (_ ∧ _))

instance (piece : DataPiece) : Decidable piece.Flagged := inferInstanceAs (Decidable (_ ≠ _))

private theorem and_eq_zero_of_or_and_eq_zero {a b mask : UInt16} (h : (a ||| b) &&& mask = 0) : b &&& mask = 0 := by
  rw [← UInt16.toNat_inj, UInt16.toNat_and, UInt16.toNat_or, Nat.and_or_distrib_right] at h
  rw [← UInt16.toNat_inj, UInt16.toNat_and]
  exact (Nat.or_eq_zero_iff.1 h).2

private theorem and_left_eq_zero_of_and_or_eq_zero {a b flags : UInt16} (h : flags &&& (a ||| b) = 0) :
    flags &&& a = 0 := by
  rw [UInt16.and_comm, UInt16.or_comm] at h
  rw [UInt16.and_comm]
  exact and_eq_zero_of_or_and_eq_zero h

theorem DataPiece.Inner.not_ends {piece : DataPiece} (h : piece.Inner) :
    dataPacketEndsResponse piece.dataFlags piece.payload = false := by
  obtain ⟨hflags, hend, hflush⟩ := h
  simp [dataPacketEndsResponse, hflags, hend, hflush]

theorem DataPiece.Flagged.ends {piece : DataPiece} (h : piece.Flagged) :
    dataPacketEndsResponse piece.dataFlags piece.payload = true :=
  if_pos fun hzero => h (and_left_eq_zero_of_and_or_eq_zero hzero)

variable {pieces : List DataPiece}

section Loop

variable {inPipeline : Bool} {r : Reassembly} {piece : DataPiece}

theorem DataPiece.type_ne_marker : piece.incoming.packetType ≠ tnsPacketTypeMarker := by
  simp [DataPiece.incoming, tnsPacketTypeData, tnsPacketTypeMarker]

theorem checkResponseBytes_eq_ok {n : Nat} (h : n ≤ limits.maxResponseBytes) :
    limits.checkResponseBytes n = .ok () :=
  ProtocolLimits.check_eq_ok h

/-- A piece that does not end the response is appended to it. -/
theorem boundaryPacket_inner (hpiece : piece.Inner)
    (hr : (r.afterReset && postResetPacketEndsResponse piece.payload) = false) :
    boundaryPacket limits inPipeline none r piece.incoming =
      (limits.checkResponseBytes (r.response.length + piece.payload.length)).mapError .protocol >>= fun _ =>
        .ok (.more { r with response := r.response ++ piece.payload }) := by
  unfold boundaryPacket
  rw [if_neg DataPiece.type_ne_marker, if_neg (by simp [DataPiece.incoming]), splitDataFlags_incoming]
  simp [bind, Except.bind, hpiece.not_ends, hr, pure, Except.pure]

theorem boundaryPacket_flagged (hpiece : piece.Flagged) :
    boundaryPacket limits inPipeline none r piece.incoming =
      (limits.checkResponseBytes (r.response.length + piece.payload.length)).mapError .protocol >>= fun _ =>
        .ok (.done (r.response ++ piece.payload)) := by
  unfold boundaryPacket
  rw [if_neg DataPiece.type_ne_marker, if_neg (by simp [DataPiece.incoming]), splitDataFlags_incoming]
  -- The passthrough of a single packet gives the same response as the reassembly.
  by_cases hempty : r.response = []
  · simp [bind, Except.bind, hpiece.ends, hempty, pure, Except.pure]
  · simp [bind, Except.bind, hpiece.ends, hempty, pure, Except.pure]

/-! ### A whole response -/

/-- Only the last piece carries the END_OF_RESPONSE flag, and no earlier one ends a response. -/
def OnlyLastEnds (pieces : List DataPiece) : Prop :=
  ∃ init last, pieces = init ++ [last] ∧ last.Flagged ∧ ∀ piece ∈ init, piece.Inner

/-- The payload that the pieces carry together. -/
def joined (pieces : List DataPiece) : List UInt8 := (pieces.map DataPiece.payload).flatten

private theorem accepts_of_onlyLastEnds (inPipeline : Bool) (hpieces : OnlyLastEnds pieces)
    (hr : r.afterReset = false) (hlen : (r.response ++ joined pieces).length ≤ limits.maxResponseBytes) :
    Accepts (boundaryPacket limits inPipeline none) r (pieces.map DataPiece.incoming)
    (r.response ++ joined pieces) := by
  obtain ⟨init, last, rfl, hlast, hinit⟩ := hpieces
  induction init generalizing r with
  | nil =>
    simp only [List.nil_append, joined, List.map_cons, List.map_nil, List.flatten_cons, List.flatten_nil,
      List.append_nil] at hlen ⊢
    refine .done ?_
    rw [boundaryPacket_flagged hlast, ← List.length_append, checkResponseBytes_eq_ok hlen]
    rfl
  | cons piece init ih =>
    have hpiece := hinit piece (List.mem_cons_self ..)
    have hjoined : joined (piece :: init ++ [last]) = piece.payload ++ joined (init ++ [last]) := rfl
    rw [hjoined, ← List.append_assoc] at hlen ⊢
    have hmore : boundaryPacket limits inPipeline none r piece.incoming =
        .ok (.more { r with response := r.response ++ piece.payload }) := by
      rw [List.length_append, List.length_append] at hlen
      rw [boundaryPacket_inner hpiece (by rw [hr]; rfl), checkResponseBytes_eq_ok (by omega)]
      rfl
    exact .more hmore (ih hr hlen fun p hp => hinit p (List.mem_cons_of_mem _ hp))

end Loop

theorem Frames.length_pos {bytes : List UInt8} {packet : IncomingPacket}
    (h : Frames limits bytes packet) : 0 < bytes.length := by
  cases bytes with
  | nil => cases h []
  | cons b bs => simp

theorem length_le_length_flatten {bytes : List (List UInt8)}
    {packets : List IncomingPacket} (h : List.Forall₂ (Frames limits) bytes packets) :
    packets.length ≤ bytes.flatten.length := by
  induction h with
  | nil => simp
  | cons h _ ih =>
    have := h.length_pos
    simp only [List.length_cons, List.flatten_cons, List.length_append]
    omega

theorem forall₂_frames {packets : List (List UInt8)}
    (hpackets : pieces.mapM (DataPiece.encode .large32) = .ok packets)
    (hlimit : ∀ packet ∈ packets, packet.length ≤ limits.maxPacketBytes) :
    List.Forall₂ (Frames limits) packets (pieces.map DataPiece.incoming) := by
  have h := forall₂_of_mapM_eq_ok hpackets
  clear hpackets
  induction h with
  | nil => exact .nil
  | cons h _ ih =>
    exact .cons (DataPiece.frames h (hlimit _ (List.mem_cons_self ..)))
      (ih fun packet hp => hlimit packet (List.mem_cons_of_mem _ hp))

private theorem endsInFlush_eq_decide (payload : List UInt8) :
    endsInFlush payload = decide (payload.getLast? = some 19) := by
  rw [endsInFlush, Bool.eq_iff_iff, beq_iff_eq, decide_eq_true_iff]
  rfl

private theorem readDataResponseBoundary_of_onlyLastEnds {packets : List (List UInt8)}
    (inPipeline : Bool) (rest : List UInt8) (hpieces : OnlyLastEnds pieces)
    (hpackets : pieces.mapM (DataPiece.encode .large32) = .ok packets)
    (hlimit : ∀ packet ∈ packets, packet.length ≤ limits.maxPacketBytes)
    (hlen : (joined pieces).length ≤ limits.maxResponseBytes) :
    readDataResponseBoundaryWithLimits limits inPipeline (packets.flatten ++ rest) =
      .ok (⟨joined pieces, endsInFlush (joined pieces)⟩, rest, []) := by
  have haccepts := accepts_of_onlyLastEnds inPipeline (r := {}) hpieces rfl hlen
  have hframes := forall₂_frames hpackets hlimit
  have hfuel : (pieces.map DataPiece.incoming).length ≤ (packets.flatten ++ rest).length + 2 := by
    have := length_le_length_flatten hframes
    rw [List.length_append]
    omega
  have h := reassemble_of_accepts haccepts hframes hfuel rest []
  simp only [readDataResponseBoundaryWithLimits, readDataResponseBoundarySeeded, h, bind, Except.bind, pure,
    Except.pure,
    List.nil_append]

/-! ### The sender -/

theorem joined_sendPieces (payload : List UInt8) (sdu : Nat) (firstPacketFlags lastPacketFlags : UInt16) :
    joined (sendPieces payload sdu firstPacketFlags lastPacketFlags) = payload := by
  have hmap : ∀ pieces : List (List UInt8), pieces.zipIdx.map (fun p => p.1) = pieces := by
    intro pieces
    exact List.zipIdx_map_fst 0 pieces
  simp only [joined, sendPieces, List.map_map, Function.comp_def, hmap]
  exact flatten_chunksAux (by omega) le_rfl

/-- With an SDU that leaves room for two bytes, no packet but the last can be a lone byte. -/
theorem onlyLastEnds_sendPieces {payload : List UInt8} {sdu : Nat} {firstPacketFlags lastPacketFlags : UInt16}
    (hpayload : payload ≠ []) (hsdu : tnsDataPacketOverhead + 2 ≤ sdu)
    (hfirst : firstPacketFlags &&& (tnsDataFlagsEndOfResponse ||| tnsDataFlagsEof) = 0)
    (hlast : lastPacketFlags &&& tnsDataFlagsEndOfResponse ≠ 0) :
    OnlyLastEnds (sendPieces payload sdu firstPacketFlags lastPacketFlags) := by
  have hsize : 2 ≤ max (sdu - tnsDataPacketOverhead) 1 := by omega
  unfold sendPieces
  generalize max (sdu - tnsDataPacketOverhead) 1 = size at hsize
  have hfull : ∀ piece ∈ (chunks size payload).dropLast, piece.length = size :=
    fun _ => length_eq_of_mem_dropLast_chunksAux
  obtain ⟨init, last, hcut⟩ : ∃ init last, chunks size payload = init ++ [last] :=
    ⟨_, _, (List.dropLast_append_getLast (chunks_ne_nil size hpayload)).symm⟩
  rw [hcut, List.dropLast_concat] at hfull
  simp only [hcut, List.zipIdx_append, List.map_append, List.zipIdx_cons, List.zipIdx_nil, List.map_cons,
    List.map_nil]
  refine ⟨_, _, rfl, ?_, ?_⟩
  · rw [DataPiece.Flagged, List.length_append, List.length_singleton, Nat.zero_add, if_pos rfl]
    exact fun h => hlast (and_eq_zero_of_or_and_eq_zero h)
  · intro piece hpiece
    obtain ⟨⟨chunk, index⟩, hmem, rfl⟩ := List.mem_map.1 hpiece
    obtain ⟨hchunk, hindex⟩ : chunk ∈ init ∧ index < init.length := by
      have := List.mem_zipIdx hmem
      simp only [Nat.zero_le, Nat.zero_add, true_and] at this
      exact ⟨this.2 ▸ List.getElem_mem _, this.1⟩
    have hlen := hfull chunk hchunk
    refine ⟨?_, ?_, ?_⟩
    · have hinner : ¬index + 1 = (init ++ [last]).length := by
        rw [List.length_append, List.length_singleton]
        omega
      rw [if_neg hinner, UInt16.or_zero]
      split
      · exact hfirst
      · exact UInt16.zero_and
    all_goals
      rintro rfl
      rw [List.length_singleton] at hlen
      omega

/-- Whatever the cut, the boundary reader returns the payload, leaves what follows it on the stream, answers nothing,
and reports a flush request exactly when the last byte is FLUSH_OUT_BINDS; the packets of the sender are such a
cut. -/
theorem boundary_framing (limits : ProtocolLimits) (inPipeline : Bool) (rest : List UInt8) :
    (∀ (pieces : List DataPiece) (packets : List (List UInt8)), OnlyLastEnds pieces → joined pieces ≠ [] →
      pieces.mapM (DataPiece.encode .large32) = .ok packets →
      (∀ packet ∈ packets, packet.length ≤ limits.maxPacketBytes) →
      (joined pieces).length ≤ limits.maxResponseBytes →
      readDataResponseBoundaryWithLimits limits inPipeline (packets.flatten ++ rest) =
        .ok (⟨joined pieces, decide ((joined pieces).getLast? = some 19)⟩, rest, [])) ∧
    ∀ (payload : List UInt8) (sdu : Nat) (firstPacketFlags lastPacketFlags : UInt16) (packets : List (List UInt8)),
      payload ≠ [] → tnsDataPacketOverhead + 2 ≤ sdu →
      firstPacketFlags &&& (tnsDataFlagsEndOfResponse ||| tnsDataFlagsEof) = 0 →
      lastPacketFlags &&& tnsDataFlagsEndOfResponse ≠ 0 →
      sendDataPacketWithFlagsAndWidth payload sdu firstPacketFlags lastPacketFlags .large32 = .ok packets →
      (∀ packet ∈ packets, packet.length ≤ limits.maxPacketBytes) →
      payload.length ≤ limits.maxResponseBytes →
      readDataResponseBoundaryWithLimits limits inPipeline (packets.flatten ++ rest) =
        .ok (⟨payload, decide (payload.getLast? = some 19)⟩, rest, []) := by
  refine ⟨fun pieces packets hpieces _ hpackets hlimit hlen => ?_,
    fun payload sdu firstFlags lastFlags packets hpayload hsdu hfirst hlast hpackets hlimit hlen => ?_⟩
  · rw [← endsInFlush_eq_decide]
    exact readDataResponseBoundary_of_onlyLastEnds inPipeline rest hpieces hpackets hlimit hlen
  · have hjoined := joined_sendPieces payload sdu firstFlags lastFlags
    have h := readDataResponseBoundary_of_onlyLastEnds inPipeline rest
      (onlyLastEnds_sendPieces hpayload hsdu hfirst hlast) hpackets hlimit (by rw [hjoined]; exact hlen)
    rw [hjoined] at h
    rw [← endsInFlush_eq_decide]
    exact h

/-- Two packets whose first one ends in the byte 29, and the three packets the sender makes of five bytes for an SDU
of 12; the next response starts right behind. -/
theorem boundary_framing_cut :
    readDataResponseBoundaryWithLimits .default false
        ([0, 0, 0, 12, 6, 0, 0, 0, 0, 0, 7, 29] ++ [0, 0, 0, 11, 6, 0, 0, 0, 0x20, 0, 19] ++ [0, 0]) =
      .ok (⟨[7, 29, 19], true⟩, [0, 0], []) ∧
    readDataResponseBoundaryWithLimits .default false
        ([0, 0, 0, 12, 6, 0, 0, 0, 0, 0, 1, 2] ++ [0, 0, 0, 12, 6, 0, 0, 0, 0, 0, 3, 4] ++
          [0, 0, 0, 11, 6, 0, 0, 0, 0x20, 0, 5] ++ [0, 0]) =
      .ok (⟨[1, 2, 3, 4, 5], false⟩, [0, 0], []) := by
  have h := boundary_framing .default false [0, 0]
  constructor
  · refine h.1 [⟨0, 0, [7, 29]⟩, ⟨0, tnsDataFlagsEndOfResponse, [19]⟩] [_, _] ?_ (by decide) rfl (by decide)
      (by decide)
    exact ⟨[_], _, rfl, by decide, by decide⟩
  · exact h.2 [1, 2, 3, 4, 5] 12 0 tnsDataFlagsEndOfResponse [_, _, _] (by decide) (by decide) (by decide)
      (by decide) rfl
      (by decide) (by decide)

/-- An earlier packet with the EOF flag already ends the response, so its cut is not read back. -/
theorem boundary_framing_eof_fails :
    ∃ (first last : DataPiece) (head tail : List UInt8), ¬first.Flagged ∧ last.Flagged ∧
      first.payload ≠ [tnsMsgTypeEndOfResponse] ∧ first.payload ≠ [tnsMsgTypeFlushOutBinds] ∧
      [first, last].mapM (DataPiece.encode .large32) = .ok [head, tail] ∧
      readDataResponseBoundaryWithLimits .default false (head ++ tail) = .ok (⟨[1], false⟩, tail, []) ∧
      joined [first, last] = [1, 2] :=
  ⟨⟨0, tnsDataFlagsEof, [1]⟩, ⟨0, tnsDataFlagsEndOfResponse, [2]⟩, _, _, by decide, by decide, by decide, by decide,
    rfl,
    rfl, rfl⟩

end OracleThin.Wire

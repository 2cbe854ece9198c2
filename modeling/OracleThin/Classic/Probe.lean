import OracleThin.Wire.Framing

/-!
# Responses without END_OF_RESPONSE framing

A server before 23ai does not say where a response ends. The classic reader runs the parser of the response on what
has arrived, after every DATA packet, and takes a decode error to mean that more is to come.
-/

namespace OracleThin.Classic

open Lib Wire

/-! ### The probe -/

/-- Whether what has been parsed is a whole response. -/
def responseComplete {α : Type} : Result α → Result Bool
  | .ok _ => .ok true
  | .error (.serverError _) => .ok true
  | .error (.serverErrorWithRowCount _ _) => .ok true
  | .error (.serverErrorInfo _) => .ok true
  | .error (.ttcDecode _) => .ok false
  | .error e => .error e

abbrev Probe := List UInt8 → Result Bool

/-! ### Cuts -/

/-- A payload that has been cut into DATA packets. Only the last packet has to carry something. -/
structure Cut (limits : ProtocolLimits) (payload : List UInt8) where
  pieces : List DataPiece
  packets : List (List UInt8)
  joined_eq : joined pieces = payload
  encoded : pieces.mapM (DataPiece.encode .large32) = .ok packets
  fits : ∀ packet ∈ packets, packet.length ≤ limits.maxPacketBytes
  last_ne_nil : ∀ piece ∈ pieces.getLast?, piece.payload ≠ []

variable {limits : ProtocolLimits} {probe : Probe} {payload : List UInt8}

/-- The classic reader returns exactly the payload, however it is cut, and leaves what follows on the stream. -/
def ReadsExactly (limits : ProtocolLimits) (probe : Probe) (payload : List UInt8) : Prop :=
  ∀ (cut : Cut limits payload) (rest : List UInt8),
    readClassicDataResponseProbedWithLimits limits probe (cut.packets.flatten ++ rest) = .ok ⟨payload, rest, []⟩

/-- No proper prefix of the payload is taken for the whole, and the payload is read as it is. -/
def NeverEarly (limits : ProtocolLimits) (probe : Probe) (payload : List UInt8) : Prop :=
  (∀ t, t <+: payload → t ≠ payload → probe t ≠ .ok true) ∧ ReadsExactly limits probe payload

/-! ### The reader on a cut -/

section

variable {r : Reassembly} {piece : DataPiece}

/-- The verdict of the probe decides about a DATA packet. -/
theorem classicPacket_eq (hr : r.afterReset = false)
    (hlen : (r.response ++ piece.payload).length ≤ limits.maxResponseBytes)
    {verdict : Result Bool} (hprobe : probe (r.response ++ piece.payload) = verdict) :
    classicPacket limits probe r piece.incoming = verdict.mapError .protocol >>= fun complete =>
      .ok (if complete then .done (r.response ++ piece.payload)
        else .more { r with response := r.response ++ piece.payload }) := by
  rw [List.length_append] at hlen
  unfold classicPacket
  rw [if_neg DataPiece.type_ne_marker, if_neg (by simp [DataPiece.incoming]), splitDataFlags_incoming]
  rcases verdict with e | _ | _ <;>
    simp [bind, Except.bind, hr, checkResponseBytes_eq_ok hlen, Except.mapError, hprobe, pure, Except.pure]

/-- If the probe refuses what has arrived before the last packet and takes what has arrived then, the reader stops at
the last packet. -/
theorem accepts_of_probe (hr : r.afterReset = false) {pieces : List DataPiece} (hne : pieces ≠ [])
    (hlen : (r.response ++ joined pieces).length ≤ limits.maxResponseBytes)
    (hinner : ∀ k, 0 < k → k < pieces.length → probe (r.response ++ joined (pieces.take k)) = .ok false)
    (hlast : probe (r.response ++ joined pieces) = .ok true) :
    Accepts (classicPacket limits probe) r (pieces.map DataPiece.incoming) (r.response ++ joined pieces) := by
  induction pieces generalizing r with
  | nil => exact absurd rfl hne
  | cons piece pieces ih =>
    have hjoined : joined (piece :: pieces) = piece.payload ++ joined pieces := rfl
    have hpacket : (r.response ++ piece.payload).length ≤ limits.maxResponseBytes := by
      rw [hjoined, List.length_append, List.length_append] at hlen
      rw [List.length_append]
      omega
    by_cases hmore : pieces = []
    · subst hmore
      have hsingle : joined [piece] = piece.payload := by simp [joined]
      rw [hsingle] at hlast ⊢
      exact .done (classicPacket_eq hr hpacket hlast)
    · have hfirst : probe (r.response ++ piece.payload) = .ok false := by
        have h := hinner 1 Nat.one_pos (by have := List.length_pos_iff.2 hmore; rw [List.length_cons]; omega)
        simpa [joined] using h
      rw [hjoined, ← List.append_assoc] at hlen hlast ⊢
      refine .more (classicPacket_eq hr hpacket hfirst) (ih hr hmore hlen (fun k hpos hk => ?_) hlast)
      have h := hinner (k + 1) (Nat.succ_pos k) (by rw [List.length_cons]; omega)
      simpa [joined, List.append_assoc] using h

/-- The reader on a list of packets, whatever follows them on the stream. -/
theorem readClassic_of_probe {pieces : List DataPiece} {packets : List (List UInt8)} (rest : List UInt8)
    (hne : pieces ≠ []) (hpackets : pieces.mapM (DataPiece.encode .large32) = .ok packets)
    (hfits : ∀ packet ∈ packets, packet.length ≤ limits.maxPacketBytes)
    (hlen : (joined pieces).length ≤ limits.maxResponseBytes)
    (hinner : ∀ k, 0 < k → k < pieces.length → probe (joined (pieces.take k)) = .ok false)
    (hlast : probe (joined pieces) = .ok true) :
    readClassicDataResponseProbedWithLimits limits probe (packets.flatten ++ rest) =
      .ok ⟨joined pieces, rest, []⟩ := by
  have haccepts := accepts_of_probe (r := {}) rfl hne hlen hinner hlast
  have hframes := forall₂_frames hpackets hfits
  have hfuel : (pieces.map DataPiece.incoming).length ≤ (packets.flatten ++ rest).length + 1 := by
    have := length_le_length_flatten hframes
    rw [List.length_append]
    omega
  exact reassemble_of_accepts haccepts hframes hfuel rest []

/-- A probe that refuses the proper prefixes of the payload reads it exactly. -/
theorem readsExactly_of_prefix (hne : payload ≠ []) (hlen : payload.length ≤ limits.maxResponseBytes)
    (hshorter : ∀ t, t <+: payload → t ≠ payload → probe t = .ok false) (hwhole : probe payload = .ok true) :
    ReadsExactly limits probe payload := by
  rintro ⟨pieces, packets, rfl, hpackets, hfits, hlast⟩ rest
  have hpieces : pieces ≠ [] := by
    rintro rfl
    exact hne rfl
  refine readClassic_of_probe rest hpieces hpackets hfits hlen (fun k _ hk => ?_) hwhole
  have hsplit : joined pieces = joined (pieces.take k) ++ joined (pieces.drop k) := by
    unfold joined
    rw [← List.flatten_append, ← List.map_append, List.take_append_drop]
  refine hshorter _ ⟨_, hsplit.symm⟩ fun heq => ?_
  -- What is left carries the last piece, which is not empty.
  have hnil : joined (pieces.drop k) = [] := by
    rw [← heq] at hsplit
    exact List.self_eq_append_right.1 hsplit
  have hmem : pieces.getLast hpieces ∈ pieces.drop k := by
    have hdrop : pieces.drop k ≠ [] := by
      rw [Ne, List.drop_eq_nil_iff]
      omega
    rw [← List.getLast_drop hdrop]
    exact List.getLast_mem hdrop
  exact hlast _ (List.getLast?_eq_some_getLast hpieces) (List.flatten_eq_nil_iff.1 hnil _ (List.mem_map_of_mem hmem))

end

/-- A packet of its own that the probe takes for a whole response ends the reading. -/
theorem readClassic_single {piece : DataPiece} {packet : List UInt8} (rest : List UInt8)
    (hpacket : piece.encode .large32 = .ok packet) (hfits : packet.length ≤ limits.maxPacketBytes)
    (hlen : piece.payload.length ≤ limits.maxResponseBytes) (hprobe : probe piece.payload = .ok true) :
    readClassicDataResponseProbedWithLimits limits probe (packet ++ rest) = .ok ⟨piece.payload, rest, []⟩ := by
  have hjoined : joined [piece] = piece.payload := by simp [joined]
  have hmap : [piece].mapM (DataPiece.encode .large32) = .ok [packet] := by
    simp [hpacket, bind, Except.bind, pure, Except.pure]
  have h : readClassicDataResponseProbedWithLimits limits probe ([packet].flatten ++ rest) =
      .ok ⟨joined [piece], rest, []⟩ := by
    refine readClassic_of_probe rest (List.cons_ne_nil piece []) hmap (by simpa using hfits) ?_ ?_ ?_
    · rwa [hjoined]
    · intro k hpos hk
      rw [List.length_singleton] at hk
      omega
    · rwa [hjoined]
  rw [hjoined] at h
  simpa using h

end OracleThin.Classic

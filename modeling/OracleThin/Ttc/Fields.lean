import OracleThin.Bind.Value
import OracleThin.Image.Vector
import OracleThin.Lib.Fallible

/-!
# Fields written and read back

The primitive fields of a TTC message: unsigned and signed integers with a length byte, byte strings in the short or
the chunked form, and byte strings after their length. Each writer is undone by its reader whatever follows on the
wire, so a sequence of fields is read back as it was written. The reader does not tell an empty byte string from an
absent one.
-/

namespace OracleThin.Ttc

open Lib Lib.Parser Wire Image
open OracleThin.Bind (writeBytesWithLength writeBytesWithTwoLengths writeChunks writeLength tnsMaxShortLength u32Max)

/-! ### Signed integers and absent byte strings -/

/-- A signed number: the high bit of the length byte is the sign, the bytes are the magnitude. -/
def writeSb4 (value : Int) : List UInt8 :=
  let sign : UInt8 := if value < 0 then 0x80 else 0
  let magnitude := value.natAbs
  if magnitude = 0 then [0]
  else if magnitude ≤ 0xff then (1 ||| sign) :: toBe 1 magnitude
  else if magnitude ≤ 0xffff then (2 ||| sign) :: toBe 2 magnitude
  else (4 ||| sign) :: toBe 4 magnitude

/-- The two-length form of a byte string that may be absent. -/
def writeOptionWithTwoLengths : Option (List UInt8) → Result (List UInt8)
  | some bytes => writeBytesWithTwoLengths bytes
  | none => .ok (writeUb4 0)

/-! ### Integers -/

section

variable {reader : TtcReader} {n width size : Nat} {message : String}

/-- The bytes are a number with a length byte, which is at most `size`. -/
def Sized (size n : Nat) (bytes : List UInt8) : Prop :=
  n = 0 ∧ bytes = [0] ∨
    ∃ width, 0 < width ∧ width ≤ size ∧ n < 256 ^ width ∧ bytes = UInt8.ofNat width :: toBe width n

theorem sized_writeUb2 (hn : n < 2 ^ 16) : Sized 2 n (writeUb2 n) := by
  unfold writeUb2
  split
  · exact Or.inl ⟨‹_›, rfl⟩
  · split
    · exact Or.inr ⟨1, by omega, by omega, by omega, rfl⟩
    · exact Or.inr ⟨2, by omega, by omega, by omega, rfl⟩

theorem Sized.mono {small : Nat} {bytes : List UInt8} (h : Sized small n bytes) (hle : small ≤ size) :
    Sized size n bytes := by
  rcases h with hzero | ⟨width, hpos, hwidth, hn, hbytes⟩
  · exact Or.inl hzero
  · exact Or.inr ⟨width, hpos, hwidth.trans hle, hn, hbytes⟩

theorem sized_writeUb4 (hn : n < 2 ^ 32) : Sized 4 n (writeUb4 n) := by
  unfold writeUb4
  split
  · exact (sized_writeUb2 (by omega)).mono (by decide)
  · exact Or.inr ⟨4, by omega, by omega, by omega, rfl⟩

theorem sized_writeUb8 (hn : n < 2 ^ 64) : Sized 8 n (writeUb8 n) := by
  unfold writeUb8
  split
  · exact (sized_writeUb4 (by omega)).mono (by decide)
  · exact Or.inr ⟨8, by omega, by omega, by omega, rfl⟩

theorem Sized.reads_readUnsigned {bytes : List UInt8} (h : Sized size n bytes) (hsize : size < 256)
    (hmax : bytes.length ≤ reader.limits.maxResponseBytes + 1) :
    Reads (reader.readUnsigned size message) bytes n := by
  rcases h with ⟨rfl, rfl⟩ | ⟨width, hpos, hwidth, hn, rfl⟩
  · exact (reads_readU8 0).bind (reads_pure 0)
  · rw [List.length_cons, length_toBe] at hmax
    have hbyte : (UInt8.ofNat width).toNat = width := by
      rw [UInt8.toNat_ofNat']
      omega
    have hne : UInt8.ofNat width ≠ 0 := by
      intro h
      rw [h] at hbyte
      exact absurd hbyte.symm (by simpa using hpos.ne')
    have hraw : Reads (ofBe <$> reader.readRaw width) (toBe width n) n := by
      have h := (reads_readRaw (length_toBe width n) (Nat.le_of_succ_le_succ hmax)).map ofBe
      rwa [ofBe_toBe_of_lt hn] at h
    refine (reads_readU8 (UInt8.ofNat width)).bind ?_
    rw [if_neg hne, hbyte, if_neg (by omega)]
    exact hraw

theorem reads_readUb4 (hn : n < 2 ^ 32) (hmax : (writeUb4 n).length ≤ reader.limits.maxResponseBytes + 1) :
    Reads reader.readUb4 (writeUb4 n) n :=
  (sized_writeUb4 hn).reads_readUnsigned (by decide) hmax

theorem reads_readUb2 (hn : n < 2 ^ 16) (hmax : (writeUb2 n).length ≤ reader.limits.maxResponseBytes + 1) :
    Reads reader.readUb2 (writeUb2 n) n := by
  by_cases hzero : n = 0
  · subst hzero
    exact (reads_readU8 0).bind (reads_pure 0)
  · by_cases hsmall : n ≤ 0xff
    · rw [writeUb2, if_neg hzero, if_pos hsmall]
      have hbyte : (UInt8.ofNat n).toNat = n := by
        rw [UInt8.toNat_ofNat']
        omega
      have h : Reads (UInt8.toNat <$> readU8) (toBe 1 n) n := by
        have h := (reads_readU8 (UInt8.ofNat n)).map UInt8.toNat
        rwa [hbyte] at h
      refine (reads_readU8 1).bind ?_
      exact h
    · rw [writeUb2, if_neg hzero, if_neg hsmall] at hmax ⊢
      refine (reads_readU8 2).bind ?_
      exact reads_readU16be hn (by simpa using hmax)

theorem reads_readSigned {byte : UInt8} (hlow : byte.toNat % 0x80 = width) (hpos : 0 < width) (hwidth : width ≤ size)
    (hn : n < 256 ^ width) (hmax : width ≤ reader.limits.maxResponseBytes) :
    Reads (reader.readSigned size message) (byte :: toBe width n)
      (if 0x80 ≤ byte.toNat then wrapInt (8 * size) (-wrapInt (8 * size) n) else wrapInt (8 * size) n) := by
  refine (reads_readU8 byte).bind ?_
  rw [hlow, if_neg hpos.ne', if_neg (by omega)]
  have hraw := (reads_readRaw (length_toBe width n) hmax).map fun bytes =>
    if 0x80 ≤ byte.toNat then wrapInt (8 * size) (-wrapInt (8 * size) (ofBe bytes)) else wrapInt (8 * size)
      (ofBe bytes)
  rw [ofBe_toBe_of_lt hn] at hraw
  exact hraw

/-- The magnitude with its sign is the number again, also for the lowest one. -/
private theorem wrapInt_natAbs {value : Int} (hlow : -2 ^ 31 ≤ value) (hhigh : value < 2 ^ 31) {byte : UInt8}
    (hsign : 0x80 ≤ byte.toNat ↔ value < 0) :
    (if 0x80 ≤ byte.toNat then wrapInt (8 * 4) (-wrapInt (8 * 4) value.natAbs) else wrapInt (8 * 4) value.natAbs) =
      value := by
  have hpow : 2 ^ (8 * 4) = 4294967296 := by norm_num
  unfold wrapInt
  by_cases hneg : value < 0
  · rw [if_pos (hsign.2 hneg), Int.bmod_def, Int.bmod_def]
    split <;> split <;> omega
  · rw [if_neg (fun h => hneg (hsign.1 h)), Int.bmod_def]
    split <;> omega

/-- The length byte keeps the length in its low bits and the sign in the high bit. -/
private theorem signedLength_spec {width : UInt8} (hwidth : width = 1 ∨ width = 2 ∨ width = 4) (value : Int) :
    (width ||| if value < 0 then 0x80 else 0).toNat % 0x80 = width.toNat ∧
      (0x80 ≤ (width ||| if value < 0 then 0x80 else 0).toNat ↔ value < 0) := by
  by_cases hneg : value < 0
  · simp only [hneg, if_true, iff_true]
    rcases hwidth with rfl | rfl | rfl <;> decide
  · simp only [hneg, if_false, iff_false]
    rcases hwidth with rfl | rfl | rfl <;> decide

theorem reads_readSb4 {value : Int} (hlow : -2 ^ 31 ≤ value) (hhigh : value < 2 ^ 31)
    (hmax : (writeSb4 value).length ≤ reader.limits.maxResponseBytes + 1) :
    Reads reader.readSb4 (writeSb4 value) value := by
  have hbytes (width : UInt8) (hwidth : width = 1 ∨ width = 2 ∨ width = 4) (hfits : value.natAbs < 256 ^ width.toNat)
      (hwrite : writeSb4 value = (width ||| if value < 0 then 0x80 else 0) :: toBe width.toNat value.natAbs) :
      Reads reader.readSb4 (writeSb4 value) value := by
    obtain ⟨hlength, hsign⟩ := signedLength_spec hwidth value
    have hrange : 0 < width.toNat ∧ width.toNat ≤ 4 := by
      rcases hwidth with rfl | rfl | rfl <;> decide
    rw [hwrite, List.length_cons, length_toBe] at hmax
    have h : Reads reader.readSb4 (_ :: toBe width.toNat value.natAbs) _ :=
      reads_readSigned hlength hrange.1 hrange.2 hfits (Nat.le_of_succ_le_succ hmax)
    rwa [wrapInt_natAbs hlow hhigh hsign, ← hwrite] at h
  by_cases hzero : value.natAbs = 0
  · rw [Int.natAbs_eq_zero.1 hzero]
    exact (reads_readU8 0).bind (reads_pure 0)
  · by_cases hone : value.natAbs ≤ 0xff
    · refine hbytes 1 (by decide) (show value.natAbs < 256 ^ 1 by omega) ?_
      rw [writeSb4, if_neg hzero, if_pos hone]
      rfl
    · by_cases htwo : value.natAbs ≤ 0xffff
      · refine hbytes 2 (by decide) (show value.natAbs < 256 ^ 2 by omega) ?_
        rw [writeSb4, if_neg hzero, if_neg hone, if_pos htwo]
        rfl
      · refine hbytes 4 (by decide) (show value.natAbs < 256 ^ 4 by omega) ?_
        rw [writeSb4, if_neg hzero, if_neg hone, if_neg htwo]
        rfl

end

/-! ### Byte strings -/

section

variable {reader : TtcReader} {value : List UInt8}

theorem length_writeUb4_le {n : Nat} (h : 0 < n) : (writeUb4 n).length ≤ n + 1 := by
  unfold writeUb4 writeUb2
  split
  · split
    · omega
    · split <;> simp <;> omega
  · simp
    omega

private theorem reads_chunkRound_end (out : List UInt8) (chunks : TtcReader.Chunks) :
    Reads (reader.chunkRound (out, chunks)) (writeUb4 0) (.inr out) := by
  have hub4 : Reads reader.readUb4 (writeUb4 0) 0 := (reads_readU8 0).bind (reads_pure 0)
  have hheader : Reads (reader.nextChunk chunks) (writeUb4 0) (0, chunks) := hub4.bind (reads_pure (0, chunks))
  exact hheader.bind (reads_pure (Sum.inr out))

private theorem reads_chunkRound_chunk {out piece : List UInt8} {chunks : TtcReader.Chunks} (hne : piece ≠ [])
    (hlen : piece.length ≤ 32767) (hcount : chunks.count + 1 ≤ reader.limits.maxLobChunks)
    (htotal : chunks.total + piece.length ≤ reader.limits.maxResponseBytes) :
    Reads (reader.chunkRound (out, chunks)) (writeUb4 piece.length ++ piece)
      (.inl (out ++ piece, ⟨chunks.count + 1, chunks.total + piece.length⟩)) := by
  have hpos : piece.length ≠ 0 := fun h => hne (List.eq_nil_of_length_eq_zero h)
  have hwidth := length_writeUb4_le (Nat.pos_of_ne_zero hpos)
  have hheader : Reads (reader.nextChunk chunks) (writeUb4 piece.length)
      (piece.length, ⟨chunks.count + 1, chunks.total + piece.length⟩) := by
    have hub4 : Reads reader.readUb4 (writeUb4 piece.length) piece.length := reads_readUb4 (by omega) (by omega)
    rw [← List.append_nil (writeUb4 piece.length)]
    refine hub4.bind ?_
    rw [if_neg hpos]
    exact (reads_lift (ProtocolLimits.check_eq_ok hcount)).after
      ((reads_lift (ProtocolLimits.check_eq_ok htotal)).after (reads_pure _))
  refine hheader.bind ?_
  dsimp only
  rw [if_neg hpos]
  exact (reads_readRaw rfl (by omega)).map fun chunk => Sum.inl (out ++ chunk, _)

/-- The loop reads the pieces one after the other, to the empty one at the end. -/
private theorem reads_chunks {pieces : List (List UInt8)}
    (hpieces : ∀ piece ∈ pieces, piece ≠ [] ∧ piece.length ≤ 32767) (out : List UInt8) (chunks : TtcReader.Chunks)
    (hcount : chunks.count + pieces.length ≤ reader.limits.maxLobChunks)
    (htotal : chunks.total + pieces.flatten.length ≤ reader.limits.maxResponseBytes) (e : ProtocolError) :
    Reads (iterate (reader.chunkRound) e (out, chunks))
      ((pieces.flatMap fun piece => writeUb4 piece.length ++ piece) ++ writeUb4 0) (out ++ pieces.flatten) := by
  induction pieces generalizing out chunks with
  | nil =>
    have h : Reads (iterate (reader.chunkRound) e (out, chunks)) (writeUb4 0) out :=
      fun t => bind_apply_ok (reads_chunkRound_end out chunks t)
    simpa using h
  | cons piece pieces ih =>
    obtain ⟨hne, hlen⟩ := hpieces piece (List.mem_cons_self ..)
    rw [List.length_cons] at hcount
    rw [List.flatten_cons, List.length_append] at htotal
    have hrest := ih (fun p hp => hpieces p (List.mem_cons_of_mem _ hp)) (out ++ piece)
      ⟨chunks.count + 1, chunks.total + piece.length⟩ (by dsimp only; omega) (by dsimp only; omega)
    rw [List.flatMap_cons, List.append_assoc, List.flatten_cons, ← List.append_assoc out]
    exact reads_iterate_next (reads_chunkRound_chunk hne hlen (by omega) (by omega)) (by simp [hne]) hrest

/-- The limits admit a byte string: its bytes and the chunks of its long form. -/
def AdmitsBytes (limits : ProtocolLimits) (value : List UInt8) : Prop :=
  value.length ≤ limits.maxResponseBytes ∧
    (tnsMaxShortLength < value.length → (value.length + 32766) / 32767 ≤ limits.maxLobChunks)

instance (limits : ProtocolLimits) (value : List UInt8) : Decidable (AdmitsBytes limits value) :=
  inferInstanceAs (Decidable (_ ∧ _))

/-- What the reader makes of a byte string. -/
def seenBytes (value : List UInt8) : Option (List UInt8) := if value = [] then none else some value

theorem reads_readBytes (h : AdmitsBytes reader.limits value) :
    Reads reader.readBytes (writeBytesWithLength value) (seenBytes value) := by
  unfold writeBytesWithLength seenBytes
  by_cases hshort : value.length ≤ tnsMaxShortLength
  · rw [if_pos hshort]
    unfold tnsMaxShortLength at hshort
    have hbyte : (UInt8.ofNat value.length).toNat = value.length := by
      rw [UInt8.toNat_ofNat']
      omega
    refine (reads_readU8 (UInt8.ofNat value.length)).bind ?_
    have hindicator (indicator : UInt8) (hlarge : 252 < indicator.toNat) : UInt8.ofNat value.length ≠ indicator := by
      intro heq
      rw [← heq, hbyte] at hlarge
      omega
    rw [if_neg (hindicator tnsLongLengthIndicator (by decide))]
    by_cases hnil : value = []
    · subst hnil
      exact reads_pure none
    · have hzero : UInt8.ofNat value.length ≠ 0 := by
        intro heq
        rw [heq] at hbyte
        exact hnil (List.eq_nil_of_length_eq_zero hbyte.symm)
      rw [if_neg (by simp [hzero, hindicator tnsNullLengthIndicator (by decide)]), if_neg hnil, hbyte]
      exact (reads_lift (ProtocolLimits.check_eq_ok h.1)).after ((reads_readRaw rfl h.1).map some)
  · have hlong : tnsMaxShortLength < value.length := by omega
    have hnil : value ≠ [] := by
      rintro rfl
      exact absurd hlong (by decide)
    rw [if_neg hshort, if_neg hnil]
    refine (reads_readU8 tnsLongLengthIndicator).bind ?_
    obtain ⟨hflatten, hpieces, hlength⟩ := toChunks_spec (by decide : 0 < 32767) value
    have hcount : 0 + (value.toChunks 32767).length ≤ reader.limits.maxLobChunks := by
      rw [hlength, Nat.zero_add]
      exact h.2 hlong
    have htotal : 0 + (value.toChunks 32767).flatten.length ≤ reader.limits.maxResponseBytes := by
      rw [hflatten, Nat.zero_add]
      exact h.1
    have hchunks := reads_chunks hpieces [] {} hcount htotal (.ttcDecode "truncated TTC payload")
    rw [hflatten, List.nil_append] at hchunks
    exact hchunks.map some

end

/-! ### Byte strings after their length -/

section

variable {reader : TtcReader}

/-- The byte string has the announced length, so the reader does not go back. -/
theorem reads_readAnnounced {value : List UInt8} (hplain : reader.plain = false) (hnil : value ≠ [])
    (h : AdmitsBytes reader.limits value) :
    Reads (reader.readAnnounced value.length) (writeBytesWithLength value) (some value) := by
  intro rest
  have hbytes := reads_readBytes h rest
  rw [seenBytes, if_neg hnil] at hbytes
  simp [TtcReader.readAnnounced, hbytes, hplain]

/-- The limits admit what there is of a byte string. -/
def AdmitsOption (limits : ProtocolLimits) (value : Option (List UInt8)) : Prop :=
  AdmitsBytes limits (value.getD [])

theorem reads_readBytesWithLength_zero : Reads reader.readBytesWithLength (writeUb4 0) none := by
  have hub4 : Reads reader.readUb4 (writeUb4 0) 0 := (reads_readU8 0).bind (reads_pure 0)
  exact hub4.bind ((reads_lift (ProtocolLimits.check_eq_ok (Nat.zero_le _))).after (reads_pure none))

theorem reads_readBytesWithLength {value : Option (List UInt8)} {bytes : List UInt8} (hplain : reader.plain = false)
    (h : AdmitsOption reader.limits value) (hwrite : writeOptionWithTwoLengths value = .ok bytes) :
    Reads reader.readBytesWithLength bytes (value.bind seenBytes) := by
  cases value with
  | none =>
    cases hwrite
    exact reads_readBytesWithLength_zero
  | some value =>
    by_cases hfits : value.length ≤ u32Max
    · rw [writeOptionWithTwoLengths, writeBytesWithTwoLengths, writeLength, if_pos hfits] at hwrite
      cases hwrite
      rw [Option.bind_some]
      by_cases hnil : value = []
      · subst hnil
        exact reads_readBytesWithLength_zero
      · have hpos : value.length ≠ 0 := fun hzero => hnil (List.eq_nil_of_length_eq_zero hzero)
        have hwidth := length_writeUb4_le (Nat.pos_of_ne_zero hpos)
        have hmax : value.length ≤ reader.limits.maxResponseBytes := h.1
        have hub4 : Reads reader.readUb4 (writeUb4 value.length) value.length :=
          reads_readUb4 (by unfold u32Max at hfits; omega) (by omega)
        rw [if_neg hnil, seenBytes, if_neg hnil]
        refine hub4.bind ((reads_lift (ProtocolLimits.check_eq_ok hmax)).after ?_)
        rw [if_neg hpos]
        exact reads_readAnnounced hplain hnil h
    · rw [writeOptionWithTwoLengths, writeBytesWithTwoLengths, writeLength, if_neg hfits] at hwrite
      cases hwrite

/-- Only a byte string whose length does not fit 32 bits is refused. -/
theorem writeOptionWithTwoLengths_isOk (value : Option (List UInt8)) :
    (∃ bytes, writeOptionWithTwoLengths value = .ok bytes) ↔ (value.getD []).length < 2 ^ 32 := by
  cases value with
  | none => exact iff_of_true ⟨_, rfl⟩ (by simp)
  | some value =>
    rw [writeOptionWithTwoLengths, writeBytesWithTwoLengths, writeLength, Option.getD_some]
    by_cases hfits : value.length ≤ u32Max
    · rw [if_pos hfits]
      exact iff_of_true ⟨_, rfl⟩ (by unfold u32Max at hfits; omega)
    · rw [if_neg hfits]
      exact iff_of_false nofun (by unfold u32Max at hfits; omega)

end

/-! ### Sequences of fields -/

/-- A primitive field of a message with its value. -/
inductive Field
  | ub2 (value : UInt16)
  | ub4 (value : UInt32)
  | ub8 (value : UInt64)
  | sb4 (value : Int32)
  | bytes (value : List UInt8)
  | bytesTwoLengths (value : Option (List UInt8))
deriving DecidableEq, Repr

/-- A primitive field without its value: what the reader of a message knows. -/
inductive FieldKind
  | ub2
  | ub4
  | ub8
  | sb4
  | bytes
  | bytesTwoLengths
deriving DecidableEq, Repr

/-- What a reader of a primitive field returns. -/
inductive FieldValue
  | unsigned (value : Nat)
  | signed (value : Int)
  | bytes (value : Option (List UInt8))
deriving DecidableEq, Repr

/-- The reader that matches the writer of a field. -/
def FieldKind.read (reader : TtcReader) : FieldKind → Read FieldValue
  | ub2 => .unsigned <$> reader.readUb2
  | ub4 => .unsigned <$> reader.readUb4
  | ub8 => .unsigned <$> reader.readUb8
  | sb4 => .signed <$> reader.readSb4
  | bytes => .bytes <$> reader.readBytes
  | bytesTwoLengths => .bytes <$> reader.readBytesWithLength

namespace Field

def write : Field → Result (List UInt8)
  | ub2 value => .ok (writeUb2 value.toNat)
  | ub4 value => .ok (writeUb4 value.toNat)
  | ub8 value => .ok (writeUb8 value.toNat)
  | sb4 value => .ok (writeSb4 value.toInt)
  | bytes value => .ok (writeBytesWithLength value)
  | bytesTwoLengths value => writeOptionWithTwoLengths value

def kind : Field → FieldKind
  | ub2 _ => .ub2
  | ub4 _ => .ub4
  | ub8 _ => .ub8
  | sb4 _ => .sb4
  | bytes _ => .bytes
  | bytesTwoLengths _ => .bytesTwoLengths

/-- The value that is to be read; an empty byte string is read as an absent one. -/
def seen : Field → FieldValue
  | ub2 value => .unsigned value.toNat
  | ub4 value => .unsigned value.toNat
  | ub8 value => .unsigned value.toNat
  | sb4 value => .signed value.toInt
  | bytes value => .bytes (seenBytes value)
  | bytesTwoLengths value => .bytes (value.bind seenBytes)

/-- The limits admit the size of the field: the bytes of a number after its length byte, and byte strings. -/
def Admitted (limits : ProtocolLimits) : Field → Prop
  | ub2 value => (writeUb2 value.toNat).length ≤ limits.maxResponseBytes + 1
  | ub4 value => (writeUb4 value.toNat).length ≤ limits.maxResponseBytes + 1
  | ub8 value => (writeUb8 value.toNat).length ≤ limits.maxResponseBytes + 1
  | sb4 value => (writeSb4 value.toInt).length ≤ limits.maxResponseBytes + 1
  | bytes value => AdmitsBytes limits value
  | bytesTwoLengths value => AdmitsOption limits value

/-- The length of a byte string after its length fits 32 bits. -/
def Fits : Field → Prop
  | bytesTwoLengths value => (value.getD []).length < 2 ^ 32
  | _ => True

instance (limits : ProtocolLimits) : (field : Field) → Decidable (field.Admitted limits)
  | ub2 _ | ub4 _ | ub8 _ | sb4 _ => inferInstanceAs (Decidable (_ ≤ _))
  | bytes value => inferInstanceAs (Decidable (AdmitsBytes limits value))
  | bytesTwoLengths value => inferInstanceAs (Decidable (AdmitsBytes limits (value.getD [])))

variable {reader : TtcReader} {field : Field}

theorem write_isOk (field : Field) : (∃ bytes, field.write = .ok bytes) ↔ field.Fits := by
  cases field with
  | bytesTwoLengths value => exact writeOptionWithTwoLengths_isOk value
  | _ => exact iff_of_true ⟨_, rfl⟩ trivial

theorem reads_read {bytes : List UInt8} (hplain : reader.plain = false) (h : field.Admitted reader.limits)
    (hwrite : field.write = .ok bytes) : Reads (field.kind.read reader) bytes field.seen := by
  cases field with
  | ub2 value =>
    cases hwrite
    exact (reads_readUb2 value.toNat_lt h).map FieldValue.unsigned
  | ub4 value =>
    cases hwrite
    exact (reads_readUb4 value.toNat_lt h).map FieldValue.unsigned
  | ub8 value =>
    cases hwrite
    exact ((sized_writeUb8 value.toNat_lt).reads_readUnsigned (by decide) h).map FieldValue.unsigned
  | sb4 value =>
    cases hwrite
    exact (reads_readSb4 value.le_toInt value.toInt_lt h).map FieldValue.signed
  | bytes value =>
    cases hwrite
    exact (reads_readBytes h).map FieldValue.bytes
  | bytesTwoLengths value => exact (reads_readBytesWithLength hplain h hwrite).map FieldValue.bytes

end Field

/-- The bytes of fields written one after another. -/
def writeFields (fields : List Field) : Result (List UInt8) := do
  let parts ← fields.mapM Field.write
  return parts.flatten

/-- Fields read one after another. -/
def readFields (reader : TtcReader) (kinds : List FieldKind) : Read (List FieldValue) :=
  each (FieldKind.read reader) kinds

theorem writeFields_isOk (fields : List Field) :
    (∃ bytes, writeFields fields = .ok bytes) ↔ ∀ field ∈ fields, field.Fits := by
  constructor
  · rintro ⟨bytes, hwrite⟩ field hfield
    obtain ⟨parts, hparts, -⟩ := except_bind_eq_ok.1 hwrite
    obtain ⟨part, -, hpart⟩ := exists_right_of_forall₂ (forall₂_of_mapM_eq_ok hparts) hfield
    exact field.write_isOk.1 ⟨part, hpart⟩
  · intro hfits
    obtain ⟨parts, hparts⟩ := exists_mapM_eq_ok fun field hfield => Field.write_isOk field |>.2 (hfits field hfield)
    exact ⟨parts.flatten, except_bind_eq_ok.2 ⟨parts, hparts, rfl⟩⟩

/-- Fields are read back as they were written, whatever follows them. -/
theorem readFields_writeFields (limits : ProtocolLimits) (fields : List Field)
    (h : ∀ field ∈ fields, field.Admitted limits) :
    ((∃ bytes, writeFields fields = .ok bytes) ↔ ∀ field ∈ fields, field.Fits) ∧
      ∀ bytes, writeFields fields = .ok bytes → ∀ rest,
        readFields { limits } (fields.map Field.kind) (bytes ++ rest) = .ok (fields.map Field.seen, rest) := by
  refine ⟨writeFields_isOk fields, fun bytes hwrite => ?_⟩
  obtain ⟨parts, hparts, hbytes⟩ := except_bind_eq_ok.1 hwrite
  cases hbytes
  refine reads_each ?_
  refine (forall₂_mem_left (forall₂_of_mapM_eq_ok hparts)).imp fun field part hpart => ?_
  exact Field.reads_read rfl (h field hpart.1) hpart.2

theorem readFields_writeFields_lowest :
    readFields { limits := .default } [.sb4, .bytes, .bytesTwoLengths, .bytesTwoLengths, .ub8]
        ([0x84, 0x80, 0, 0, 0, 0, 1, 2, 2, 7, 9, 0, 1, 0xff] ++ [0xfe]) =
      .ok ([.signed (-2 ^ 31), .bytes none, .bytes (some [7, 9]), .bytes none, .unsigned 255], [0xfe]) :=
  (readFields_writeFields .default
    [.sb4 Int32.minValue, .bytes [], .bytesTwoLengths (some [7, 9]), .bytesTwoLengths (some []), .ub8 255]
    (by decide)).2 _ (by decide) [0xfe]

end OracleThin.Ttc

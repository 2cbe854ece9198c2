import OracleThin.Ttc.Reader

/-!
# TTC fields on the prefixes of a response

What the reader of the driver does on a prefix of a field: it asks for more, except for a field after its length,
which it may also take as raw bytes up to the end of the prefix. Of a chunked field after its length the raw bytes may
even end before the prefix does, and what is left is read as the next fields; so these results are about responses
that the plain reader accepts.
-/

namespace OracleThin.Ttc

open Lib Lib.Parser Wire

variable {b r : List UInt8}

/-! ### What the driver does on a prefix -/

/-- On the prefixes of what the reader accepts, the driver does the same if it finds all that was consumed, and, if
`strict`, asks for more if it does not. -/
abbrev Follows (strict : Prop) (reader : TtcReader) {α : Type} (f : TtcReader → Read α) : Prop :=
  Tracks IsDecode strict (fun _ => False) (f reader) (f reader.driver)

/-- On the prefixes of what the plain reader accepts, the driver does the same or asks for more. -/
abbrev Firm (reader : TtcReader) {α : Type} (f : TtcReader → Read α) : Prop := Follows (reader.plain = true) reader f

/-- On the prefixes of what the plain reader accepts, the driver does the same, asks for more, or takes all that is
there. -/
abbrev Loose (reader : TtcReader) {α : Type} (f : TtcReader → Read α) : Prop :=
  Tracks IsDecode (reader.plain = true) (fun _ => True) (f reader) (f reader.driver)

/-- Loose, and on no input at all the driver asks for more or takes nothing. -/
structure Lenient (reader : TtcReader) {α : Type} (q p : Read α) : Prop where
  loose : Tracks IsDecode (reader.plain = true) (fun _ => True) q p
  nil : Starved IsDecode (fun _ => True) (p [])

theorem Lenient.pure {reader : TtcReader} {α : Type} (a : α) : Lenient reader (pure a) (pure a) :=
  ⟨tracks_pure a, Or.inr ⟨a, trivial, rfl⟩⟩

theorem Lenient.bind {reader : TtcReader} {α β : Type} {q p : Read α} {g f : α → Read β} (h : Lenient reader q p)
    (hf : ∀ a, Lenient reader (g a) (f a)) : Lenient reader (q >>= g) (p >>= f) :=
  ⟨h.loose.bind_lax (fun a => (hf a).loose) fun _ a _ => (hf a).nil, h.nil.bind fun a _ => (hf a).nil⟩

private theorem isDecode_ttcDecode (message : String) : IsDecode (.ttcDecode message) := ⟨message, rfl⟩

theorem starved_of_eq {α : Type} {lax : α → Prop} {x : Result (α × List UInt8)} {message : String}
    (h : x = .error (.ttcDecode message)) : Starved IsDecode lax x :=
  Or.inl ⟨_, h, message, rfl⟩

section

variable {reader : TtcReader} {strict : Prop}

instance follows_readU8 {lax : UInt8 → Prop} : Tracks IsDecode strict lax readU8 readU8 :=
  tracks_item (isDecode_ttcDecode _)

instance follows_readI8 {lax : Int → Prop} : Tracks IsDecode strict lax readI8 readI8 := by
  unfold readI8
  infer_instance

instance follows_readRaw (len : Nat) : Follows strict reader (·.readRaw len) :=
  (tracks_lift _).bind fun _ => tracks_take (isDecode_ttcDecode _) len

instance follows_skip (len : Nat) : Follows strict reader (·.skip len) := by
  unfold TtcReader.skip
  infer_instance

instance follows_readU16be : Follows strict reader (·.readU16be) := by
  unfold TtcReader.readU16be
  infer_instance

instance follows_readU16le : Follows strict reader (·.readU16le) := by
  unfold TtcReader.readU16le
  infer_instance

instance follows_readUb2 : Follows strict reader (·.readUb2) := by
  unfold TtcReader.readUb2
  infer_instance

instance follows_readUb4 : Follows strict reader (·.readUb4) := by
  unfold TtcReader.readUb4 TtcReader.readUnsigned
  infer_instance

instance follows_readUb8 : Follows strict reader (·.readUb8) := by
  unfold TtcReader.readUb8 TtcReader.readUnsigned
  infer_instance

instance follows_readSb4 : Follows strict reader (·.readSb4) := by
  unfold TtcReader.readSb4 TtcReader.readSigned
  infer_instance

instance follows_readSb8 : Follows strict reader (·.readSb8) := by
  unfold TtcReader.readSb8 TtcReader.readSigned
  infer_instance

instance follows_nextChunk (chunks : TtcReader.Chunks) : Follows strict reader (·.nextChunk chunks) := by
  unfold TtcReader.nextChunk
  infer_instance

theorem readU8_length_lt {x : UInt8} (h : readU8 b = .ok (x, r)) : r.length < b.length := by
  cases b with
  | nil => cases h
  | cons y ys => cases h; exact Nat.lt_succ_self _

private theorem readUb4_length_lt {n : Nat} (h : reader.readUb4 b = .ok (n, r)) : r.length < b.length := by
  obtain ⟨len, s, hlen, hrest⟩ := bind_eq_ok h
  refine Nat.lt_of_le_of_lt ?_ (readU8_length_lt hlen)
  split at hrest
  · cases hrest
    exact le_refl _
  · split at hrest
    · cases hrest
    · obtain ⟨bytes, s₁, hraw, hpure⟩ := bind_eq_ok hrest
      cases hpure
      exact (@follows_readRaw reader True _).length_le hraw

theorem readRaw_eq_ok {len : Nat} {b c r : List UInt8} (h : reader.readRaw len b = .ok (c, r)) :
    b = c ++ r ∧ c.length = len ∧ reader.limits.checkResponseBytes len = .ok () := by
  obtain ⟨_, s, hlift, htake⟩ := bind_eq_ok h
  obtain ⟨hcheck, hs⟩ := lift_eq_ok hlift
  rw [hs] at htake
  exact ⟨(take_eq_ok htake).1, (take_eq_ok htake).2, hcheck⟩

private theorem nextChunk_length_lt {chunks chunks' : TtcReader.Chunks} {n : Nat}
    (h : reader.nextChunk chunks b = .ok ((n, chunks'), r)) : r.length < b.length := by
  obtain ⟨len, s, hlen, hrest⟩ := bind_eq_ok h
  refine Nat.lt_of_le_of_lt ?_ (readUb4_length_lt hlen)
  split at hrest
  · cases hrest
    exact le_refl _
  · obtain ⟨_, s₁, h₁, hrest₁⟩ := bind_eq_ok hrest
    obtain ⟨_, s₂, h₂, hrest₂⟩ := bind_eq_ok hrest₁
    cases hrest₂
    rw [(lift_eq_ok h₂).2, (lift_eq_ok h₁).2]

instance follows_readChunks : Follows strict reader (·.readChunks) := by
  refine tracks_iterate (fun ⟨out, chunks⟩ => ?_) (fun ⟨out, chunks⟩ b s' r h => ?_) _
  · exact (follows_nextChunk chunks).bind fun ⟨len, chunks⟩ => by infer_instance
  · obtain ⟨⟨len, chunks'⟩, s, hnext, hrest⟩ := bind_eq_ok h
    have hlt := nextChunk_length_lt hnext
    dsimp only at hrest
    split at hrest
    · cases hrest
    · obtain ⟨chunk, s₁, hraw, hrest⟩ := bind_eq_ok hrest
      cases hrest
      obtain ⟨rfl, -⟩ := readRaw_eq_ok hraw
      rw [List.length_append] at hlt
      omega

theorem TtcReader.skipChunks_eq (reader : TtcReader) : reader.skipChunks = (fun _ => ()) <$> reader.readChunks := by
  refine iterate_map (σ := List UInt8 × Chunks) Prod.snd (fun _ => ()) ?_ ([], {})
  intro (out, chunks)
  simp only [chunkRound, map_bind, skip]
  congr 1
  funext (len, chunks)
  split <;> simp

instance follows_skipChunks : Follows strict reader (·.skipChunks) := by
  simp only [TtcReader.skipChunks_eq]
  infer_instance

instance follows_readBytes : Follows strict reader (·.readBytes) := by
  unfold TtcReader.readBytes
  infer_instance

instance follows_skipBytesField : Follows strict reader (·.skipBytesField) := by
  unfold TtcReader.skipBytesField
  infer_instance

/-! ### A field after its length -/

theorem extends_readRaw (len : Nat) : Extends (reader.readRaw len) :=
  (extends_lift _).bind fun _ => extends_take _ len

private theorem extends_readUb4 : Extends reader.readUb4 := by
  refine (extends_item _).bind fun len => ?_
  split
  · exact extends_pure _
  · split
    · exact nofun
    · exact (extends_readRaw _).bind fun _ => extends_pure _

private theorem extends_readChunks : Extends reader.readChunks := by
  refine extends_iterate (fun ⟨out, chunks⟩ => ?_) _
  refine Extends.bind (extends_readUb4.bind fun len => ?_) fun ⟨len, chunks⟩ => ?_
  · split
    · exact extends_pure _
    · exact (extends_lift _).bind fun _ => (extends_lift _).bind fun _ => extends_pure _
  · dsimp only
    split
    · exact extends_pure _
    · exact (extends_readRaw len).bind fun _ => extends_pure _

private theorem extends_readBytes : Extends reader.readBytes := by
  refine (extends_item _).bind fun len => ?_
  split
  · exact extends_readChunks.bind fun _ => extends_pure _
  · split
    · exact extends_pure _
    · exact (extends_lift _).bind fun _ => (extends_readRaw _).bind fun _ => extends_pure _

/-- Chunks take more bytes than they carry. -/
theorem readChunks_length_lt {b r bytes : List UInt8} (h : reader.readChunks b = .ok (bytes, r)) :
    bytes.length + r.length < b.length := by
  have hround : bytes.length + r.length < (([], {}) : List UInt8 × TtcReader.Chunks).1.length + b.length := by
    refine iterate_induct (P := fun s b bytes r => bytes.length + r.length < s.1.length + b.length)
      (fun ⟨out, chunks⟩ b bytes r hbody => ?_) (fun ⟨out, chunks⟩ b s' b' bytes r hbody ih => ?_) h
    · obtain ⟨⟨len, chunks'⟩, s, hnext, hrest⟩ := bind_eq_ok hbody
      have hlt := nextChunk_length_lt hnext
      dsimp only at hrest
      split at hrest
      · cases hrest
        exact Nat.add_lt_add_left hlt _
      · obtain ⟨_, _, _, hpure⟩ := bind_eq_ok hrest
        cases hpure
    · obtain ⟨⟨len, chunks'⟩, s, hnext, hrest⟩ := bind_eq_ok hbody
      have hlt := nextChunk_length_lt hnext
      dsimp only at hrest
      split at hrest
      · cases hrest
      · obtain ⟨chunk, s₁, hraw, hpure⟩ := bind_eq_ok hrest
        cases hpure
        obtain ⟨rfl, _, _⟩ := readRaw_eq_ok hraw
        simp only [List.length_append] at ih hlt ⊢
        omega
  simpa using hround

/-- A byte string takes more bytes than it carries; exactly one more in the short form. -/
theorem readBytes_length {b r bytes : List UInt8} (h : reader.readBytes b = .ok (some bytes, r)) :
    bytes.length + r.length < b.length ∧
      (b.head? ≠ some tnsLongLengthIndicator → b.length = bytes.length + r.length + 1) := by
  cases b with
  | nil => cases h
  | cons len xs =>
    obtain ⟨x, s, hx, hrest⟩ := bind_eq_ok h
    cases hx
    split at hrest
    · rename_i hlong
      obtain ⟨chunks, s₁, hchunks, hpure⟩ := bind_eq_ok hrest
      cases hpure
      have hlt := readChunks_length_lt hchunks
      exact ⟨by rw [List.length_cons]; omega, fun hne => absurd (by rw [hlong]; rfl) hne⟩
    · split at hrest
      · cases hrest
      · obtain ⟨_, s₁, hlift, hrest₁⟩ := bind_eq_ok hrest
        obtain ⟨raw, s₂, hraw, hpure⟩ := bind_eq_ok hrest₁
        cases hpure
        rw [(lift_eq_ok hlift).2] at hraw
        obtain ⟨rfl, _, _⟩ := readRaw_eq_ok hraw
        rw [List.length_cons, List.length_append]
        exact ⟨by omega, fun _ => rfl⟩

/-- The fields after their length: the driver takes the byte string if it has the announced length, else raw bytes. -/
theorem readAnnounced_driver (reader : TtcReader) (len : Nat) (b : List UInt8) :
    (∃ bytes r, reader.readBytes b = .ok (some bytes, r) ∧ bytes.length = len ∧
      reader.driver.readAnnounced len b = .ok (some bytes, r)) ∨
    (∀ bytes r, reader.readBytes b = .ok (some bytes, r) → bytes.length ≠ len) ∧
      reader.driver.readAnnounced len b = (some <$> reader.readRaw len) b := by
  have hsame : reader.driver.readBytes b = reader.readBytes b := rfl
  unfold TtcReader.readAnnounced
  rw [hsame]
  cases hread : reader.readBytes b with
  | error e => exact Or.inr ⟨nofun, rfl⟩
  | ok x =>
    obtain ⟨value, r⟩ := x
    cases value with
    | none =>
      refine Or.inr ⟨fun bytes r h => ?_, rfl⟩
      cases h
    | some bytes =>
      by_cases hlen : bytes.length = len
      · exact Or.inl ⟨bytes, r, rfl, hlen, by simp [hlen]⟩
      · refine Or.inr ⟨fun bytes' r' h => ?_, by simp [hlen]; rfl⟩
        cases h
        exact hlen

/-- What a plain reader accepts is in the short form or raw. -/
theorem readAnnounced_plain {len : Nat} {value : Option (List UInt8)}
    (h : reader.readAnnounced len b = .ok (value, r)) :
    (∃ bytes, value = some bytes ∧ reader.readBytes b = .ok (some bytes, r) ∧ bytes.length = len ∧
      (reader.plain = true → b.head? ≠ some tnsLongLengthIndicator)) ∨
    ∃ bytes, value = some bytes ∧ reader.readRaw len b = .ok (bytes, r) ∧
      ∀ bytes' r', reader.readBytes b = .ok (some bytes', r') → bytes'.length ≠ len := by
  unfold TtcReader.readAnnounced at h
  cases hread : reader.readBytes b with
  | error e =>
    rw [hread] at h
    obtain ⟨bytes, hvalue, hbytes⟩ := map_eq_ok h
    exact Or.inr ⟨bytes, hvalue, hbytes, nofun⟩
  | ok x =>
    obtain ⟨announced, s⟩ := x
    cases announced with
    | none =>
      rw [hread] at h
      obtain ⟨bytes, hvalue, hbytes⟩ := map_eq_ok h
      refine Or.inr ⟨bytes, hvalue, hbytes, fun bytes' r' h' => ?_⟩
      cases h'
    | some bytes =>
      rw [hread] at h
      dsimp only at h
      split at h
      · rename_i hlen
        split at h
        · cases h
        · rename_i hplain
          cases h
          exact Or.inl ⟨bytes, rfl, rfl, hlen, fun hp hhead => hplain ⟨hp, hhead⟩⟩
      · rename_i hlen
        obtain ⟨bytes', hvalue, hbytes⟩ := map_eq_ok h
        refine Or.inr ⟨bytes', hvalue, hbytes, fun bytes'' r' h' => ?_⟩
        cases h'
        exact hlen

private theorem loose_readAnnounced {len : Nat} (hlimit : reader.limits.checkResponseBytes len = .ok ()) :
    Loose reader (·.readAnnounced len) := by
  refine ⟨fun b value r h => ?_⟩
  beta_reduce at h ⊢
  have hshort : ∀ t : List UInt8, t.length ≤ len →
      Starved IsDecode (fun _ => True) ((some <$> reader.readRaw len) t) := by
    intro t ht
    have hraw : reader.readRaw len t = Parser.take (.ttcDecode "truncated TTC payload") len t := by
      unfold TtcReader.readRaw
      rw [hlimit]
      rfl
    rw [map_apply, hraw]
    by_cases heq : t.length = len
    · refine Or.inr ⟨some t, trivial, ?_⟩
      have htake := take_append (e := ProtocolError.ttcDecode "truncated TTC payload") heq []
      rw [List.append_nil] at htake
      rw [htake]
      rfl
    · rw [Parser.take, if_neg (by omega)]
      exact starved_of_eq rfl
  rcases readAnnounced_plain h with ⟨bytes, rfl, hread, hlen, hhead⟩ | ⟨bytes, rfl, hraw, hother⟩
  · obtain ⟨c, rfl, hsame, hcut⟩ := (@follows_readBytes reader _).follows b (some bytes) r hread
    refine ⟨c, rfl, fun s hs => ?_, fun hplain t ht hne => ?_⟩
    · rcases readAnnounced_driver reader len (c ++ s) with ⟨bytes', r', hread', _, hdriver⟩ | ⟨hother, _⟩
      · rw [hdriver, ← hread']
        exact hsame s hs
      · exact absurd hlen (hother bytes s (hsame s hs))
    · -- In the short form a field that is cut is at most as long as announced.
      have hlength := (readBytes_length hread).2 (hhead hplain)
      have hlt : t.length < c.length :=
        lt_of_le_of_ne ht.length_le fun heq => hne (ht.eq_of_length heq)
      rw [List.length_append] at hlength
      rcases readAnnounced_driver reader len t with ⟨bytes', r', hread', _, _⟩ | ⟨_, hdriver⟩
      · rcases hcut hplain t ht hne with ⟨e, he, _⟩ | ⟨a, hfalse, _⟩
        · cases he.symm.trans hread'
        · exact hfalse.elim
      · rw [hdriver]
        exact hshort t (by omega)
  · obtain ⟨rfl, hlen, _⟩ := readRaw_eq_ok hraw
    refine ⟨bytes, rfl, fun s hs => ?_, fun _ t ht hne => ?_⟩
    · rcases readAnnounced_driver reader len (bytes ++ s) with ⟨bytes', r', hread', hlen', _⟩ | ⟨_, hdriver⟩
      · -- The same byte string would have been there in the whole input.
        obtain ⟨z, rfl⟩ := hs
        have hwhole := extends_readBytes _ _ _ z hread'
        rw [List.append_assoc] at hwhole
        exact absurd hlen' (hother bytes' _ hwhole)
      · rw [hdriver, map_apply]
        obtain ⟨c, hc, hsame, _⟩ := (@follows_readRaw reader True len).follows _ _ _ hraw
        obtain rfl : bytes = c := List.append_cancel_right hc
        have hread' : reader.readRaw len (bytes ++ s) = .ok (bytes, s) := hsame s hs
        rw [hread']
        rfl
    · have hlt : t.length < bytes.length :=
        lt_of_le_of_ne ht.length_le fun heq => hne (ht.eq_of_length heq)
      rcases readAnnounced_driver reader len t with ⟨bytes', r', hread', hlen', _⟩ | ⟨_, hdriver⟩
      · have := (readBytes_length hread').1
        omega
      · rw [hdriver]
        exact hshort t (by omega)

theorem loose_readBytesWithLength : Loose reader (·.readBytesWithLength) := by
  refine follows_readUb4.bind fun len => tracks_lift_bind fun _ hlimit => ?_
  split
  · exact tracks_pure _
  · exact loose_readAnnounced hlimit

/-- Of the texts that are not valid only more input can make valid ones. -/
theorem starved_decodeUtf8 (value : Option (List UInt8)) :
    Starved IsDecode (fun _ => True) ((liftM (TtcReader.decodeUtf8 value) : Read (Option String)) []) := by
  cases value with
  | none => exact Or.inr ⟨none, trivial, rfl⟩
  | some bytes =>
    unfold TtcReader.decodeUtf8
    dsimp only
    split
    · exact Or.inr ⟨_, trivial, rfl⟩
    · exact starved_of_eq rfl

theorem loose_readStringWithLength : Loose reader (·.readStringWithLength) :=
  loose_readBytesWithLength.bind_lax (fun _ => tracks_lift _) fun _ value _ => starved_decodeUtf8 value

end

end OracleThin.Ttc

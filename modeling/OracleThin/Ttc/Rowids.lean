import OracleThin.Ttc.Column

/-!
# The texts of rowids

A physical rowid is written with 18 digits of base 64, a logical one as a star and the base 64 of its bytes without
padding. Either text gives back what it was written for.
-/

namespace OracleThin.Ttc

/-! ### Digits -/

theorem base64Char_inj : ∀ i j : Fin 64, base64Char i = base64Char j → i = j := by decide +kernel

private theorem base64Char_ne_star : ∀ i : Fin 64, base64Char i ≠ '*' := by decide +kernel

/-! ### Physical rowids -/

theorem length_encodeRowidComponent (value size : Nat) : (encodeRowidComponent value size).length = size := by
  induction size generalizing value with
  | zero => rfl
  | succ size ih => simp [encodeRowidComponent, ih]

private theorem star_notMem_encodeRowidComponent (value size : Nat) : '*' ∉ encodeRowidComponent value size := by
  induction size generalizing value with
  | zero => simp [encodeRowidComponent]
  | succ size ih =>
    have hlast := base64Char_ne_star ⟨value % 64, Nat.mod_lt _ (by decide)⟩
    simp [encodeRowidComponent, ih, hlast.symm]

private theorem encodeRowidComponent_inj {size value value' : Nat} (hlt : value < 64 ^ size)
    (hlt' : value' < 64 ^ size)
    (h : encodeRowidComponent value size = encodeRowidComponent value' size) : value = value' := by
  induction size generalizing value value' with
  | zero => omega
  | succ size ih =>
    obtain ⟨hrest, hlast⟩ := List.append_inj' h rfl
    have hdigit := base64Char_inj ⟨value % 64, Nat.mod_lt _ (by decide)⟩ ⟨value' % 64, Nat.mod_lt _ (by decide)⟩
      (List.head_eq_of_cons_eq hlast)
    have hvalue := ih (by omega) (by omega) hrest
    have hmod := Fin.mk.inj_iff.1 hdigit
    omega

/-! ### Logical rowids -/

theorem sextets : ∀ a : Fin 256, let byte := UInt8.ofNat a.val
    (byte >>> 2).toNat = a.val / 4 ∧ ((byte &&& 0x03) <<< 4).toNat = a.val % 4 * 16 ∧
      ((byte &&& 0xf0) >>> 4).toNat = a.val / 16 ∧ ((byte &&& 0x0f) <<< 2).toNat = a.val % 16 * 4 ∧
      ((byte &&& 0xc0) >>> 6).toNat = a.val / 64 ∧ (byte &&& 0x3f).toNat = a.val % 64 := by
  decide +kernel

/-- The four digits of three bytes. -/
theorem digits_eq (a b c : UInt8) : (a >>> 2).toNat = a.toNat / 4 ∧
    (((a &&& 0x03) <<< 4) ||| ((b &&& 0xf0) >>> 4)).toNat = a.toNat % 4 * 16 + b.toNat / 16 ∧
    (((b &&& 0x0f) <<< 2) ||| ((c &&& 0xc0) >>> 6)).toNat = b.toNat % 16 * 4 + c.toNat / 64 ∧
    (c &&& 0x3f).toNat = c.toNat % 64 := by
  have hbyte (x : UInt8) := sextets ⟨x.toNat, x.toNat_lt⟩
  simp only [UInt8.ofNat_toNat] at hbyte
  obtain ⟨h, h', -⟩ := hbyte a
  obtain ⟨-, -, h₂, h₃, -⟩ := hbyte b
  obtain ⟨-, -, -, -, h₄, h₅⟩ := hbyte c
  have hor {x y : Nat} (k : Nat) (hy : y < 2 ^ k) : x * 2 ^ k ||| y = x * 2 ^ k + y := by
    rw [← Nat.shiftLeft_eq, Nat.shiftLeft_add_eq_or_of_lt hy]
  have hb := b.toNat_lt
  have hc := c.toNat_lt
  refine ⟨h, ?_, ?_, h₅⟩
  · rw [UInt8.toNat_or, h', h₂]
    exact hor 4 (by omega)
  · rw [UInt8.toNat_or, h₃, h₄]
    exact hor 2 (by omega)

private theorem digits_inj {a b c a' b' c' : UInt8} (h : base64Char (a >>> 2).toNat = base64Char (a' >>> 2).toNat)
    (h₁ : base64Char (((a &&& 0x03) <<< 4) ||| ((b &&& 0xf0) >>> 4)).toNat =
      base64Char (((a' &&& 0x03) <<< 4) ||| ((b' &&& 0xf0) >>> 4)).toNat)
    (h₂ : base64Char (((b &&& 0x0f) <<< 2) ||| ((c &&& 0xc0) >>> 6)).toNat =
      base64Char (((b' &&& 0x0f) <<< 2) ||| ((c' &&& 0xc0) >>> 6)).toNat)
    (h₃ : base64Char (c &&& 0x3f).toNat = base64Char (c' &&& 0x3f).toNat) : a = a' ∧ b = b' ∧ c = c' := by
  have hinj {i j : Nat} (hi : i < 64) (hj : j < 64) (h : base64Char i = base64Char j) : i = j :=
    Fin.mk.inj_iff.1 (base64Char_inj ⟨i, hi⟩ ⟨j, hj⟩ h)
  have hlt (x : UInt8) := x.toNat_lt
  have hlts := And.intro (hlt a) (And.intro (hlt b) (hlt c))
  have hlts' := And.intro (hlt a') (And.intro (hlt b') (hlt c'))
  obtain ⟨e, e₁, e₂, e₃⟩ := digits_eq a b c
  obtain ⟨e', e₁', e₂', e₃'⟩ := digits_eq a' b' c'
  rw [e, e'] at h
  rw [e₁, e₁'] at h₁
  rw [e₂, e₂'] at h₂
  rw [e₃, e₃'] at h₃
  replace h := hinj (by omega) (by omega) h
  replace h₁ := hinj (by omega) (by omega) h₁
  replace h₂ := hinj (by omega) (by omega) h₂
  replace h₃ := hinj (by omega) (by omega) h₃
  simp only [← UInt8.toNat_inj]
  omega

private theorem encodeLogicalGroups_inj {bytes bytes' : List UInt8}
    (h : encodeLogicalGroups bytes = encodeLogicalGroups bytes') : bytes = bytes' := by
  -- The texts of two last groups with different numbers of bytes differ in length.
  induction bytes using encodeLogicalGroups.induct generalizing bytes'
  all_goals
    rcases bytes' with _ | ⟨a', _ | ⟨b', _ | ⟨c', rest'⟩⟩⟩
    all_goals simp only [encodeLogicalGroups, List.cons.injEq, reduceCtorEq, and_false, and_true] at h
  case case1.nil => rfl
  case case2.cons.nil a =>
    obtain ⟨rfl, -⟩ := @digits_inj a 0 0 a' 0 0 h.1 (by simpa using h.2) rfl rfl
    rfl
  case case3.cons.cons.nil a b =>
    obtain ⟨rfl, rfl, -⟩ := @digits_inj a b 0 a' b' 0 h.1 h.2.1 (by simpa using h.2.2) rfl
    rfl
  case case4.cons.cons.cons a b c rest ih =>
    obtain ⟨rfl, rfl, rfl⟩ := digits_inj h.1 h.2.1 h.2.2.1 h.2.2.2.1
    rw [ih h.2.2.2.2]

/-- The text of a rowid identifies it among all rowids, a logical one up to its first byte. -/
theorem rowid_text_inj :
    (∀ bytes bytes' : List UInt8, bytes ≠ [] → bytes' ≠ [] → bytes.head? = bytes'.head? →
      encodeLogicalUrowid bytes = encodeLogicalUrowid bytes' → bytes = bytes') ∧
    (∀ (rba rba' blockNum blockNum' : UInt32) (partitionId partitionId' slotNum slotNum' : UInt16),
      (encodePhysicalRowid rba.toNat partitionId.toNat blockNum.toNat slotNum.toNat).length = 18 ∧
      (encodePhysicalRowid rba.toNat partitionId.toNat blockNum.toNat slotNum.toNat =
          encodePhysicalRowid rba'.toNat partitionId'.toNat blockNum'.toNat slotNum'.toNat →
        rba = rba' ∧ partitionId = partitionId' ∧ blockNum = blockNum' ∧ slotNum = slotNum')) ∧
    ∀ (bytes : List UInt8) (rba blockNum : UInt32) (partitionId slotNum : UInt16),
      encodeLogicalUrowid bytes ≠ encodePhysicalRowid rba.toNat partitionId.toNat blockNum.toNat slotNum.toNat := by
  refine ⟨?_, ?_, ?_⟩
  · rintro (_ | ⟨first, rest⟩) (_ | ⟨first', rest'⟩) h h' hfirst htext
    · rfl
    · exact absurd rfl h
    · exact absurd rfl h'
    · obtain rfl := Option.some.inj hfirst
      have hrest := encodeLogicalGroups_inj (List.cons.inj (String.ofList_injective htext)).2
      exact congrArg (first :: ·) hrest
  · intro rba rba' blockNum blockNum' partitionId partitionId' slotNum slotNum'
    constructor
    · simp [encodePhysicalRowid, length_encodeRowidComponent]
    · intro h
      have h := String.ofList_injective h
      obtain ⟨h, hslot⟩ := List.append_inj' h (by simp only [length_encodeRowidComponent])
      obtain ⟨h, hblock⟩ := List.append_inj' h (by simp only [length_encodeRowidComponent])
      obtain ⟨hrba, hpartition⟩ := List.append_inj' h (by simp only [length_encodeRowidComponent])
      have hlt (value : UInt32) : value.toNat < 64 ^ 6 := lt_trans value.toNat_lt (by decide)
      have hlt' (value : UInt16) : value.toNat < 64 ^ 3 := lt_trans value.toNat_lt (by decide)
      exact ⟨UInt32.toNat_inj.1 (encodeRowidComponent_inj (hlt _) (hlt _) hrba),
        UInt16.toNat_inj.1 (encodeRowidComponent_inj (hlt' _) (hlt' _) hpartition),
        UInt32.toNat_inj.1 (encodeRowidComponent_inj (hlt _) (hlt _) hblock),
        UInt16.toNat_inj.1 (encodeRowidComponent_inj (hlt' _) (hlt' _) hslot)⟩
  · intro bytes rba blockNum partitionId slotNum h
    have hstar : '*' ∈ '*' :: encodeLogicalGroups (bytes.drop 1) := List.mem_cons_self
    rw [String.ofList_injective h] at hstar
    simp [star_notMem_encodeRowidComponent] at hstar

end OracleThin.Ttc

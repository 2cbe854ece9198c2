import OracleThin.Arrow.NumberText

/-!
# Exact numbers in Arrow columns

A NUMBER in a decimal column is stored as an integer without its point. The conversion writes as many digits behind
the point as the scale says; a negative scale, which stands for zeros before the point, is read as zero.
-/

namespace OracleThin.Arrow

open Lib Wire Ttc

/-- The text of a NUMBER: a sign, digits and, behind a point, more digits. -/
def IsNumberText (text : List Char) : Prop :=
  ∃ isNegative whole fraction, text = spelled isNegative whole fraction ∧ whole ≠ [] ∧ (∀ digit ∈ whole, digit < 10) ∧
    ∀ digit ∈ fraction, digit < 10

/-! ### Decimals -/

/-- The digits of an integer without its sign. -/
def decimalDigits (n : Nat) : List Nat := if n = 0 then [0] else (Nat.digits 10 n).reverse

def decimal128ToString (unscaled scale : Int) : List Char :=
  let sign := if unscaled < 0 then ['-'] else []
  let digits := (decimalDigits unscaled.natAbs).map digitChar
  -- The scale has eight bits, and the lowest one is its own negation.
  if scale ≤ 0 then sign ++ (digits ++ List.replicate ((-scale).bmod 256).toNat '0')
  else if digits.length ≤ scale then sign ++
    '0' :: '.' :: (List.replicate (scale - digits.length).toNat '0' ++ digits)
  else sign ++ (digits.take (digits.length - scale).toNat ++ '.' :: digits.drop (digits.length - scale).toNat)

private theorem decimalDigits_spec (n : Nat) :
    decimalDigits n ≠ [] ∧ (∀ digit ∈ decimalDigits n, digit < 10) ∧ decimal (decimalDigits n) = n := by
  unfold decimalDigits
  split
  · simp_all [decimal]
  · refine ⟨by simpa [Nat.digits_ne_nil_iff_ne_zero], fun digit hdigit => ?_, ?_⟩
    · exact Nat.digits_lt_base (by decide) (List.mem_reverse.1 hdigit)
    · rw [decimal_eq_ofDigits, List.reverse_reverse, Nat.ofDigits_digits]

private theorem decimal128ToString_eq {unscaled scale : Int} (hscale : 0 ≤ scale) :
    decimal128ToString unscaled scale = (if decide (unscaled < 0) then ['-'] else []) ++
      unsignedText (decimalDigits unscaled.natAbs) ((decimalDigits unscaled.natAbs).length - scale) := by
  have hpos := List.length_pos_iff.2 (decimalDigits_spec unscaled.natAbs).1
  unfold decimal128ToString unsignedText pointed
  generalize decimalDigits unscaled.natAbs = digits at hpos ⊢
  simp only [List.length_map, decide_eq_true_eq]
  generalize (if unscaled < 0 then ['-'] else []) = sign
  by_cases hzero : scale ≤ 0
  · obtain rfl : scale = 0 := le_antisymm hzero hscale
    rw [if_pos le_rfl, if_neg (by omega), if_neg (by omega)]
    simp
  rw [if_neg hzero]
  by_cases hshort : (digits.length : Int) ≤ scale
  · rw [if_pos hshort, if_pos (by omega), Int.neg_sub]
    rfl
  · have hend : ((digits.length : Int) - scale - digits.length).toNat = 0 := by omega
    rw [if_neg hshort, if_neg (by omega), if_pos (by omega), List.map_take, List.map_drop, hend, List.replicate_zero,
      List.append_nil]

/-- What is stored stands for the number at the scale that the conversion goes by. -/
theorem textValue_of_decimal128 {text : List Char} (htext : IsNumberText text) {scale value : Int}
    (h : decimal128FromNumberText text scale = some value) :
    textValue (textBytes (String.ofList text)) = some ((value : ℚ) * 10 ^ (-max scale 0)) := by
  obtain ⟨isNegative, whole, fraction, rfl, hne, hwhole, hfraction⟩ := htext
  have hsuffix := spelled_suffix fraction
  rw [spelled, decimal128FromNumberText_digits hwhole hfraction hsuffix (by simp [hne]) scale rfl] at h
  split at h
  · rename_i hfits
    have hten : ∀ digit ∈ whole ++ fraction, digit < 10 := fun digit hdigit =>
      (List.mem_append.1 hdigit).elim (hwhole digit) (hfraction digit)
    have hpower : (whole.length : Int) -
        (whole ++ fraction ++ List.replicate ((max scale 0).toNat - fraction.length) 0).length = -max scale 0 := by
      simp only [List.length_append, List.length_replicate]
      omega
    rw [spelled, ← Option.some.inj h, textValue_digitChars isNegative hten hsuffix,
      ← DecimalText.ofDigits_append_zeros _ _ _ ((max scale 0).toNat - fraction.length), DecimalText.ofDigits, hpower]
    cases isNegative <;> simp [signed]
  · cases h

/-- A number is stored exactly where the scale is not negative, and where it is zero or refused. -/
theorem decimal128_exact_at_iff {text : List Char} (htext : IsNumberText text) (scale : Int) :
    (∀ value, decimal128FromNumberText text scale = some value →
        textValue (textBytes (String.ofList text)) = some ((value : ℚ) * 10 ^ (-scale))) ↔
      0 ≤ scale ∨ textValue (textBytes (String.ofList text)) = some 0 ∨
        decimal128FromNumberText text scale = none := by
  constructor
  · intro hexact
    cases hstored : decimal128FromNumberText text scale with
    | none => exact .inr (.inr rfl)
    | some value =>
      have hvalue := textValue_of_decimal128 htext hstored
      have heq := Option.some.inj (hvalue.symm.trans (hexact value hstored))
      by_cases hscale : 0 ≤ scale
      · exact .inl hscale
      · have hpower : (1 : ℚ) < 10 ^ (-scale) := one_lt_zpow₀ (by norm_num) (by omega)
        rw [max_eq_right (by omega), neg_zero, zpow_zero, mul_one] at heq hvalue
        have hzero : (value : ℚ) = 0 := by
          by_contra hne
          exact hpower.ne (mul_left_cancel₀ hne ((mul_one _).trans heq))
        exact .inr (.inl (hvalue.trans (congrArg some hzero)))
  · rintro (hscale | hzero | hnone) value h
    · rw [textValue_of_decimal128 htext h, max_eq_left hscale]
    · have hvalue := Option.some.inj ((textValue_of_decimal128 htext h).symm.trans hzero)
      rw [mul_eq_zero, or_iff_left (zpow_ne_zero _ (by norm_num))] at hvalue
      rw [hzero, hvalue, zero_mul]
    · rw [hnone] at h
      cases h

/-- Decimals are exact at the scales that are not negative: what is stored is the number, and its text is read as it
was stored. A stored decimal has at most 38 digits. At the other scales a number is stored exactly only if it is
zero. -/
theorem decimal128_exact_iff (scale : Int) :
    (((∀ text value, IsNumberText text → decimal128FromNumberText text scale = some value →
        textValue (textBytes (String.ofList text)) = some ((value : ℚ) * 10 ^ (-scale))) ∧
      ∀ unscaled : Int, unscaled.natAbs < 10 ^ 38 →
        decimal128FromNumberText (decimal128ToString unscaled scale) scale = some unscaled) ↔ 0 ≤ scale) ∧
    ∀ text, IsNumberText text →
      ((∀ value, decimal128FromNumberText text scale = some value →
          textValue (textBytes (String.ofList text)) = some ((value : ℚ) * 10 ^ (-scale))) ↔
        0 ≤ scale ∨ textValue (textBytes (String.ofList text)) = some 0 ∨
          decimal128FromNumberText text scale = none) := by
  refine ⟨⟨?_, fun hscale => ⟨fun text value htext h => ?_, fun unscaled hsmall => ?_⟩⟩,
    fun text htext => decimal128_exact_at_iff htext scale⟩
  · rintro ⟨hexact, -⟩
    by_contra hneg
    have hone : decimal128FromNumberText ['1'] scale = some 1 := by
      unfold decimal128FromNumberText readDecimal128
      rw [show max scale 0 = 0 by omega]
      decide
    have htext : textValue (textBytes (String.ofList ['1'])) = some (DecimalText.ofDigits false [1] 1) :=
      @textValue_digitChars false [1] [] [] (by simp) (Or.inl ⟨rfl, rfl⟩)
    have hnumber : IsNumberText ['1'] := ⟨false, [1], [], rfl, by simp, by simp, by simp⟩
    rcases (decimal128_exact_at_iff hnumber scale).1 fun value => hexact _ value hnumber with h | h | h
    · exact hneg h
    · rw [htext] at h
      simp [DecimalText.ofDigits, decimal] at h
    · rw [hone] at h
      cases h
  · exact (decimal128_exact_at_iff htext scale).2 (.inl hscale) value h
  · have hmax : (max scale 0).toNat = scale.toNat := by omega
    obtain ⟨-, hten, hvalue⟩ := decimalDigits_spec unscaled.natAbs
    rw [decimal128ToString_eq hscale]
    obtain ⟨whole, fraction, suffix, m, htext, hsuffix, hne, -, hsplit, hpoint, -⟩ :=
      unsignedText_parts (decimalDigits unscaled.natAbs) ((decimalDigits unscaled.natAbs).length - scale)
    have hend :
        ((decimalDigits unscaled.natAbs).length - scale - (decimalDigits unscaled.natAbs).length).toNat = 0 := by
      omega
    rw [hend, List.replicate_zero, List.append_nil] at hsplit
    have hlen := congrArg List.length hsplit
    rw [List.length_append, List.length_append, List.length_replicate] at hlen
    have hlt : ∀ digit ∈ whole ++ fraction, digit < 10 := by
      rw [hsplit]
      simp only [List.mem_append, List.mem_replicate]
      rintro digit (⟨-, rfl⟩ | hdigit)
      · decide
      · exact hten digit hdigit
    have hplaces : scale.toNat - fraction.length = 0 := by omega
    have hsigned : signed (decide (unscaled < 0)) unscaled.natAbs = unscaled := by
      simp only [signed, decide_eq_true_eq]
      split <;> omega
    rw [htext, decimal128FromNumberText_digits (fun d hd => hlt d (List.mem_append_left _ hd))
      (fun d hd => hlt d (List.mem_append_right _ hd)) hsuffix (by simp [hne]) scale rfl, hmax, hplaces,
      List.replicate_zero, List.append_nil, hsplit, decimal_append, decimal_replicate_zero, hvalue, Nat.zero_mul,
      Nat.zero_add, if_pos ⟨by omega, hsmall⟩, hsigned]

theorem decimal128_negative_scale :
    decimal128FromNumberText "1200".toList (-2) = some 1200 ∧
      decimal128FromNumberText (decimal128ToString 12 (-2)) (-2) = some 1200 := by decide

end OracleThin.Arrow

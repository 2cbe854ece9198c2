import OracleThin.Ttc.NumberText

/-!
# The two NUMBER decoders

The owned decoder keeps a coefficient and a scale and writes their text on demand; the other decoder writes the digits
as it finds them. On what an encoder makes they agree. On other bytes they differ where a digit is no digit, where the
number is zero or has leading zeros, and where there are more digits than the buffer of the owned decoder holds.
-/

namespace OracleThin.Ttc

open Lib Wire

variable {rest : List UInt8}

/-! ### The owned decoder -/

/-- What the owned decoder makes of digits, as a text with its flag. -/
def ownedText (digits : List Nat) (isNegative : Bool) (point : Int) : List Char × Bool :=
  (if decimal digits < i128Bound then
    OracleNumber.fmtInlineInto (if isNegative then -(decimal digits : Int) else decimal digits)
      ((digits.take maxDigits).length - point)
  else formatNumberDigits (digits.take maxDigits) isNegative point,
  isIntegral (digits.take maxDigits) point)

/-- The text and the flag of a number as the owned decoder has it. -/
def decodeOwnedText (bytes : List UInt8) : Result (String × Bool) := do
  let number ← OracleNumber.fromWire bytes
  return (number.fmtInto, number.isInteger)

theorem decodeNumberPartsStack_of_long {bytes : List UInt8} (h : 21 < bytes.length) :
    decodeNumberPartsStack bytes = .error (.ttcDecode "encoded NUMBER too long") := by
  exact if_pos h

private theorem decodeNumberPartsStack_cons (first : UInt8) (hne : rest ≠ []) (hlen : rest.length ≤ 20) :
    decodeNumberPartsStack (first :: rest) =
      let digits := spelledDigits (mantissaValues first rest)
      let point := spelledPoint (mantissaValues first rest) (wirePoint first)
      .ok (.parts (digits.take maxDigits) (!isPositiveNumber first) point (isIntegral (digits.take maxDigits) point)
        (if decimal digits < i128Bound then
          some (if isPositiveNumber first then (decimal digits : Int) else -(decimal digits : Int))
        else none)) := by
  have hshort : ¬21 < (first :: rest).length := by
    rw [List.length_cons]
    omega
  have hrun : StackWalk.Follows
      (StackWalk.run (isPositiveNumber first) { decimalPointIndex := wirePoint first }
        (mantissaBytes (isPositiveNumber first) rest))
      (DigitWalk.run (isPositiveNumber first) ⟨[], wirePoint first⟩ (mantissaBytes (isPositiveNumber first) rest)) :=
    StackWalk.Follows.run ⟨rfl, rfl, rfl⟩ _
  rw [DigitWalk.run_eq, ← mantissaValues] at hrun
  obtain ⟨hdigits, hcoefficient, hpoint⟩ := hrun
  rw [foldlM_pushDigit] at hcoefficient
  rw [decodeNumberPartsStack, if_neg hshort]
  dsimp only
  rw [if_neg hne, ← isPositiveNumber, ← wirePoint, hdigits, hcoefficient, hpoint]
  by_cases hsmall : decimal (spelledDigits (mantissaValues first rest)) < i128Bound
  · rw [if_pos hsmall, if_pos hsmall]
    rfl
  · rw [if_neg hsmall, if_neg hsmall]
    rfl

/-- The scale is far from the bounds of its type. -/
theorem scale_bounds (first : UInt8) (hlen : rest.length ≤ 20) (digits : List Nat) :
    -2 ^ 15 ≤ ((digits.take maxDigits).length : Int) - spelledPoint (mantissaValues first rest) (wirePoint first) ∧
      ((digits.take maxDigits).length : Int) - spelledPoint (mantissaValues first rest) (wirePoint first) <
      2 ^ 15 := by
  have hcount : (mantissaValues first rest).countP (· / 10 = 10) ≤ 20 := by
    refine le_trans List.countP_le_length (le_trans ?_ hlen)
    rw [mantissaValues, List.length_map, mantissaBytes]
    split
    · rw [List.length_dropLast]
      omega
    · exact le_rfl
  have hbyte := (if isPositiveNumber first then first else ~~~first).toNat_lt
  have htake : (digits.take maxDigits).length ≤ 42 := List.length_take_le _ _
  rw [spelledPoint, wirePoint]
  generalize (if isPositiveNumber first then first else ~~~first).toNat = byte at hbyte ⊢
  split <;> omega

theorem decodeOwnedText_cons (first : UInt8) (hne : rest ≠ []) (hlen : rest.length ≤ 20) :
    decodeOwnedText (first :: rest) =
      let text := ownedText (spelledDigits (mantissaValues first rest)) (!isPositiveNumber first)
        (spelledPoint (mantissaValues first rest) (wirePoint first))
      .ok (String.ofList text.1, text.2) := by
  have hscale := scale_bounds first hlen (spelledDigits (mantissaValues first rest))
  rw [decodeOwnedText, OracleNumber.fromWire, decodeNumberPartsStack_cons first hne hlen, ownedText]
  generalize spelledDigits (mantissaValues first rest) = digits at hscale ⊢
  by_cases hsmall : decimal digits < i128Bound
  · simp only [if_pos hsmall, if_pos hscale, bind, Except.bind, pure, Except.pure, OracleNumber.fmtInto,
      OracleNumber.isInteger]
    cases isPositiveNumber first <;> rfl
  · simp only [if_neg hsmall]
    rfl

/-! ### Texts of digits -/

section

variable {digits : List Nat} {point : Int}

private theorem length_unsignedText (digits : List Nat) (point : Int) :
    (unsignedText digits point).length =
      if point ≤ 0 then 2 + (-point).toNat + digits.length
      else if point < digits.length then digits.length + 1 else point.toNat := by
  unfold unsignedText pointed
  by_cases hneg : point ≤ 0
  · simp [hneg]
    omega
  · by_cases hinside : point < digits.length
    · rw [if_neg hneg, if_neg hneg, if_pos ⟨by omega, hinside⟩, if_pos hinside]
      simp only [List.length_append, List.length_map, List.length_cons, List.length_take, List.length_drop,
        List.length_replicate]
      omega
    · rw [if_neg hneg, if_neg hneg, if_neg (fun h => hinside h.2), if_neg hinside]
      simp only [List.length_append, List.length_map, List.length_replicate]
      omega

private theorem mem_unsignedText {digit : Nat} (h : digit ∈ digits) :
    digitChar digit ∈ unsignedText digits point := by
  obtain ⟨whole, fraction, suffix, m, htext, hsuffix, -, -, hsplit, -⟩ := unsignedText_parts digits point
  have hmem : digit ∈ whole ++ fraction := by simp [hsplit, h]
  rw [htext]
  rcases List.mem_append.1 hmem with hmem | hmem
  · exact List.mem_append_left _ (List.mem_map_of_mem hmem)
  · rcases hsuffix with ⟨-, rfl⟩ | rfl
    · cases hmem
    · exact List.mem_append_right _ (List.mem_cons_of_mem _ (List.mem_map_of_mem hmem))

private theorem mem_of_mem_unsignedText {c : Char} (h : c ∈ unsignedText digits point) :
    c = '0' ∨ c = '.' ∨ ∃ digit ∈ digits, c = digitChar digit := by
  obtain ⟨whole, fraction, suffix, m, htext, hsuffix, -, -, hsplit, -⟩ := unsignedText_parts digits point
  have hcases : c = '.' ∨ ∃ digit ∈ whole ++ fraction, digitChar digit = c := by
    rw [htext] at h
    rcases hsuffix with ⟨rfl, rfl⟩ | rfl
    · simpa using Or.inr h
    · grind
  rcases hcases with h | ⟨digit, hdigit, rfl⟩
  · exact Or.inr (Or.inl h)
  · rcases mem_of_mem_zeros (hsplit ▸ hdigit) with rfl | hdigit
    · exact Or.inl rfl
    · exact Or.inr (Or.inr ⟨digit, hdigit, rfl⟩)

/-- In front of the first digit behind the point, zeros only move the point. -/
theorem unsignedText_zeros_append (hne : digits ≠ []) (hpoint : point ≤ 1) (n : Nat) :
    unsignedText (List.replicate n 0 ++ digits) point = unsignedText digits (point - n) := by
  have hzeros (n : Nat) : (List.replicate n 0).map digitChar = List.replicate n '0' := by
    rw [List.map_replicate]
    rfl
  cases n with
  | zero => simp
  | succ n =>
    rw [unsignedText.eq_def digits, if_pos (by push_cast; omega)]
    by_cases hneg : point ≤ 0
    · have hcount : (-(point - (n + 1 : Nat))).toNat = (-point).toNat + (n + 1) := by omega
      rw [unsignedText, if_pos hneg, List.map_append, hzeros, hcount, List.replicate_add (-point).toNat]
      simp only [List.cons_append, List.append_assoc]
    · have hone : point = 1 := by omega
      have hcount : (-(1 - (n + 1 : Nat) : Int)).toNat = n := by omega
      have hlen := List.length_pos_iff.2 hne
      subst hone
      rw [unsignedText_of_lt (by decide) (by simp; omega), hcount, List.replicate_succ]
      simp only [Int.toNat_one, List.cons_append, List.take_succ_cons, List.take_zero, List.drop_succ_cons,
        List.drop_zero,
        List.map_append, hzeros]
      rfl

/-- Digits that begin with zero, with the point behind the second one or later. -/
theorem unsignedText_zero_cons (digit : Nat) (digits : List Nat) (h : 2 ≤ point) :
    ∃ tail, unsignedText (0 :: digit :: digits) point = '0' :: digitChar digit :: tail := by
  by_cases hinside : point < (0 :: digit :: digits).length
  · obtain ⟨n, hn⟩ : ∃ n, point.toNat = n + 2 := ⟨point.toNat - 2, by omega⟩
    rw [unsignedText_of_lt (by omega) hinside, hn]
    exact ⟨_, rfl⟩
  · rw [unsignedText_of_le (by omega) (by omega)]
    exact ⟨_, rfl⟩

private theorem unsignedText_cons (digit : Nat) (digits : List Nat) (h : 0 < point) :
    ∃ tail, unsignedText (digit :: digits) point = digitChar digit :: tail := by
  by_cases hinside : point < (digit :: digits).length
  · obtain ⟨n, hn⟩ : ∃ n, point.toNat = n + 1 := ⟨point.toNat - 1, by omega⟩
    rw [unsignedText_of_lt h hinside, hn]
    exact ⟨_, rfl⟩
  · rw [unsignedText_of_le (by omega) h]
    exact ⟨_, rfl⟩

private theorem unsignedText_zero_front (digits : List Nat) (point : Int) :
    ∃ tail, unsignedText (0 :: digits) point = '0' :: tail := by
  by_cases hneg : point ≤ 0
  · rw [unsignedText, if_pos hneg]
    exact ⟨_, rfl⟩
  · exact unsignedText_cons 0 digits (not_le.1 hneg)

private theorem digitChar_cases {digit : Nat} (h : digit < 26) :
    digitChar digit ≠ '.' ∧ (digitChar digit = '0' ↔ digit = 0) ∧
      ∀ other < 10, digitChar digit = digitChar other → digit < 10 := by
  have hall : ∀ d : Fin 26, digitChar d ≠ '.' ∧ (digitChar d = '0' ↔ d.val = 0) ∧
      ∀ other : Fin 10, digitChar d = digitChar other → d.val < 10 := by decide
  obtain ⟨hpoint, hzero, hother⟩ := hall ⟨digit, h⟩
  exact ⟨hpoint, hzero, fun other hlt => hother ⟨other, hlt⟩⟩

end

/-! ### Where the texts agree -/

/-- The digits and the point are written alike by both decoders. -/
def WrittenAlike (digits : List Nat) (isNegative : Bool) (point : Int) : Prop :=
  if i128Bound ≤ decimal digits then
    digits.length ≤ maxDigits ∨ (digits.length ≤ point ∧ ∀ digit ∈ digits.drop maxDigits, digit = 0)
  else if decimal digits = 0 then ¬isNegative ∧ digits.length ≤ 1 ∧ point = 1
  else (∀ digit ∈ digits, digit < 10) ∧ digits.length ≤ maxDigits ∧ (digits.head? ≠ some 0 ∨ point ≤ 1)

section

variable {digits : List Nat} (hdigits : ∀ digit ∈ digits, digit < 26) (isNegative : Bool) (point : Int)

private theorem formatNumberDigits_inj {digits' : List Nat} {point' : Int} :
    formatNumberDigits digits isNegative point = formatNumberDigits digits' isNegative point' ↔
      unsignedText digits point = unsignedText digits' point' := by
  rw [formatNumberDigits_eq, formatNumberDigits_eq, List.append_cancel_left_eq]

include hdigits in
/-- More digits than the buffer holds. -/
theorem take_writtenAlike_iff :
    (formatNumberDigits (digits.take maxDigits) isNegative point, isIntegral (digits.take maxDigits) point) =
        (formatNumberDigits digits isNegative point, isIntegral digits point) ↔
      digits.length ≤ maxDigits ∨ (digits.length ≤ point ∧ ∀ digit ∈ digits.drop maxDigits, digit = 0) := by
  by_cases hshort : digits.length ≤ maxDigits
  · rw [List.take_of_length_le hshort]
    exact ⟨fun _ => Or.inl hshort, fun _ => rfl⟩
  have hsplit : digits.map digitChar =
      (digits.take maxDigits).map digitChar ++ (digits.drop maxDigits).map digitChar := by
    rw [← List.map_append, List.take_append_drop]
  have htake : (digits.take maxDigits).length = maxDigits := List.length_take_of_le (by omega)
  rw [Prod.mk.injEq, formatNumberDigits_inj]
  constructor
  · rintro ⟨htext, -⟩
    have hlen := congrArg List.length htext
    rw [length_unsignedText, length_unsignedText, htake] at hlen
    have hpoint : (digits.length : Int) ≤ point := by
      unfold maxDigits at *
      split at hlen
      · omega
      · split at hlen <;> split at hlen <;> omega
    rw [unsignedText_of_le (by omega) (by omega), unsignedText_of_le hpoint (by omega), hsplit, List.append_assoc,
      List.append_cancel_left_eq] at htext
    refine Or.inr ⟨hpoint, fun digit hdigit => ?_⟩
    have hzero : digitChar digit ∈ List.replicate (point - (digits.take maxDigits).length).toNat '0' := by
      rw [htext]
      exact List.mem_append_left _ (List.mem_map_of_mem hdigit)
    exact (digitChar_cases (hdigits digit (List.mem_of_mem_drop hdigit))).2.1.1 (List.eq_of_mem_replicate hzero)
  · rintro (h | ⟨hpoint, hzero⟩)
    · exact absurd h hshort
    · have hzeros : (digits.drop maxDigits).map digitChar = List.replicate (digits.length - maxDigits) '0' := by
        rw [List.eq_replicate_of_mem hzero, List.map_replicate, List.length_drop]
        rfl
      have hcount : (point - maxDigits).toNat = digits.length - maxDigits + (point - digits.length).toNat := by omega
      refine ⟨?_, ?_⟩
      · rw [unsignedText_of_le (by omega) (by omega), unsignedText_of_le hpoint (by omega), hsplit, hzeros, htake,
          hcount, List.replicate_add, List.append_assoc]
      · simp only [isIntegral, htake]
        congr 1
        simp only [eq_iff_iff]
        omega

private theorem zero_writtenAlike_iff (hzero : ∀ digit ∈ digits, digit = 0) :
    (['0'], isIntegral (digits.take maxDigits) point) =
        (formatNumberDigits digits isNegative point, isIntegral digits point) ↔
      ¬isNegative ∧ digits.length ≤ 1 ∧ point = 1 := by
  rw [Prod.mk.injEq]
  constructor
  · rintro ⟨htext, -⟩
    have hlen := congrArg List.length htext
    rw [formatNumberDigits_eq, List.length_append, length_unsignedText, List.length_singleton] at hlen
    cases isNegative with
    | true =>
      simp only [if_true, List.length_singleton] at hlen
      split at hlen
      · omega
      · split at hlen <;> omega
    | false =>
      simp only [Bool.false_eq_true, if_false, List.length_nil] at hlen
      split at hlen
      · omega
      · split at hlen
        · omega
        · exact ⟨by simp, by omega, by omega⟩
  · rintro ⟨hpos, hlen, rfl⟩
    rw [Bool.not_eq_true] at hpos
    subst hpos
    match digits, hlen with
    | [], _ => exact ⟨rfl, rfl⟩
    | [digit], _ =>
      rw [hzero digit (by simp)]
      exact ⟨rfl, rfl⟩

theorem fmtInlineInto_eq {n : Nat} (hn : n ≠ 0) (scale : Int) :
    OracleNumber.fmtInlineInto (if isNegative then -(n : Int) else n) scale =
      formatNumberDigits (Nat.digits 10 n).reverse isNegative ((Nat.digits 10 n).length - scale) := by
  have hsign : ((if isNegative then -(n : Int) else n) < 0) ↔ isNegative = true := by
    split
    · simp_all
      omega
    · simp_all
  have habs : (if isNegative then -(n : Int) else n).natAbs = n := by
    split <;> simp
  have hzero : (if isNegative then -(n : Int) else n) ≠ 0 := by
    split <;> simpa using hn
  rw [OracleNumber.fmtInlineInto, if_neg hzero, habs, formatNumberDigits_eq, unsignedText]
  simp only [hsign, List.length_reverse]
  congr 1
  split
  · rfl
  · rw [flatMap_zipIdx (by omega)]

/-- Digits are zeros and then the numerals of their number. -/
theorem exists_zeros_numerals (hten : ∀ digit ∈ digits, digit < 10) (hne : decimal digits ≠ 0) :
    ∃ n first rest, digits = List.replicate n 0 ++ first :: rest ∧ first ≠ 0 ∧
      (Nat.digits 10 (decimal digits)).reverse = first :: rest := by
  obtain ⟨n, hn⟩ := exists_zeros_append_dropZeros digits
  have hnum := digits_decimal (fun d hd => hten d (mem_of_mem_dropZeros hd)) (head_dropZeros digits)
  rw [decimal_dropZeros] at hnum
  cases hdrop : dropZeros digits with
  | nil =>
    rw [← decimal_dropZeros, hdrop] at hne
    exact absurd rfl hne
  | cons first rest =>
    have hfirst := head_dropZeros digits
    rw [hdrop] at hn hnum hfirst
    exact ⟨n, first, rest, hn, by simpa using hfirst, hnum⟩

include hdigits in
private theorem inline_writtenAlike_iff (hsmall : decimal digits < i128Bound) (hne : decimal digits ≠ 0) :
    (OracleNumber.fmtInlineInto (if isNegative then -(decimal digits : Int) else decimal digits)
        ((digits.take maxDigits).length - point), isIntegral (digits.take maxDigits) point) =
        (formatNumberDigits digits isNegative point, isIntegral digits point) ↔
      (∀ digit ∈ digits, digit < 10) ∧ digits.length ≤ maxDigits ∧ (digits.head? ≠ some 0 ∨ point ≤ 1) := by
  rw [fmtInlineInto_eq isNegative hne, Prod.mk.injEq, formatNumberDigits_inj]
  constructor
  · rintro ⟨htext, -⟩
    have hten : ∀ digit ∈ digits, digit < 10 := fun digit hdigit => by
      obtain ⟨hpoint, hzero, hother⟩ := digitChar_cases (hdigits digit hdigit)
      rcases mem_of_mem_unsignedText (htext ▸ mem_unsignedText hdigit) with h | h | ⟨other, hmem, h⟩
      · rw [hzero.1 h]
        decide
      · exact absurd h hpoint
      · exact hother other (Nat.digits_lt_base (by decide) (List.mem_reverse.1 hmem)) h
    refine ⟨hten, ?_⟩
    obtain ⟨n, first, rest, hzeros, hfirst, hnum⟩ := exists_zeros_numerals hten hne
    have hlen := congrArg List.length hnum
    rw [List.length_reverse] at hlen
    rw [hnum, hlen] at htext
    have hbuffer : (digits.take maxDigits).length ≤ maxDigits := List.length_take_le _ _
    have hlength := congrArg List.length hzeros
    rw [List.length_append, List.length_replicate] at hlength
    have hfirstChar : digitChar first ≠ '0' := fun h =>
      hfirst ((digitChar_cases (hdigits first (by simp [hzeros]))).2.1.1 h)
    generalize hq : ((first :: rest).length : Int) - ((digits.take maxDigits).length - point) = q at htext
    cases n with
    | zero =>
      have hshort : (Nat.digits 10 (decimal digits)).length ≤ 39 :=
        (Nat.digits_length_le_iff (by decide) _).2 (lt_trans hsmall (by decide))
      refine ⟨by unfold maxDigits; omega, Or.inl ?_⟩
      rw [hzeros]
      simpa using hfirst
    | succ n =>
      -- a text of the coefficient that begins with zero has a point behind it
      obtain ⟨second, tail, htail⟩ := List.exists_cons_of_ne_nil
        (show List.replicate n 0 ++ first :: rest ≠ [] by simp)
      have hcons : digits = 0 :: second :: tail := by
        rw [hzeros, List.replicate_succ, List.cons_append, htail]
      have hq : q ≤ 0 := by
        by_contra hpos
        obtain ⟨left, hleft⟩ := unsignedText_cons first rest (not_le.1 hpos)
        obtain ⟨right, hright⟩ := unsignedText_zero_front (second :: tail) point
        rw [hleft, hcons, hright] at htext
        exact hfirstChar (List.cons.inj htext).1
      have hpoint : point ≤ 1 := by
        by_contra hbig
        obtain ⟨right, hright⟩ := unsignedText_zero_cons second tail (not_le.1 hbig)
        rw [hcons, hright, unsignedText, if_pos hq] at htext
        have hsecond : second < 26 := hdigits second (by simp [hcons])
        exact (digitChar_cases hsecond).1 (List.cons.inj (List.cons.inj htext).2).1.symm
      rw [hzeros, unsignedText_zeros_append (List.cons_ne_nil _ _) hpoint] at htext
      have hlens := congrArg List.length htext
      rw [length_unsignedText, length_unsignedText, if_pos hq, if_pos (by push_cast; omega)] at hlens
      exact ⟨by omega, Or.inr hpoint⟩
  · rintro ⟨hten, hlen, hlead⟩
    obtain ⟨n, first, rest, hzeros, hfirst, hnum⟩ := exists_zeros_numerals hten hne
    have hnumlen := congrArg List.length hnum
    rw [List.length_reverse] at hnumlen
    have hlength := congrArg List.length hzeros
    rw [List.length_append, List.length_replicate] at hlength
    rw [List.take_of_length_le hlen, hnum, hnumlen]
    refine ⟨?_, rfl⟩
    have hpoint : ((first :: rest).length : Int) - (digits.length - point) = point - n := by omega
    rw [hpoint]
    rcases hlead with hlead | hlead
    · cases n with
      | zero => simp [hzeros]
      | succ n => exact absurd (by rw [hzeros]; rfl) hlead
    · rw [hzeros]
      exact (unsignedText_zeros_append (List.cons_ne_nil _ _) hlead n).symm

include hdigits in
theorem ownedText_eq_iff :
    ownedText digits isNegative point = (formatNumberDigits digits isNegative point, isIntegral digits point) ↔
      WrittenAlike digits isNegative point := by
  unfold ownedText WrittenAlike
  by_cases hsmall : decimal digits < i128Bound
  · rw [if_pos hsmall, if_neg (not_le.2 hsmall)]
    by_cases hzero : decimal digits = 0
    · rw [if_pos hzero, hzero]
      have htext (scale : Int) :
        OracleNumber.fmtInlineInto (if isNegative then -((0 : Nat) : Int) else (0 : Nat)) scale =
          ['0'] := by
        cases isNegative <;> rfl
      rw [htext]
      exact zero_writtenAlike_iff isNegative point (decimal_eq_zero_iff.1 hzero)
    · rw [if_neg hzero]
      exact inline_writtenAlike_iff hdigits isNegative point hsmall hzero
  · rw [if_neg hsmall, if_pos (not_lt.1 hsmall)]
    exact take_writtenAlike_iff hdigits isNegative point

end

/-! ### All byte strings -/

theorem spelledDigits_lt {first : UInt8} {digit : Nat}
    (h : digit ∈ spelledDigits (mantissaValues first rest)) : digit < 26 := by
  have hspelled : digit ∈ (mantissaValues first rest).flatMap spell := mem_of_mem_spelledDigits h
  obtain ⟨value, hvalue, hdigit⟩ := List.mem_flatMap.1 hspelled
  obtain ⟨byte, -, rfl⟩ := List.mem_map.1 hvalue
  have hbyte := byte.toNat_lt
  have hlt : mantissaValue (isPositiveNumber first) byte < 256 := by
    unfold mantissaValue
    split <;> omega
  unfold spell at hdigit
  split at hdigit <;> simp at hdigit <;> omega

theorem decodeNumberTextInto_cons (first : UInt8) (hne : rest ≠ []) (hlen : rest.length ≤ 20) :
    decodeNumberTextInto (first :: rest) =
      .ok (String.ofList (formatNumberDigits (spelledDigits (mantissaValues first rest)) (!isPositiveNumber first)
        (spelledPoint (mantissaValues first rest) (wirePoint first))),
        isIntegral (spelledDigits (mantissaValues first rest))
          (spelledPoint (mantissaValues first rest) (wirePoint first))) := by
  rw [decodeNumberTextInto, decodeNumberParts_cons first hne hlen]
  rfl

/-- Both fail, or both succeed with the same text and the same flag. -/
def SameOutcome : Result (String × Bool) → Result (String × Bool) → Prop
  | .ok owned, .ok written => owned = written
  | .error _, .error _ => True
  | _, _ => False

/-- The digits of the wire form are written alike. A wire form of one byte has a fixed text, and one that is empty or
too long has none. -/
def WireAlike : List UInt8 → Prop
  | [] => True
  | first :: rest =>
    rest = [] ∨ 20 < rest.length ∨
      WrittenAlike (spelledDigits (mantissaValues first rest)) (!isPositiveNumber first)
        (spelledPoint (mantissaValues first rest) (wirePoint first))

/-- The decoders agree exactly on the wire forms whose digits are written alike. -/
theorem sameOutcome_iff (bytes : List UInt8) :
    SameOutcome (decodeOwnedText bytes) (decodeNumberTextInto bytes) ↔ WireAlike bytes := by
  match bytes with
  | [] => exact ⟨fun _ => trivial, fun _ => trivial⟩
  | first :: rest =>
    by_cases hnil : rest = []
    · subst hnil
      refine ⟨fun _ => Or.inl rfl, fun _ => ?_⟩
      rfl
    by_cases hlong : 20 < rest.length
    · have hbytes : 21 < (first :: rest).length := by
        rw [List.length_cons]
        omega
      refine ⟨fun _ => Or.inr (Or.inl hlong), fun _ => ?_⟩
      rw [decodeOwnedText, OracleNumber.fromWire, decodeNumberPartsStack_of_long hbytes, decodeNumberTextInto,
        decodeNumberParts_of_long hbytes]
      exact trivial
    · rw [decodeOwnedText_cons first hnil (not_lt.1 hlong), decodeNumberTextInto_cons first hnil (not_lt.1 hlong)]
      have hlt : ∀ digit ∈ spelledDigits (mantissaValues first rest), digit < 26 := fun _ => spelledDigits_lt
      have hiff := ownedText_eq_iff hlt (!isPositiveNumber first)
        (spelledPoint (mantissaValues first rest) (wirePoint first))
      simp only [SameOutcome, WireAlike, hnil, hlong, false_or, ← hiff, Prod.ext_iff, String.ofList_inj]

/-- A zero whose exponent is not that of the units, and a byte that is no pair of digits. -/
theorem decodeOwnedText_ne :
    decodeOwnedText [0xc2, 0x01] = .ok ("0", true) ∧ decodeNumberTextInto [0xc2, 0x01] = .ok ("000", true) ∧
      decodeOwnedText [0xc1, 0xff] = .ok ("254", true) ∧ decodeNumberTextInto [0xc1, 0xff] = .ok ("I4", true) := by
  decide +kernel

end OracleThin.Ttc

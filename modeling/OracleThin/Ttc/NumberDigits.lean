import OracleThin.Ttc.Number

/-!
# The digits of a NUMBER

What the walk over the mantissa gives, said of the whole mantissa: the digits of all bytes in a row, without a zero at
the front and without a zero at the end, each being left out once at most. The walk of the owned decoder keeps the
first `maxDigits` of them and the number that all of them stand for.
-/

namespace OracleThin.Ttc

open Lib

/-! ### Spelling -/

/-- The value of a byte of the mantissa. -/
def mantissaValue (isPositive : Bool) (encoded : UInt8) : Nat :=
  if isPositive then encoded.toNat - 1 else 101 - encoded.toNat

/-- The digits for a value: those of a number below 110, and above that two digits of which the first one is none. -/
def spell (value : Nat) : List Nat := (if value / 10 = 10 then [1, 0] else [value / 10]) ++ [value % 10]

def dropFirstZero : List Nat → List Nat
  | 0 :: ds => ds
  | ds => ds

def dropLastZero (ds : List Nat) : List Nat := if ds.getLast? = some 0 then ds.dropLast else ds

/-- The digits of a mantissa. -/
def spelledDigits (values : List Nat) : List Nat := dropLastZero (dropFirstZero (values.flatMap spell))

/-- The position of the point in the digits of a mantissa, if it is at `point` in a mantissa of two digits a byte. -/
def spelledPoint (values : List Nat) (point : Int) : Int :=
  point + values.countP (· / 10 = 10) - if values.head?.any (· < 10) then 1 else 0

private theorem dropLastZero_append (ds : List Nat) {es : List Nat} (h : es ≠ []) :
    dropLastZero (ds ++ es) = ds ++ dropLastZero es := by
  unfold dropLastZero
  rw [List.getLast?_append_of_ne_nil _ h]
  split
  · rw [List.dropLast_append_of_ne_nil h]
  · rfl

theorem dropLastZero_append_singleton (ds : List Nat) (d : Nat) :
    dropLastZero (ds ++ [d]) = if d = 0 then ds else ds ++ [d] := by
  simp [dropLastZero]

theorem dropFirstZero_of_head {ds : List Nat} (h : ds.head? ≠ some 0) : dropFirstZero ds = ds := by
  cases ds with
  | nil => rfl
  | cons d ds =>
    cases d with
    | zero => simp at h
    | succ d => rfl

theorem mem_of_mem_spelledDigits {values : List Nat} {digit : Nat} (h : digit ∈ spelledDigits values) :
    digit ∈ values.flatMap spell := by
  have hlast {ds : List Nat} (h : digit ∈ dropLastZero ds) : digit ∈ ds := by
    unfold dropLastZero at h
    split at h
    · exact (List.dropLast_sublist _).mem h
    · exact h
  have hfirst {ds : List Nat} (h : digit ∈ dropFirstZero ds) : digit ∈ ds := by
    unfold dropFirstZero at h
    split at h
    · exact List.mem_cons_of_mem _ h
    · exact h
  exact hfirst (hlast h)

private theorem spell_ne_nil (value : Nat) : spell value ≠ [] := by simp [spell]

private theorem flatMap_spell_ne_nil {values : List Nat} (h : values ≠ []) : values.flatMap spell ≠ [] := by
  cases values with
  | nil => exact absurd rfl h
  | cons value values => simp [spell]

theorem dropFirstZero_append {ds : List Nat} (es : List Nat) (h : ds ≠ []) :
    dropFirstZero (ds ++ es) = dropFirstZero ds ++ es := by
  cases ds with
  | nil => exact absurd rfl h
  | cons d ds => cases d <;> rfl

/-- A value below ten is spelled with a zero. -/
theorem dropFirstZero_spell (value : Nat) :
    dropFirstZero (spell value) = if value < 10 then [value] else spell value := by
  by_cases h : value < 10
  · have hten : value / 10 = 0 := by omega
    have hone : value % 10 = value := by omega
    simp [spell, hten, hone, h, dropFirstZero]
  · rw [dropFirstZero_of_head, if_neg h]
    unfold spell
    split <;> simp_all

private theorem dropFirstZero_spell_ne_nil (value : Nat) : dropFirstZero (spell value) ≠ [] := by
  rw [dropFirstZero_spell]
  split
  · simp
  · exact spell_ne_nil value

/-! ### The walk -/

section

variable {isPositive : Bool}

/-- One byte behind other digits. -/
theorem DigitWalk.step_of_ne_nil {walk : DigitWalk} (h : walk.digits ≠ []) (isLast : Bool) (encoded : UInt8) :
    walk.step isPositive isLast encoded =
      ⟨walk.digits ++ (if isLast then dropLastZero (spell (mantissaValue isPositive encoded))
          else spell (mantissaValue isPositive encoded)),
        walk.decimalPointIndex + if mantissaValue isPositive encoded / 10 = 10 then 1 else 0⟩ := by
  unfold DigitWalk.step spell
  rw [dropLastZero_append_singleton, ← mantissaValue]
  generalize mantissaValue isPositive encoded = value
  by_cases hten : value / 10 = 10 <;> by_cases hone : value % 10 = 0 <;> cases isLast <;> simp [hten, hone, h]

theorem DigitWalk.run_of_ne_nil {walk : DigitWalk} (h : walk.digits ≠ []) (bytes : List UInt8) :
    DigitWalk.run isPositive walk bytes =
      ⟨walk.digits ++ dropLastZero ((bytes.map (mantissaValue isPositive)).flatMap spell),
        walk.decimalPointIndex + (bytes.map (mantissaValue isPositive)).countP (· / 10 = 10)⟩ := by
  induction bytes generalizing walk with
  | nil => simp [DigitWalk.run, dropLastZero]
  | cons encoded rest ih =>
    rw [DigitWalk.run, DigitWalk.step_of_ne_nil h]
    by_cases hrest : rest = []
    · simp [hrest, DigitWalk.run, List.countP_cons]
    · have hlast : rest.isEmpty = false := by simpa using hrest
      have hne : (rest.map (mantissaValue isPositive)).flatMap spell ≠ [] :=
        flatMap_spell_ne_nil (by simpa using hrest)
      rw [ih (by simp [h]), List.map_cons, List.flatMap_cons, dropLastZero_append _ hne, List.countP_cons, hlast]
      simp [add_assoc, add_comm]

/-- One byte in front of all digits. -/
theorem DigitWalk.step_of_nil (point : Int) (isLast : Bool) (encoded : UInt8) :
    (⟨[], point⟩ : DigitWalk).step isPositive isLast encoded =
      ⟨if isLast then dropLastZero (dropFirstZero (spell (mantissaValue isPositive encoded)))
          else dropFirstZero (spell (mantissaValue isPositive encoded)),
        spelledPoint [mantissaValue isPositive encoded] point⟩ := by
  unfold DigitWalk.step spelledPoint
  rw [← mantissaValue]
  generalize mantissaValue isPositive encoded = value
  rw [dropFirstZero_spell]
  by_cases hsmall : value < 10
  · have hten : value / 10 = 0 := by omega
    have hone : value % 10 = value := by omega
    have hlast : dropLastZero [value] = if value = 0 then [] else [value] := dropLastZero_append_singleton [] value
    by_cases hzero : value = 0
    · subst hzero
      cases isLast <;> simp [dropLastZero]
    · cases isLast <;> simp [hten, hone, hsmall, hzero, hlast]
  · have hten : value / 10 ≠ 0 := by omega
    rw [if_neg hsmall, spell, dropLastZero_append_singleton]
    by_cases hhundred : value / 10 = 10 <;> by_cases hone : value % 10 = 0 <;> cases isLast <;>
      simp [hhundred, hten, hone, hsmall]

/-- The walk over a whole mantissa. -/
theorem DigitWalk.run_eq (point : Int) (bytes : List UInt8) :
    DigitWalk.run isPositive ⟨[], point⟩ bytes =
      ⟨spelledDigits (bytes.map (mantissaValue isPositive)),
        spelledPoint (bytes.map (mantissaValue isPositive)) point⟩ := by
  cases bytes with
  | nil => simp [DigitWalk.run, spelledDigits, spelledPoint, dropFirstZero, dropLastZero]
  | cons encoded rest =>
    rw [DigitWalk.run, DigitWalk.step_of_nil]
    by_cases hrest : rest = []
    · simp [hrest, DigitWalk.run, spelledDigits]
    · have hlast : rest.isEmpty = false := by simpa using hrest
      have hne : (rest.map (mantissaValue isPositive)).flatMap spell ≠ [] :=
        flatMap_spell_ne_nil (by simpa using hrest)
      rw [hlast, if_neg Bool.false_ne_true, DigitWalk.run_of_ne_nil (dropFirstZero_spell_ne_nil _), spelledDigits,
        List.map_cons, List.flatMap_cons, dropFirstZero_append _ (spell_ne_nil _), dropLastZero_append _ hne]
      simp [spelledPoint, List.countP_cons]
      omega

end

/-! ### The wire form -/

/-- The sign of a NUMBER, by its first byte. -/
def isPositiveNumber (first : UInt8) : Bool := first &&& 0x80 ≠ 0

/-- The position of the point in the mantissa, by the first byte. -/
def wirePoint (first : UInt8) : Int := ((if isPositiveNumber first then first else ~~~first).toNat - 193) * 2 + 2

/-- The values of the mantissa. -/
def mantissaValues (first : UInt8) (rest : List UInt8) : List Nat :=
  (mantissaBytes (isPositiveNumber first) rest).map (mantissaValue (isPositiveNumber first))

theorem decodeNumberParts_of_long {bytes : List UInt8} (h : 21 < bytes.length) :
    decodeNumberParts bytes = .error (.ttcDecode "encoded NUMBER too long") := by
  exact if_pos h

theorem decodeNumberParts_cons (first : UInt8) {rest : List UInt8} (hne : rest ≠ []) (hlen : rest.length ≤ 20) :
    decodeNumberParts (first :: rest) =
      .ok (.parts (spelledDigits (mantissaValues first rest)) (!isPositiveNumber first)
        (spelledPoint (mantissaValues first rest) (wirePoint first))) := by
  have hshort : ¬21 < (first :: rest).length := by
    rw [List.length_cons]
    omega
  rw [decodeNumberParts, if_neg hshort]
  dsimp only
  rw [if_neg hne, ← isPositiveNumber, DigitWalk.run_eq]
  rfl

section

variable {isPositive : Bool}

/-! ### The walk of the owned decoder -/

/-- The bound of 128-bit integers. -/
def i128Bound : Nat := 2 ^ 127

private theorem checkedI128_natCast (n : Nat) : checkedI128 n = if n < i128Bound then some (n : Int) else none := by
  have hlow : (-2 ^ 127 : Int) ≤ n := le_trans (by decide) (Int.natCast_nonneg n)
  have hhigh : (n : Int) < 2 ^ 127 ↔ n < i128Bound := by
    exact_mod_cast Iff.rfl
  simp only [checkedI128, hlow, hhigh, true_and]

private theorem pushDigit_natCast (n digit : Nat) :
    pushDigit n digit = if 10 * n + digit < i128Bound then some ((10 * n + digit : Nat) : Int) else none := by
  have hmul : (n : Int) * 10 = (10 * n : Nat) := by
    rw [Nat.cast_mul, mul_comm]
    rfl
  rw [pushDigit, hmul, checkedI128_natCast]
  by_cases h : 10 * n < i128Bound
  · rw [if_pos h, Option.bind_eq_bind, Option.bind_some, ← Nat.cast_add, checkedI128_natCast]
  · rw [if_neg h, if_neg (by omega)]
    rfl

/-- The fold stops at the first digit that takes it beyond 128 bits, and no later digit would bring it back. -/
theorem foldlM_pushDigit (ds : List Nat) :
    ds.foldlM pushDigit 0 = if decimal ds < i128Bound then some (decimal ds : Int) else none := by
  induction ds using List.reverseRecOn with
  | nil => rfl
  | append_singleton ds d ih =>
    rw [List.foldlM_append, ih, decimal_append_singleton]
    by_cases h : decimal ds < i128Bound
    · rw [if_pos h, Option.bind_eq_bind, Option.bind_some, List.foldlM_cons, pushDigit_natCast]
      exact bind_pure _
    · rw [if_neg h, if_neg (by omega)]
      rfl

/-- The walk of the owned decoder beside the other one. -/
structure StackWalk.Follows (stack : StackWalk) (walk : DigitWalk) : Prop where
  digits : stack.digits = walk.digits.take maxDigits
  coefficient : stack.coefficient = walk.digits.foldlM pushDigit 0
  decimalPointIndex : stack.decimalPointIndex = walk.decimalPointIndex

theorem StackWalk.Follows.push {stack : StackWalk} {walk : DigitWalk} (h : stack.Follows walk) (digit : Nat) :
    (stack.push digit).Follows ⟨walk.digits ++ [digit], walk.decimalPointIndex⟩ := by
  obtain ⟨hdigits, hcoefficient, hpoint⟩ := h
  refine ⟨?_, ?_, hpoint⟩
  · show (if stack.digits.length < maxDigits then stack.digits ++ [digit] else stack.digits) = _
    rw [hdigits]
    by_cases hroom : walk.digits.length < maxDigits
    · rw [List.take_of_length_le hroom.le, if_pos hroom,
        List.take_of_length_le (by simpa using Nat.succ_le_of_lt hroom)]
    · rw [if_neg (by simpa using hroom), List.take_append_of_le_length (by omega)]
  · show stack.coefficient.bind (pushDigit · digit) = _
    rw [hcoefficient, List.foldlM_append]
    simp [List.foldlM_cons]

theorem StackWalk.Follows.step {stack : StackWalk} {walk : DigitWalk} (h : stack.Follows walk) (isLast : Bool)
    (encoded : UInt8) : (stack.step isPositive isLast encoded).Follows (walk.step isPositive isLast encoded) := by
  unfold StackWalk.step DigitWalk.step
  rw [← mantissaValue]
  generalize mantissaValue isPositive encoded = value
  have hnil : stack.digits = [] ↔ walk.digits = [] := by simp [h.digits, maxDigits]
  -- the first digit
  have hfirst : StackWalk.Follows
      (if value / 10 = 0 ∧ stack.digits = [] then { stack with decimalPointIndex := stack.decimalPointIndex - 1 }
        else if value / 10 = 10 then
          { (stack.push 1).push 0 with decimalPointIndex := stack.decimalPointIndex + 1 }
        else stack.push (value / 10))
      (if value / 10 = 0 ∧ walk.digits = [] then { walk with decimalPointIndex := walk.decimalPointIndex - 1 }
        else if value / 10 = 10 then ⟨walk.digits ++ [1, 0], walk.decimalPointIndex + 1⟩
        else { walk with digits := walk.digits ++ [value / 10] }) := by
    simp only [hnil]
    split
    · exact ⟨h.digits, h.coefficient, by rw [h.decimalPointIndex]⟩
    · split
      · obtain ⟨hdigits, hcoefficient, hpoint⟩ := (h.push 1).push 0
        rw [List.append_assoc] at hdigits hcoefficient
        exact ⟨hdigits, hcoefficient, by rw [h.decimalPointIndex]⟩
      · exact h.push (value / 10)
  dsimp only
  split
  · exact hfirst.push (value % 10)
  · exact hfirst

theorem StackWalk.Follows.run {stack : StackWalk} {walk : DigitWalk} (h : stack.Follows walk) (bytes : List UInt8) :
    (stack.run isPositive bytes).Follows (walk.run isPositive bytes) := by
  induction bytes generalizing stack walk with
  | nil => exact h
  | cons encoded rest ih => exact ih (h.step _ encoded)

end

end OracleThin.Ttc

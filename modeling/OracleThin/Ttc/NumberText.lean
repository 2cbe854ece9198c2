import OracleThin.Ttc.NumberDigits

/-!
# The number that a text denotes

A decimal text has a sign, the digits before and behind the point and an exponent. `readDecimalText` takes it apart
and `DecimalText.value` is the rational number it stands for; a text without digits stands for zero. The parser of the
NUMBER encoder finds the same parts, with the leading zeros dropped.
-/

namespace OracleThin.Ttc

open Lib Wire

/-! ### Decimal texts -/

structure DecimalText where
  isNegative : Bool
  whole : List Nat
  fraction : List Nat
  exponent : Int
deriving DecidableEq, Repr

namespace DecimalText

/-- The digits from the first one that is not zero to the last one that is not zero. -/
def significant (text : DecimalText) : List Nat := trimZeros (dropZeros (text.whole ++ text.fraction))

/-- The position of the point, counted from the first digit that is not zero. -/
def pointIndex (text : DecimalText) : Int :=
  (dropZeros (text.whole ++ text.fraction)).length - text.fraction.length + text.exponent

/-- The number that digits stand for when the point is at an index. -/
def ofDigits (isNegative : Bool) (digits : List Nat) (pointIndex : Int) : ℚ :=
  (if isNegative then -1 else 1) * decimal digits * 10 ^ (pointIndex - digits.length)

def value (text : DecimalText) : ℚ :=
  ofDigits text.isNegative (text.whole ++ text.fraction) (text.whole.length + text.exponent)

end DecimalText

/-! ### Zeros at the front and at the end -/

namespace DecimalText

variable (isNegative : Bool) (digits : List Nat) (point : Int)

theorem ofDigits_append_zeros (n : Nat) :
    ofDigits isNegative (digits ++ List.replicate n 0) point = ofDigits isNegative digits point := by
  have hpow : (10 : ℚ) ^ (point - (digits ++ List.replicate n 0).length : Int) * 10 ^ n =
      10 ^ (point - digits.length) := by
    rw [← zpow_natCast, ← zpow_add₀ (by norm_num), List.length_append, List.length_replicate]
    congr 1
    push_cast
    ring
  unfold ofDigits
  rw [decimal_append, decimal_replicate_zero, List.length_replicate, ← hpow]
  push_cast
  ring

theorem ofDigits_zeros_append (n : Nat) :
    ofDigits isNegative (List.replicate n 0 ++ digits) point = ofDigits isNegative digits (point - n) := by
  unfold ofDigits
  rw [decimal_append, decimal_replicate_zero, Nat.zero_mul, Nat.zero_add]
  congr 2
  simp
  ring

variable {isNegative digits point} in
theorem ofDigits_eq_zero (h : ∀ digit ∈ digits, digit = 0) : ofDigits isNegative digits point = 0 := by
  rw [ofDigits, decimal_eq_zero_iff.2 h]
  simp

end DecimalText

theorem trimZeros_append_zeros (digits : List Nat) :
    ∃ n, digits = trimZeros digits ++ List.replicate n 0 := by
  obtain ⟨n, hn⟩ := exists_zeros_append_dropZeros digits.reverse
  refine ⟨n, ?_⟩
  rw [trimZeros, ← dropZeros, ← List.reverse_replicate, ← List.reverse_append, ← hn, List.reverse_reverse]

theorem DecimalText.value_eq (text : DecimalText) :
    text.value = ofDigits text.isNegative text.significant text.pointIndex := by
  obtain ⟨m, hm⟩ := exists_zeros_append_dropZeros (text.whole ++ text.fraction)
  obtain ⟨n, hn⟩ := trimZeros_append_zeros (dropZeros (text.whole ++ text.fraction))
  have hlen := congrArg List.length hm
  have hpoint : text.pointIndex = text.whole.length + text.exponent - m := by
    simp only [List.length_append, List.length_replicate] at hlen
    unfold pointIndex
    omega
  rw [value, hm, ofDigits_zeros_append, significant, hpoint]
  nth_rewrite 1 [hn]
  exact ofDigits_append_zeros _ _ _ n

/-! ### Reading a text -/

/-- The digits at the front of a text. -/
def spanDigits : List UInt8 → List Nat × List UInt8
  | [] => ([], [])
  | byte :: rest =>
    match digitOf byte with
    | some digit => (digit :: (spanDigits rest).1, (spanDigits rest).2)
    | none => ([], byte :: rest)

/-- The sign of an exponent and what follows it. -/
def exponentSign : List UInt8 → Bool × List UInt8
  | 45 :: rest => (true, rest)
  | 43 :: rest => (false, rest)
  | rest => (false, rest)

/-- The exponent of a text, behind its mark. -/
def readExponent (text : List UInt8) : Option Int :=
  let digits := spanDigits (exponentSign text).2
  if digits.1 ≠ [] ∧ digits.2 = [] then
    some (if (exponentSign text).1 then -(decimal digits.1 : Int) else decimal digits.1)
  else none

/-- The digits behind the point and what follows them. -/
def spanFraction : List UInt8 → List Nat × List UInt8
  | 46 :: rest => spanDigits rest
  | rest => ([], rest)

/-- The parts of a text behind its sign. -/
def readUnsigned (isNegative : Bool) (text : List UInt8) : Option DecimalText :=
  let whole := spanDigits text
  let fraction := spanFraction whole.2
  match fraction.2 with
  | [] => some { isNegative, whole := whole.1, fraction := fraction.1, exponent := 0 }
  | byte :: rest =>
    if isExponentMark byte then
      (readExponent rest).map fun exponent => { isNegative, whole := whole.1, fraction := fraction.1, exponent }
    else none

def readDecimalText : List UInt8 → Option DecimalText
  | 45 :: rest => readUnsigned true rest
  | text => readUnsigned false text

/-- The number that a text denotes. -/
def textValue (text : List UInt8) : Option ℚ := (readDecimalText text).map DecimalText.value

example : readDecimalText "-12.50e-3".toUTF8.data.toList =
    some { isNegative := true, whole := [1, 2], fraction := [5, 0], exponent := -3 } := by decide

/-! ### The parser of the encoder -/

variable {digits digits' : List Nat} {text rest : List UInt8} {digit : Nat} {byte : UInt8} {point : Int}

private theorem digitOf_of_mark (h : (byte == 46 || isExponentMark byte) = true) : digitOf byte = none := by
  obtain ⟨⟨n⟩⟩ := byte
  revert n
  decide +kernel

private theorem digitOf_lt (h : digitOf byte = some digit) : digit < 10 := by
  unfold digitOf at h
  split at h
  · rename_i hrange
    have hhigh := UInt8.le_iff_toNat_le.1 hrange.2
    cases h
    have hbound : (57 : UInt8).toNat = 57 := rfl
    omega
  · cases h

theorem spanDigits_lt (h : digit ∈ (spanDigits text).1) : digit < 10 := by
  induction text with
  | nil => cases h
  | cons byte text ih =>
    rw [spanDigits] at h
    split at h
    · rename_i first hfirst
      rcases List.mem_cons.1 h with rfl | h
      · exact digitOf_lt hfirst
      · exact ih h
    · cases h

private theorem spanDigits_cons (h : digitOf byte = some digit) (text : List UInt8) :
    spanDigits (byte :: text) = (digit :: (spanDigits text).1, (spanDigits text).2) := by
  rw [spanDigits, h]

private theorem spanDigits_of_none (h : digitOf byte = none) (text : List UInt8) :
    spanDigits (byte :: text) = ([], byte :: text) := by
  rw [spanDigits, h]

private theorem head_append_digit (hlead : digits.head? ≠ some 0) (h : ¬(digit = 0 ∧ digits = [])) :
    (digits ++ [digit]).head? ≠ some 0 := by
  cases digits with
  | nil => simpa using h
  | cons first digits => simpa using hlead

/-- The digits before the point, without leading zeros. -/
theorem integerDigits_eq (hlead : digits.head? ≠ some 0) :
    integerDigits digits text =
      if (spanDigits text).2.head?.all (fun byte => byte == 46 || isExponentMark byte) then
        .ok (dropZeros (digits ++ (spanDigits text).1), (spanDigits text).2)
      else .error (.ttcDecode "invalid NUMBER bind") := by
  induction text generalizing digits with
  | nil => simp [integerDigits, spanDigits, dropZeros_of_head hlead]
  | cons byte text ih =>
    rw [integerDigits]
    by_cases hmark : (byte == 46 || isExponentMark byte) = true
    · simp [spanDigits_of_none (digitOf_of_mark hmark), dropZeros_of_head hlead, hmark]
    rw [if_neg hmark]
    cases hdigit : digitOf byte with
    | none => simp [spanDigits_of_none hdigit, hmark]
    | some digit =>
      rw [spanDigits_cons hdigit]
      dsimp only
      by_cases hzero : digit = 0 ∧ digits = []
      · obtain ⟨rfl, rfl⟩ := hzero
        rw [if_pos ⟨rfl, rfl⟩, ih hlead, List.nil_append, List.nil_append, dropZeros_zero_cons]
      · rw [if_neg hzero, ih (head_append_digit hlead hzero), List.append_assoc, List.singleton_append]

/-- The digits behind the point. Every one of them moves the point by one from the end of the digits, be it kept or
dropped as a leading zero. -/
theorem fractionDigits_eq (hlead : digits.head? ≠ some 0) :
    fractionDigits digits point text =
      if (spanDigits text).2.head?.all isExponentMark then
        .ok (dropZeros (digits ++ (spanDigits text).1),
          point - (digits ++ (spanDigits text).1).length + (dropZeros (digits ++ (spanDigits text).1)).length,
          (spanDigits text).2)
      else .error (.ttcDecode "invalid NUMBER bind") := by
  induction text generalizing digits point with
  | nil => simp [fractionDigits, spanDigits, dropZeros_of_head hlead]
  | cons byte text ih =>
    rw [fractionDigits]
    by_cases hmark : isExponentMark byte = true
    · have hnone : digitOf byte = none := digitOf_of_mark (by simp [hmark])
      simp [spanDigits_of_none hnone, dropZeros_of_head hlead, hmark]
    rw [if_neg hmark]
    cases hdigit : digitOf byte with
    | none => simp [spanDigits_of_none hdigit, hmark]
    | some digit =>
      rw [spanDigits_cons hdigit]
      dsimp only
      by_cases hzero : digit = 0 ∧ digits = []
      · obtain ⟨rfl, rfl⟩ := hzero
        rw [if_pos ⟨rfl, rfl⟩, ih hlead, List.nil_append, List.nil_append, dropZeros_zero_cons, List.length_cons]
        push_cast
        ring_nf
      · rw [if_neg hzero, ih (head_append_digit hlead hzero), List.append_assoc, List.singleton_append]

private theorem mapM_digitOf :
    text.mapM digitOf = if (spanDigits text).2 = [] then some (spanDigits text).1 else none := by
  induction text with
  | nil => rfl
  | cons byte text ih =>
    rw [List.mapM_cons]
    cases hdigit : digitOf byte with
    | none => simp [spanDigits_of_none hdigit]
    | some digit =>
      rw [spanDigits_cons hdigit, ih]
      split <;> simp_all

/-- The exponent after its sign. -/
def exponentOf (signed : Bool × List UInt8) : Result Int :=
  match signed.2.mapM digitOf with
  | none => .error (.ttcDecode "invalid NUMBER exponent")
  | some [] => .error (.ttcDecode "empty NUMBER exponent")
  | some digits =>
    if 2 ^ 31 ≤ decimal digits then .error (.ttcDecode "invalid NUMBER exponent")
    else .ok (if signed.1 then -(decimal digits : Int) else decimal digits)

private theorem parseExponent_iff {exponent : Int} :
    parseExponent text = .ok exponent ↔ readExponent text = some exponent ∧ exponent.natAbs < 2 ^ 31 := by
  have hsigned : parseExponent text = exponentOf (exponentSign text) := rfl
  rw [hsigned, exponentOf, readExponent, mapM_digitOf]
  generalize spanDigits (exponentSign text).2 = span
  obtain ⟨digits, rest⟩ := span
  by_cases hrest : rest = []
  · cases digits with
    | nil => simp [hrest]
    | cons digit digits =>
      simp only [hrest, if_true]
      cases (exponentSign text).1 <;> split <;> simp <;> omega
  · simp [hrest]


/-- The exponent behind the digits, if there is one. -/
def readSuffix : List UInt8 → Option Int
  | [] => some 0
  | byte :: rest => if isExponentMark byte then readExponent rest else none

theorem readUnsigned_eq (isNegative : Bool) (text : List UInt8) :
    readUnsigned isNegative text = (readSuffix (spanFraction (spanDigits text).2).2).map fun exponent =>
      ⟨isNegative, (spanDigits text).1, (spanFraction (spanDigits text).2).1, exponent⟩ := by
  unfold readUnsigned
  dsimp only
  cases (spanFraction (spanDigits text).2).2 with
  | nil => rfl
  | cons byte rest =>
    dsimp only [readSuffix]
    split <;> rfl

private theorem length_spanDigits (text : List UInt8) :
    (spanDigits text).1.length + (spanDigits text).2.length = text.length := by
  induction text with
  | nil => rfl
  | cons byte text ih =>
    rw [spanDigits]
    split
    · simp only [List.length_cons]
      omega
    · simp

/-- The end of the parser. -/
def parseSuffix (digits : List Nat) (point : Int) : List UInt8 → Result (List Nat × Int)
  | [] => return (digits, point)
  | byte :: rest =>
    if isExponentMark byte then do
      let exponent ← parseExponent rest
      let point := point + exponent
      if -2 ^ 31 ≤ point ∧ point < 2 ^ 31 then return (digits, point)
      else throw (.ttcDecode "NUMBER bind out of range")
    else throw (.ttcDecode "invalid NUMBER bind suffix")

/-- A point in the range of a NUMBER is far from the bounds of the exponent. -/
theorem parseSuffix_iff {base : Int} (hbase : base.natAbs ≤ numberAsTextChars) (hpoint : -129 ≤ point ∧ point ≤ 126) :
    parseSuffix digits base rest = .ok (digits', point) ↔
      ∃ exponent, readSuffix rest = some exponent ∧ digits' = digits ∧ point = base + exponent := by
  unfold numberAsTextChars at hbase
  cases rest with
  | nil => simp [readSuffix, parseSuffix, pure, Except.pure, eq_comm]
  | cons byte rest =>
    rw [readSuffix, parseSuffix]
    split
    · rw [except_bind_eq_ok]
      simp only [parseExponent_iff]
      constructor
      · rintro ⟨exponent, ⟨hexponent, -⟩, h⟩
        split at h
        · cases h
          exact ⟨exponent, hexponent, rfl, rfl⟩
        · cases h
      · rintro ⟨exponent, hexponent, rfl, rfl⟩
        exact ⟨exponent, ⟨hexponent, by omega⟩, if_pos (by omega)⟩
    · simp [throw, throwThe, MonadExceptOf.throw]

private theorem parseSuffix_of_head (h : ¬rest.head?.all isExponentMark) :
    parseSuffix digits point rest = .error (.ttcDecode "invalid NUMBER bind suffix") := by
  cases rest with
  | nil => simp at h
  | cons byte rest => exact if_neg h

/-- Up to its errors, the parser reads the digits and then the exponent. -/
theorem parseNumberText_eq_ok_iff {result : List Nat × Int} :
    parseNumberText text = .ok result ↔
      parseSuffix (dropZeros ((spanDigits text).1 ++ (spanFraction (spanDigits text).2).1))
        ((dropZeros ((spanDigits text).1 ++ (spanFraction (spanDigits text).2).1)).length -
          (spanFraction (spanDigits text).2).1.length) (spanFraction (spanDigits text).2).2 = .ok result := by
  rw [parseNumberText, integerDigits_eq (by simp), List.nil_append]
  rcases spanDigits text with ⟨whole, behind⟩
  by_cases hdot : ∃ rest, behind = 46 :: rest
  · obtain ⟨rest, rfl⟩ := hdot
    change (fractionDigits (dropZeros whole) (dropZeros whole).length rest >>= fun found =>
      parseSuffix found.1 found.2.1 found.2.2) = _ ↔ parseSuffix (dropZeros (whole ++ (spanDigits rest).1))
        ((dropZeros (whole ++ (spanDigits rest).1)).length - (spanDigits rest).1.length) (spanDigits rest).2 = _
    have hpoint (n m k : Nat) : (n : Int) - (n + m : Nat) + k = k - m := by omega
    rw [fractionDigits_eq (head_dropZeros whole), dropZeros_dropZeros_append, List.length_append, hpoint]
    split
    · rfl
    · rename_i hmark
      rw [parseSuffix_of_head hmark]
      simp [bind, Except.bind]
  · have hspan : spanFraction behind = ([], behind) := by
      unfold spanFraction
      split
      · exact absurd ⟨_, rfl⟩ hdot
      · rfl
    rw [hspan, List.append_nil]
    split
    · dsimp only [bind, Except.bind]
      split
      · exact absurd ⟨_, rfl⟩ hdot
      · change parseSuffix (dropZeros whole) (dropZeros whole).length behind = _ ↔ _
        rw [List.length_nil, Nat.cast_zero, sub_zero]
    · rw [parseSuffix_of_head]
      · simp [bind, Except.bind]
      · cases behind <;> simp_all

private theorem length_spanFraction (text : List UInt8) : (spanFraction text).1.length ≤ text.length := by
  unfold spanFraction
  split
  · rename_i rest
    have hspan := length_spanDigits rest
    rw [List.length_cons]
    omega
  · simp

/-- The parser of the encoder finds the parts of the text. -/
theorem parseNumberText_iff (isNegative : Bool) (hlen : text.length ≤ numberAsTextChars)
    (hpoint : -129 ≤ point ∧ point ≤ 126) :
    parseNumberText text = .ok (digits, point) ↔ ∃ parts, readUnsigned isNegative text = some parts ∧
      digits = dropZeros (parts.whole ++ parts.fraction) ∧ point = parts.pointIndex := by
  have hwhole := length_spanDigits text
  have hfraction := length_spanFraction (spanDigits text).2
  have hshort : (dropZeros ((spanDigits text).1 ++ (spanFraction (spanDigits text).2).1)).length ≤
      ((spanDigits text).1 ++ (spanFraction (spanDigits text).2).1).length := (List.dropWhile_sublist _).length_le
  rw [List.length_append] at hshort
  rw [parseNumberText_eq_ok_iff, parseSuffix_iff (by omega) hpoint]
  simp only [readUnsigned_eq, Option.map_eq_some_iff, exists_exists_and_eq_and, DecimalText.pointIndex]

/-! ### Texts of decoded numbers -/

/-- The digits with a point at an index. -/
def pointed (digits : List Nat) (point : Int) : List Char :=
  if 0 < point ∧ point < digits.length then
    (digits.take point.toNat).map digitChar ++ '.' :: (digits.drop point.toNat).map digitChar
  else digits.map digitChar

private theorem flatMap_zipIdx_of_ne (start : Nat) (point : Int)
    (h : ∀ index, start ≤ index → index < start + digits.length → (index : Int) ≠ point) :
    ((digits.zipIdx start).flatMap fun (digit, index) =>
      if (index : Int) = point then ['.', digitChar digit] else [digitChar digit]) = digits.map digitChar := by
  induction digits generalizing start with
  | nil => rfl
  | cons digit digits ih =>
    have hrest := ih (start + 1) fun index hlow hhigh =>
      h index (by omega) (by simp only [List.length_cons]; omega)
    have hfirst : (start : Int) ≠ point := h start le_rfl (by simp)
    simp [hrest, hfirst]

/-- Both formatters write the point in front of the digit at its index. -/
theorem flatMap_zipIdx (hpoint : 0 < point) :
    (digits.zipIdx.flatMap fun (digit, index) =>
      if (index : Int) = point then ['.', digitChar digit] else [digitChar digit]) = pointed digits point := by
  obtain ⟨n, rfl⟩ := Int.eq_ofNat_of_zero_le hpoint.le
  unfold pointed
  by_cases hn : n < digits.length
  · have hsplit : digits = digits.take n ++ digits[n] :: digits.drop (n + 1) := by simp
    rw [if_pos ⟨hpoint, by omega⟩, Int.toNat_natCast, List.drop_eq_getElem_cons hn, List.map_cons]
    nth_rewrite 1 [hsplit]
    rw [List.zipIdx_append, List.flatMap_append, List.zipIdx_cons, List.flatMap_cons, flatMap_zipIdx_of_ne,
      flatMap_zipIdx_of_ne]
    · simp [hn.le]
    · intro index hlow _
      simp only [List.length_take] at hlow
      omega
    · intro index _ hhigh
      simp only [List.length_take] at hhigh
      omega
  · rw [if_neg (by omega)]
    exact flatMap_zipIdx_of_ne 0 n fun index _ hhigh => by omega

/-- The text of digits without a sign. -/
def unsignedText (digits : List Nat) (point : Int) : List Char :=
  if point ≤ 0 then '0' :: '.' :: List.replicate (-point).toNat '0' ++ digits.map digitChar
  else pointed digits point ++ List.replicate (point - digits.length).toNat '0'

theorem formatNumberDigits_eq (digits : List Nat) (isNegative : Bool) (point : Int) :
    formatNumberDigits digits isNegative point =
      (if isNegative then ['-'] else []) ++ unsignedText digits point := by
  unfold formatNumberDigits unsignedText
  rw [List.append_assoc, List.append_assoc]
  congr 1
  by_cases hpoint : point ≤ 0
  · have hnone : (digits.zipIdx.flatMap fun (digit, index) =>
        if 0 < index ∧ (index : Int) = point then ['.', digitChar digit] else [digitChar digit]) =
        digits.map digitChar := by
      rw [← flatMap_zipIdx_of_ne 0 (-1) fun index _ _ => by omega]
      congr 1
      funext ⟨digit, index⟩
      have hindex : ¬(0 < index ∧ (index : Int) = point) := by omega
      have hnever : (index : Int) ≠ -1 := by omega
      simp only [hindex, hnever]
    have hend : (point - digits.length).toNat = 0 := by omega
    rw [if_pos hpoint, if_pos hpoint, hnone, hend, List.replicate_zero, List.append_nil]
  · have hsome : (digits.zipIdx.flatMap fun (digit, index) =>
        if 0 < index ∧ (index : Int) = point then ['.', digitChar digit] else [digitChar digit]) =
        pointed digits point := by
      rw [← flatMap_zipIdx (by omega)]
      congr 1
      funext ⟨digit, index⟩
      have hindex : (0 < index ∧ (index : Int) = point) ↔ (index : Int) = point := by omega
      simp only [hindex]
    rw [if_neg hpoint, if_neg hpoint, hsome, List.nil_append]

theorem unsignedText_of_le (h : (digits.length : Int) ≤ point) (hpos : 0 < point) :
    unsignedText digits point =
      digits.map digitChar ++ List.replicate (point - digits.length).toNat '0' := by
  rw [unsignedText, if_neg (by omega), pointed, if_neg (by omega)]

theorem unsignedText_of_lt (hpos : 0 < point) (h : point < digits.length) :
    unsignedText digits point =
      (digits.take point.toNat).map digitChar ++ '.' :: (digits.drop point.toNat).map digitChar := by
  have hend : (point - digits.length).toNat = 0 := by omega
  rw [unsignedText, if_neg (by omega), pointed, if_pos ⟨hpos, h⟩, hend, List.replicate_zero, List.append_nil]

/-- The bytes of a text. -/
def textBytes (text : String) : List UInt8 := text.toUTF8.data.toList

theorem fromUTF8?_eq_some_iff {bytes : List UInt8} {text : String} :
    String.fromUTF8? (ByteArray.mk bytes.toArray) = some text ↔ bytes = textBytes text := by
  constructor
  · intro h
    unfold String.fromUTF8? at h
    split at h
    · cases h
      rfl
    · cases h
  · rintro rfl
    have hbytes : ByteArray.mk (textBytes text).toArray = text.toUTF8 := by rw [textBytes, Array.toArray_toList]
    have hvalid : text.toUTF8.IsValidUTF8 := text.isValidUTF8
    exact dif_pos hvalid

theorem textBytes_eq_nil_iff {text : String} : textBytes text = [] ↔ text = "" := by
  constructor
  · intro h
    have hempty : String.fromUTF8? (ByteArray.mk #[]) = some text := fromUTF8?_eq_some_iff.2 h.symm
    have hsame := hempty.symm.trans (fromUTF8?_eq_some_iff.2 (show ([] : List UInt8) = textBytes "" from rfl))
    exact Option.some.inj hsame
  · rintro rfl
    rfl

private theorem textBytes_ofList {chars : List Char} (h : ∀ c ∈ chars, c.toNat < 128) :
    textBytes (String.ofList chars) = chars.map fun c => UInt8.ofNat c.toNat := by
  have hchar : ∀ c ∈ chars, String.utf8EncodeChar c = [UInt8.ofNat c.toNat] := fun c hc => by
    have hle : c.val.toNat ≤ 127 := Nat.le_of_lt_succ (h c hc)
    rw [String.utf8EncodeChar, if_pos hle]
    rfl
  rw [textBytes, String.toUTF8, String.toByteArray_ofList, List.utf8Encode, List.data_toByteArray,
    List.flatMap_congr hchar, ← List.map_eq_flatMap]

def digitByte (digit : Nat) : UInt8 := UInt8.ofNat (48 + digit)

private theorem digitChar_facts (h : digit < 10) :
    (digitChar digit).toNat < 128 ∧ UInt8.ofNat (digitChar digit).toNat = digitByte digit ∧
      digitOf (digitByte digit) = some digit ∧ digitByte digit ≠ 45 := by
  have hall : ∀ d : Fin 10, (digitChar d).toNat < 128 ∧ UInt8.ofNat (digitChar d).toNat = digitByte d ∧
      digitOf (digitByte d) = some d.val ∧ digitByte d ≠ 45 := by decide
  exact hall ⟨digit, h⟩

private theorem spanDigits_append (h : ∀ digit ∈ digits, digit < 10) (rest : List UInt8)
    (hrest : spanDigits rest = ([], rest)) : spanDigits (digits.map digitByte ++ rest) = (digits, rest) := by
  induction digits with
  | nil => exact hrest
  | cons digit digits ih =>
    obtain ⟨-, -, hdigit, -⟩ := digitChar_facts (h digit (List.mem_cons_self ..))
    have hih := ih fun d hd => h d (List.mem_cons_of_mem _ hd)
    rw [List.map_cons, List.cons_append, spanDigits_cons hdigit, hih]

/-- A text of digits with a point behind some of them. -/
theorem textValue_digits {isNegative : Bool} {whole fraction : List Nat}
    (h : ∀ digit ∈ whole ++ fraction, digit < 10) (suffix : List UInt8)
    (hsuffix : suffix = [] ∧ fraction = [] ∨ suffix = 46 :: fraction.map digitByte) :
    textValue ((if isNegative then [45] else []) ++ (whole.map digitByte ++ suffix)) =
      some (DecimalText.ofDigits isNegative (whole ++ fraction) whole.length) := by
  have hwhole : ∀ digit ∈ whole, digit < 10 := fun d hd => h d (List.mem_append_left _ hd)
  have hfraction : ∀ digit ∈ fraction, digit < 10 := fun d hd => h d (List.mem_append_right _ hd)
  have hread : readUnsigned isNegative (whole.map digitByte ++ suffix) = some ⟨isNegative, whole, fraction, 0⟩ := by
    rcases hsuffix with ⟨rfl, rfl⟩ | rfl
    · have hspan := spanDigits_append hwhole [] rfl
      simp only [readUnsigned, hspan, spanFraction]
    · have hspan := spanDigits_append hwhole (46 :: fraction.map digitByte) rfl
      have hbehind := spanDigits_append hfraction [] rfl
      rw [List.append_nil] at hbehind
      simp [readUnsigned, hspan, spanFraction, hbehind]
  have hsign : readDecimalText ((if isNegative then [45] else []) ++ (whole.map digitByte ++ suffix)) =
      readUnsigned isNegative (whole.map digitByte ++ suffix) := by
    cases isNegative with
    | true => rfl
    | false =>
      unfold readDecimalText
      split
      · rename_i rest htext
        cases whole with
        | nil => rcases hsuffix with ⟨rfl, -⟩ | rfl <;> simp at htext
        | cons digit whole =>
          obtain ⟨-, -, -, hminus⟩ := digitChar_facts (hwhole digit (List.mem_cons_self ..))
          exact absurd (List.cons.inj htext).1 hminus
      · rfl
  rw [textValue, hsign, hread, Option.map_some, DecimalText.value, Int.add_zero]

theorem textValue_digitChars (isNegative : Bool) {whole fraction : List Nat} {suffix : List Char}
    (h : ∀ digit ∈ whole ++ fraction, digit < 10)
    (hsuffix : suffix = [] ∧ fraction = [] ∨ suffix = '.' :: fraction.map digitChar) :
    textValue (textBytes (String.ofList ((if isNegative then ['-'] else []) ++ (whole.map digitChar ++ suffix)))) =
      some (DecimalText.ofDigits isNegative (whole ++ fraction) whole.length) := by
  have hdigits {ds : List Nat} (hds : ∀ d ∈ ds, d ∈ whole ++ fraction) :
      (∀ c ∈ ds.map digitChar, c.toNat < 128) ∧
        (ds.map digitChar).map (fun c => UInt8.ofNat c.toNat) = ds.map digitByte := by
    constructor
    · intro c hc
      obtain ⟨d, hd, rfl⟩ := List.mem_map.1 hc
      exact (digitChar_facts (h d (hds d hd))).1
    · rw [List.map_map]
      exact List.map_congr_left fun d hd => (digitChar_facts (h d (hds d hd))).2.1
  obtain ⟨hascii₁, hbytes₁⟩ := hdigits fun d hd => List.mem_append_left fraction hd
  obtain ⟨hascii₂, hbytes₂⟩ := hdigits fun d hd => List.mem_append_right whole hd
  rw [textBytes_ofList, List.map_append, List.map_append, hbytes₁]
  · have hsign : (if isNegative then ['-'] else []).map (fun c => UInt8.ofNat c.toNat) =
        if isNegative then [45] else [] := by
      cases isNegative <;> rfl
    rw [hsign]
    refine textValue_digits h _ ?_
    rcases hsuffix with ⟨rfl, rfl⟩ | rfl
    · exact Or.inl ⟨rfl, rfl⟩
    · exact Or.inr (by rw [List.map_cons, hbytes₂]; rfl)
  · intro c hc
    rcases List.mem_append.1 hc with hc | hc
    · cases isNegative with
      | true =>
        rw [List.mem_singleton.1 hc]
        decide
      | false => cases hc
    · rcases List.mem_append.1 hc with hc | hc
      · exact hascii₁ c hc
      · rcases hsuffix with ⟨rfl, rfl⟩ | rfl
        · cases hc
        · rcases List.mem_cons.1 hc with rfl | hc
          · decide
          · exact hascii₂ c hc

/-- The digits before and behind the point in a text: there are zeros in front of the digits or behind them. A point
without a fraction stands only behind a single zero. -/
theorem unsignedText_parts (digits : List Nat) (point : Int) :
    ∃ whole fraction suffix m, unsignedText digits point = whole.map digitChar ++ suffix ∧
      (suffix = [] ∧ fraction = [] ∨ suffix = '.' :: fraction.map digitChar) ∧ whole ≠ [] ∧
      (fraction = [] → suffix = [] ∨ whole = [0]) ∧
      whole ++ fraction = List.replicate m 0 ++ digits ++ List.replicate (point - digits.length).toNat 0 ∧
      (whole.length : Int) = point + m ∧ (m = 0 ∨ whole = [0]) := by
  have hzeros (n : Nat) : List.replicate n '0' = (List.replicate n 0).map digitChar := by
    rw [List.map_replicate]
    rfl
  have hend : point ≤ digits.length → (point - digits.length).toNat = 0 := by omega
  by_cases hneg : point ≤ 0
  · refine ⟨[0], List.replicate (-point).toNat 0 ++ digits, _, (-point).toNat + 1, ?_, Or.inr rfl, by simp,
      fun _ => Or.inr rfl, by simp [List.replicate_succ, hend (by omega)], by simp; omega, Or.inr rfl⟩
    rw [unsignedText, if_pos hneg, hzeros, List.map_append]
    rfl
  by_cases hinside : point < digits.length
  · have htake : (digits.take point.toNat).length = point.toNat := List.length_take_of_le (by omega)
    have hdrop : (digits.drop point.toNat).length = digits.length - point.toNat := List.length_drop
    refine ⟨digits.take point.toNat, digits.drop point.toNat, _, 0, ?_, Or.inr rfl, fun hnil => ?_, fun hnil => ?_,
      by simp [hend hinside.le], by omega, Or.inl rfl⟩
    · rw [unsignedText_of_lt (by omega) hinside]
    · rw [hnil, List.length_nil] at htake
      omega
    · rw [hnil, List.length_nil] at hdrop
      omega
  · refine ⟨digits ++ List.replicate (point - digits.length).toNat 0, [], [], 0, ?_,
      Or.inl ⟨rfl, rfl⟩, fun hnil => ?_, fun _ => Or.inl rfl, by simp, by simp; omega, Or.inl rfl⟩
    · rw [unsignedText_of_le (by omega) (by omega), hzeros, List.map_append, List.append_nil]
    · have hlen := congrArg List.length hnil
      rw [List.length_append, List.length_replicate, List.length_nil] at hlen
      omega

theorem mem_of_mem_zeros {digits : List Nat} {m n : Nat}
    (h : digit ∈ List.replicate m 0 ++ digits ++ List.replicate n 0) : digit = 0 ∨ digit ∈ digits := by
  simp only [List.mem_append, List.mem_replicate] at h
  tauto

theorem textValue_formatNumberDigits (isNegative : Bool) (point : Int) (h : ∀ digit ∈ digits, digit < 10) :
    textValue (textBytes (String.ofList (formatNumberDigits digits isNegative point))) =
      some (DecimalText.ofDigits isNegative digits point) := by
  obtain ⟨whole, fraction, suffix, m, htext, hsuffix, -, -, hsplit, hpoint, -⟩ := unsignedText_parts digits point
  have hlt : ∀ digit ∈ whole ++ fraction, digit < 10 := fun digit hdigit => by
    rcases mem_of_mem_zeros (hsplit ▸ hdigit) with rfl | hdigit
    · decide
    · exact h digit hdigit
  rw [formatNumberDigits_eq, htext, textValue_digitChars isNegative hlt hsuffix, hsplit,
    DecimalText.ofDigits_append_zeros, DecimalText.ofDigits_zeros_append, hpoint, add_sub_cancel_right]

end OracleThin.Ttc

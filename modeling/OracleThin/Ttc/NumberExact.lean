import OracleThin.Ttc.NumberText

/-!
# Exactness of the NUMBER encoder

What the encoder makes of a text is decoded to a text of the same number, with one exception. A NUMBER has room for
forty digits in twenty bytes. If the point is at an odd position, the first digit has a byte of its own, and the
fortieth digit does not fit into the twenty bytes that the decoder accepts.
-/

namespace OracleThin.Ttc

open Lib Wire

variable {digits : List Nat}

/-! ### Packing two digits into a byte -/

/-- The digits of the mantissa bytes: the point is moved to an even position and the last byte is filled up. -/
def packedDigits (digits : List Nat) (point : Int) : List Nat :=
  let digits := if point % 2 = 0 then digits else 0 :: digits
  if digits.length % 2 = 0 then digits else digits ++ [0]

def packedPoint (point : Int) : Int := if point % 2 = 0 then point else point + 1

private theorem length_packedDigits_even (digits : List Nat) (point : Int) :
    (packedDigits digits point).length % 2 = 0 := by
  unfold packedDigits
  generalize (if point % 2 = 0 then digits else 0 :: digits) = digits
  dsimp only
  split
  · assumption
  · simp only [List.length_append, List.length_singleton]
    omega

private theorem packedPoint_even (point : Int) : packedPoint point % 2 = 0 := by
  unfold packedPoint
  split <;> omega

theorem length_digitPairs (digits : List Nat) : (digitPairs digits).length = digits.length / 2 := by
  induction digits using List.twoStepInduction with
  | nil | singleton _ => simp [digitPairs]
  | cons_cons first second rest ih _ =>
    simp only [digitPairs, List.length_cons, ih]
    omega

private theorem digitPairs_append_singleton (h : digits.length % 2 = 0) (digit : Nat) :
    digitPairs (digits ++ [digit]) = digitPairs digits := by
  induction digits using List.twoStepInduction with
  | nil => rfl
  | singleton _ => simp at h
  | cons_cons first second rest ih _ =>
    simp only [List.length_cons] at h
    simp only [List.cons_append, digitPairs]
    rw [ih (by omega)]

/-- A pair of digits is spelled with these digits. -/
theorem flatMap_spell_digitPairs (hdigits : ∀ digit ∈ digits, digit < 10)
    (h : digits.length % 2 = 0) : (digitPairs digits).flatMap spell = digits := by
  induction digits using List.twoStepInduction with
  | nil => rfl
  | singleton _ => simp at h
  | cons_cons first second rest ih _ =>
    simp only [List.length_cons] at h
    have hfirst := hdigits first (by simp)
    have hsecond := hdigits second (by simp)
    have hspell : spell (10 * first + second) = [first, second] := by
      have hten : (10 * first + second) / 10 = first := by omega
      have hone : (10 * first + second) % 10 = second := by omega
      rw [spell, hten, hone, if_neg (by omega)]
      rfl
    rw [digitPairs, List.flatMap_cons, hspell, ih (fun d hd => hdigits d (by simp [hd])) (by omega)]
    rfl

private theorem lt_of_mem_digitPairs (hdigits : ∀ digit ∈ digits, digit < 10) {value : Nat}
    (h : value ∈ digitPairs digits) : value < 100 := by
  fun_induction digitPairs digits with
  | case1 first second rest ih =>
    have hfirst := hdigits first (by simp)
    have hsecond := hdigits second (by simp)
    rcases List.mem_cons.1 h with rfl | h
    · omega
    · exact ih (fun d hd => hdigits d (by simp [hd])) h
  | case2 => cases h

theorem encodeDigits_nil (isNegative : Bool) (point : Int) : encodeDigits isNegative [] point = .ok [128] := by
  simp [encodeDigits]

/-- The wire form of digits. -/
theorem encodeDigits_eq (isNegative : Bool) (hne : digits ≠ []) {point : Int}
    (hlow : -129 ≤ point) (hhigh : point ≤ 126) :
    encodeDigits isNegative digits point =
      let exponentByte := UInt8.ofNat (packedPoint point / 2 + 192).toNat
      .ok ((if isNegative then ~~~exponentByte else exponentByte) ::
        (digitPairs (packedDigits digits point)).map (encodeMantissaDigit isNegative) ++
          if isNegative ∧ (packedDigits digits point).length < numberMaxDigits then [102] else []) := by
  have hexponent : 0 ≤ packedPoint point / 2 + 192 ∧ packedPoint point / 2 + 192 ≤ 255 := by
    unfold packedPoint
    split <;> omega
  have heven := length_packedDigits_even digits point
  have hall {ds : List Nat} : (digitPairs ds).take (ds.length / 2) = digitPairs ds :=
    List.take_of_length_le (length_digitPairs ds).le
  unfold encodeDigits
  by_cases hparity : point % 2 = 0
  · have hpacked : (if digits.length % 2 = 1 then digits ++ [0] else digits) = packedDigits digits point := by
      unfold packedDigits
      dsimp only
      split <;> split <;> first | rfl | omega
    have hpoint : packedPoint point = point := if_pos hparity
    have hnil : packedDigits digits point ≠ [] := by
      rw [← hpacked]
      split <;> simp [hne]
    rw [hpoint] at hexponent
    simp [hparity, hpacked, hpoint, hnil, hexponent, hall]
  · -- the digits are padded at the end before one of them is put alone at the front
    have hpadded : 0 :: (if (digits ++ [0]).length % 2 = 1 then digits ++ [0] ++ [0] else digits ++ [0]) =
        packedDigits digits point ++ [0] := by
      unfold packedDigits
      rw [if_neg hparity]
      simp only [List.length_append, List.length_cons, List.length_nil]
      split <;> split <;> first | rfl | omega
    have hlen : (if (digits ++ [0]).length % 2 = 1 then digits ++ [0] ++ [0] else digits ++ [0]).length =
        (packedDigits digits point).length :=
      Nat.succ.inj ((congrArg List.length hpadded).trans List.length_append)
    have hpoint : packedPoint point = point + 1 := if_neg hparity
    have hnil : (if (digits ++ [0]).length % 2 = 1 then digits ++ [0] ++ [0] else digits ++ [0]) ≠ [] := by
      split <;> simp
    rw [hpoint] at hexponent
    simp only [hparity, ne_eq, not_false_eq_true, decide_true, hne, and_self, if_true, hnil, if_false, hexponent,
      hlen,
      hpadded, digitPairs_append_singleton heven, hall, hpoint]

/-! ### Unpacking -/

variable {text : List UInt8} {isNegative : Bool}

section

variable {point : Int}

theorem packedDigits_eq (digits : List Nat) (point : Int) :
    ∃ fill, (fill = [] ∨ fill = [0]) ∧
      packedDigits digits point = (if point % 2 = 0 then digits else 0 :: digits) ++ fill := by
  unfold packedDigits
  generalize (if point % 2 = 0 then digits else 0 :: digits) = digits
  by_cases heven : digits.length % 2 = 0
  · exact ⟨[], Or.inl rfl, by rw [List.append_nil]; exact if_pos heven⟩
  · exact ⟨[0], Or.inr rfl, if_neg heven⟩

private theorem lt_of_mem_packedDigits (hdigits : ∀ digit ∈ digits, digit < 10) {digit : Nat}
    (h : digit ∈ packedDigits digits point) : digit < 10 := by
  obtain ⟨fill, hfill, heq⟩ := packedDigits_eq digits point
  have hcases : digit = 0 ∨ digit ∈ digits := by
    rw [heq] at h
    split at h <;> rcases hfill with rfl | rfl <;> simp only [List.mem_append, List.mem_cons] at h <;> tauto
  rcases hcases with rfl | h
  · decide
  · exact hdigits digit h

/-- The walk leaves out the zeros that the packing has put in. -/
theorem spelledDigits_packed (hdigits : ∀ digit ∈ digits, digit < 10) (hne : digits ≠ [])
    (hfirst : digits.head? ≠ some 0) (hlast : digits.getLast? ≠ some 0) :
    spelledDigits (digitPairs (packedDigits digits point)) = digits := by
  have hend : dropLastZero digits = digits := if_neg hlast
  have hfilled : dropLastZero (digits ++ [0]) = digits := by
    rw [dropLastZero_append_singleton, if_pos rfl]
  rw [spelledDigits, flatMap_spell_digitPairs (fun d hd => lt_of_mem_packedDigits hdigits hd)
    (length_packedDigits_even digits point)]
  obtain ⟨fill, hfill, heq⟩ := packedDigits_eq digits point
  have hfront : dropFirstZero (packedDigits digits point) = digits ++ fill := by
    rw [heq]
    split
    · rw [dropFirstZero_append _ hne, dropFirstZero_of_head hfirst]
    · rfl
  rw [hfront]
  rcases hfill with rfl | rfl
  · rw [List.append_nil, hend]
  · exact hfilled

private theorem spelledPoint_packed (hdigits : ∀ digit ∈ digits, digit < 10) (hne : digits ≠ [])
    (hfirst : digits.head? ≠ some 0) :
    spelledPoint (digitPairs (packedDigits digits point)) (packedPoint point) = point := by
  have hcount : (digitPairs (packedDigits digits point)).countP (· / 10 = 10) = 0 := by
    refine List.countP_eq_zero.2 fun value hvalue => ?_
    have hlt := lt_of_mem_digitPairs (fun d hd => lt_of_mem_packedDigits hdigits hd) hvalue
    simp only [decide_eq_true_eq]
    omega
  have hsmall : (digitPairs (packedDigits digits point)).head?.any (· < 10) = decide (point % 2 ≠ 0) := by
    obtain ⟨fill, -, heq⟩ := packedDigits_eq digits point
    have hlen := length_packedDigits_even digits point
    have hlt {d : Nat} (hd : d ∈ packedDigits digits point) : d < 10 := lt_of_mem_packedDigits hdigits hd
    have hhead : (packedDigits digits point).head? = some 0 ↔ point % 2 ≠ 0 := by
      rw [heq]
      by_cases hparity : point % 2 = 0
      · simp [hparity, hne, hfirst]
      · simp [hparity]
    match hpacked : packedDigits digits point with
    | [] => simp_all
    | [_] => simp [hpacked] at hlen
    | first :: second :: rest =>
      have hsecond := hlt (d := second) (by simp [hpacked])
      rw [hpacked, List.head?_cons, Option.some_inj] at hhead
      have hiff : 10 * first + second < 10 ↔ point % 2 ≠ 0 := by
        omega
      simp only [digitPairs, List.head?_cons, Option.any_some, hiff]
  rw [spelledPoint, hcount, hsmall, packedPoint]
  by_cases hparity : point % 2 = 0 <;> simp [hparity]

theorem length_packedDigits_le_iff (hlen : digits.length ≤ numberMaxDigits) :
    (packedDigits digits point).length ≤ numberMaxDigits ↔ ¬(digits.length = numberMaxDigits ∧ point % 2 ≠ 0) := by
  have heven := length_packedDigits_even digits point
  obtain ⟨fill, hfill, heq⟩ := packedDigits_eq digits point
  have hfilled : fill.length ≤ 1 := by rcases hfill with rfl | rfl <;> simp
  have hsum := congrArg List.length heq
  rw [List.length_append] at hsum
  unfold numberMaxDigits at hlen ⊢
  split at hsum
  · omega
  · rw [List.length_cons] at hsum
    omega

private theorem mantissaValue_encodeMantissaDigit (isNegative : Bool) {value : Nat} (h : value < 100) :
    mantissaValue (!isNegative) (encodeMantissaDigit isNegative value) = value ∧
      (isNegative → encodeMantissaDigit isNegative value ≠ 102) := by
  have hall : ∀ isNegative : Bool, ∀ v : Fin 100,
      mantissaValue (!isNegative) (encodeMantissaDigit isNegative v) = v.val ∧
        (isNegative → encodeMantissaDigit isNegative v ≠ 102) := by decide +kernel
  exact hall isNegative ⟨value, h⟩

/-- The byte of the exponent says the sign, and where the point is. -/
private theorem exponentByte_facts (isNegative : Bool) (exponent : Nat) (hlow : 128 ≤ exponent)
    (hhigh : exponent < 256) :
    let first := if isNegative then ~~~UInt8.ofNat exponent else UInt8.ofNat exponent
    isPositiveNumber first = !isNegative ∧ wirePoint first = ((exponent : Int) - 193) * 2 + 2 := by
  have hall : ∀ isNegative : Bool, ∀ e : Fin 256, 128 ≤ e.val →
      isPositiveNumber (if isNegative then ~~~UInt8.ofNat e else UInt8.ofNat e) = !isNegative ∧
        wirePoint (if isNegative then ~~~UInt8.ofNat e else UInt8.ofNat e) = ((e.val : Int) - 193) * 2 + 2 := by
    decide +kernel
  exact hall isNegative ⟨exponent, hhigh⟩ hlow

/-- The values of an encoded mantissa, with or without the byte 102 at its end. -/
theorem mantissaValues_encoded {first : UInt8} (hsign : isPositiveNumber first = !isNegative) {values : List Nat}
    (hvalues : ∀ value ∈ values, value < 100) {ending : List UInt8}
    (hending : ending = [] ∨ isNegative ∧ ending = [102]) :
    mantissaValues first (values.map (encodeMantissaDigit isNegative) ++ ending) = values := by
  have hback : (values.map (encodeMantissaDigit isNegative)).map (mantissaValue (!isNegative)) = values := by
    rw [List.map_map]
    nth_rewrite 2 [← List.map_id values]
    exact List.map_congr_left
      fun value hvalue => (mantissaValue_encodeMantissaDigit isNegative (hvalues value hvalue)).1
  have hbytes : mantissaBytes (!isNegative) (values.map (encodeMantissaDigit isNegative) ++ ending) =
      values.map (encodeMantissaDigit isNegative) := by
    unfold mantissaBytes
    rcases hending with rfl | ⟨hneg, rfl⟩
    · rw [List.append_nil, if_neg]
      rintro ⟨hneg, hlast⟩
      obtain ⟨value, hvalue, heq⟩ := List.mem_map.1 (List.mem_of_getLast? hlast)
      exact (mantissaValue_encodeMantissaDigit isNegative (hvalues value hvalue)).2 (by simpa using hneg) heq
    · rw [if_pos (by simp [hneg])]
      simp
  rw [mantissaValues, hsign, hbytes, hback]

/-- Digits without zeros at either side come back with their point, if they fit. -/
theorem decodeNumberParts_encodeDigits {wire : List UInt8} (hdigits : ∀ digit ∈ digits, digit < 10)
    (hne : digits ≠ []) (hfirst : digits.head? ≠ some 0) (hlast : digits.getLast? ≠ some 0) (hlow : -129 ≤ point)
    (hhigh : point ≤ 126) (h : encodeDigits isNegative digits point = .ok wire) :
    decodeNumberParts wire =
      if (packedDigits digits point).length ≤ numberMaxDigits then .ok (.parts digits isNegative point)
      else .error (.ttcDecode "encoded NUMBER too long") := by
  rw [encodeDigits_eq isNegative hne hlow hhigh] at h
  cases h
  have hpoint : -128 ≤ packedPoint point ∧ packedPoint point ≤ 126 := by
    unfold packedPoint
    split <;> omega
  have heven := packedPoint_even point
  obtain ⟨hsign, hwire⟩ := exponentByte_facts isNegative (packedPoint point / 2 + 192).toNat (by omega) (by omega)
  have hback : (((packedPoint point / 2 + 192).toNat : Int) - 193) * 2 + 2 = packedPoint point := by omega
  rw [hback] at hwire
  generalize (if isNegative then ~~~UInt8.ofNat (packedPoint point / 2 + 192).toNat
    else UInt8.ofNat (packedPoint point / 2 + 192).toNat) = first at hsign hwire
  -- the length of the wire form
  have hpairs := length_digitPairs (packedDigits digits point)
  have hparity := length_packedDigits_even digits point
  have hpos : 0 < (packedDigits digits point).length := by
    obtain ⟨fill, -, heq⟩ := packedDigits_eq digits point
    have hdigits := List.length_pos_iff.2 hne
    rw [heq, List.length_append]
    split
    · omega
    · rw [List.length_cons]
      omega
  by_cases hfits : (packedDigits digits point).length ≤ numberMaxDigits
  · rw [if_pos hfits, List.cons_append, decodeNumberParts_cons first, mantissaValues_encoded hsign, hsign, hwire,
      spelledDigits_packed hdigits hne hfirst hlast, spelledPoint_packed hdigits hne hfirst, Bool.not_not]
    · exact fun value hv => lt_of_mem_digitPairs (fun d hd => lt_of_mem_packedDigits hdigits hd) hv
    · split
      · exact Or.inr ⟨by tauto, rfl⟩
      · exact Or.inl rfl
    · intro hnil
      have hlen := congrArg List.length hnil
      simp only [List.length_append, List.length_map, List.length_nil] at hlen
      omega
    · rw [List.length_append, List.length_map]
      unfold numberMaxDigits at hfits ⊢
      split <;> simp only [List.length_cons, List.length_nil] <;> omega
  · rw [if_neg hfits]
    refine decodeNumberParts_of_long ?_
    rw [List.length_append, List.length_cons, List.length_map]
    unfold numberMaxDigits at hfits
    omega

end

/-! ### The text of an encoded text -/

/-- The text has forty significant digits and its point is at an odd position of them. -/
def DecimalText.Overlong (text : DecimalText) : Prop :=
  text.significant.length = numberMaxDigits ∧ text.pointIndex % 2 ≠ 0

instance (text : DecimalText) : Decidable text.Overlong :=
  inferInstanceAs (Decidable (text.significant.length = numberMaxDigits ∧ text.pointIndex % 2 ≠ 0))

/-- The number is zero in a text with the point at its place, or at least `10 ^ -130` and below `10 ^ 126`. -/
def DecimalText.InRange (text : DecimalText) : Prop := -129 ≤ text.pointIndex ∧ text.pointIndex ≤ 126

/-- The rest of the encoder, after the sign. -/
def encodeUnsigned (isNegative : Bool) (rest : List UInt8) : Result (List UInt8) := do
  let (digits, point) ← parseNumberText rest
  let digits := trimZeros digits
  if numberMaxDigits < digits.length ∨ point < -129 ∨ 126 < point then
    throw (.ttcDecode "NUMBER bind out of range")
  encodeDigits isNegative digits point

private theorem encodeUnsigned_eq_ok_iff (isNegative : Bool) {rest wire : List UInt8}
    (hlen : rest.length ≤ numberAsTextChars) :
    encodeUnsigned isNegative rest = .ok wire ↔
      ∃ parts, readUnsigned isNegative rest = some parts ∧ parts.significant.length ≤ numberMaxDigits ∧
      parts.InRange ∧
        encodeDigits parts.isNegative parts.significant parts.pointIndex = .ok wire := by
  have hsign {parts : DecimalText} (h : readUnsigned isNegative rest = some parts) :
      parts.isNegative = isNegative := by
    rw [readUnsigned_eq] at h
    obtain ⟨exponent, -, rfl⟩ := Option.map_eq_some_iff.1 h
    rfl
  constructor
  · intro h
    obtain ⟨⟨digits, point⟩, hparse, h⟩ := except_bind_eq_ok.1 h
    dsimp only at h
    split at h
    · cases h
    · rename_i hrange
      rw [not_or, not_or, not_lt, not_lt, not_lt] at hrange
      obtain ⟨parts, hread, rfl, rfl⟩ := (parseNumberText_iff isNegative hlen hrange.2).1 hparse
      exact ⟨parts, hread, hrange.1, hrange.2, (hsign hread).symm ▸ h⟩
  · rintro ⟨parts, hread, hdigits, hrange, h⟩
    refine except_bind_eq_ok.2 ⟨_, (parseNumberText_iff isNegative hlen hrange).2 ⟨parts, hread, rfl, rfl⟩, ?_⟩
    rw [hsign hread] at h
    obtain ⟨hlow, hhigh⟩ := hrange
    exact (if_neg (by rw [not_or, not_or, not_lt, not_lt, not_lt]; exact ⟨hdigits, hlow, hhigh⟩)).trans h

/-- What the encoder accepts has a value, and the digits it encodes are the significant ones of the text. -/
theorem encodeNumberText_eq_ok_iff {wire : List UInt8} :
    encodeNumberText text = .ok wire ↔ text ≠ [] ∧ text.length ≤ numberAsTextChars ∧
      ∃ parts, readDecimalText text = some parts ∧ parts.significant.length ≤ numberMaxDigits ∧ parts.InRange ∧
        encodeDigits parts.isNegative parts.significant parts.pointIndex = .ok wire := by
  unfold encodeNumberText
  by_cases hnil : text = []
  · rw [if_pos hnil]
    exact ⟨(by cases ·), fun h => absurd hnil h.1⟩
  by_cases hlong : numberAsTextChars < text.length
  · rw [if_neg hnil, if_pos hlong]
    exact ⟨(by cases ·), fun h => absurd h.2.1 (not_le.2 hlong)⟩
  have hlen : text.length ≤ numberAsTextChars := not_lt.1 hlong
  rw [if_neg hnil, if_neg hlong]
  simp only [ne_eq, hnil, not_false_eq_true, hlen, true_and]
  split
  · exact encodeUnsigned_eq_ok_iff true (le_trans (Nat.le_succ _) hlen)
  · rename_i hminus
    rw [readDecimalText.eq_2 text hminus]
    exact encodeUnsigned_eq_ok_iff false hlen

private theorem spanFraction_lt {digit : Nat} (h : digit ∈ (spanFraction text).1) : digit < 10 := by
  unfold spanFraction at h
  split at h
  · exact spanDigits_lt h
  · cases h

private theorem head_trimZeros (h : digits.head? ≠ some 0) : (trimZeros digits).head? ≠ some 0 := by
  obtain ⟨n, hn⟩ := trimZeros_append_zeros digits
  cases htrim : trimZeros digits with
  | nil => simp
  | cons first rest =>
    rw [hn, htrim] at h
    exact h

private theorem getLast_trimZeros (digits : List Nat) : (trimZeros digits).getLast? ≠ some 0 := by
  rw [trimZeros, ← dropZeros, List.getLast?_reverse]
  exact head_dropZeros _

theorem DecimalText.significant_facts {parts : DecimalText} (h : readDecimalText text = some parts) :
    (∀ digit ∈ parts.significant, digit < 10) ∧ parts.significant.head? ≠ some 0 ∧
      parts.significant.getLast? ≠ some 0 := by
  refine ⟨fun digit hdigit => ?_, head_trimZeros (head_dropZeros _), getLast_trimZeros _⟩
  have hmem : digit ∈ parts.whole ++ parts.fraction := by
    obtain ⟨n, hn⟩ := trimZeros_append_zeros (dropZeros (parts.whole ++ parts.fraction))
    refine mem_of_mem_dropZeros ?_
    rw [hn]
    exact List.mem_append_left _ hdigit
  obtain ⟨isNegative, rest, hread⟩ : ∃ isNegative rest, readUnsigned isNegative rest = some parts := by
    unfold readDecimalText at h
    split at h <;> exact ⟨_, _, h⟩
  rw [readUnsigned_eq] at hread
  obtain ⟨exponent, -, rfl⟩ := Option.map_eq_some_iff.1 hread
  rcases List.mem_append.1 hmem with hmem | hmem
  · exact spanDigits_lt hmem
  · exact spanFraction_lt hmem

/-- An accepted text is decoded to a text of the same number exactly when its digits fit. -/
theorem decodeNumberTextInto_encodeNumberText_iff {text wire : List UInt8} (h : encodeNumberText text = .ok wire) :
    (∃ decoded isInteger, decodeNumberTextInto wire = .ok (decoded, isInteger) ∧ (textValue text).isSome ∧
      textValue (textBytes decoded) = textValue text) ↔
    ∀ parts, readDecimalText text = some parts → ¬parts.Overlong := by
  obtain ⟨-, -, parts, hread, hlen, ⟨hlow, hhigh⟩, hencode⟩ := encodeNumberText_eq_ok_iff.1 h
  obtain ⟨hdigits, hfirst, hlast⟩ := DecimalText.significant_facts hread
  have hvalue : textValue text = some parts.value := by rw [textValue, hread, Option.map_some]
  rw [hvalue]
  simp only [hread, Option.some.injEq, forall_eq']
  rw [DecimalText.value_eq] at hvalue ⊢
  by_cases hnil : parts.significant = []
  · -- zero has a wire form of its own
    rw [hnil, encodeDigits_nil] at hencode
    cases hencode
    refine ⟨fun _ hlong => ?_, fun _ => ⟨"0", true, rfl, rfl, ?_⟩⟩
    · rw [DecimalText.Overlong, hnil] at hlong
      cases hlong.1
    · have hbytes : textBytes "0" = [digitByte 0] := by decide
      have hzero : textValue [digitByte 0] = some (DecimalText.ofDigits false [0] 1) := rfl
      rw [hbytes, hzero, hnil, DecimalText.ofDigits_eq_zero (by simp), DecimalText.ofDigits_eq_zero (by simp)]
  have hdecode := decodeNumberParts_encodeDigits hdigits hnil hfirst hlast hlow hhigh hencode
  rw [DecimalText.Overlong, ← length_packedDigits_le_iff hlen]
  by_cases hfits : (packedDigits parts.significant parts.pointIndex).length ≤ numberMaxDigits
  · rw [if_pos hfits] at hdecode
    have hdecoded : decodeNumberTextInto wire =
        .ok (String.ofList (formatNumberDigits parts.significant parts.isNegative parts.pointIndex),
          isIntegral parts.significant parts.pointIndex) := by
      rw [decodeNumberTextInto, hdecode]
      rfl
    exact ⟨fun _ => hfits, fun _ => ⟨_, _, hdecoded, rfl, textValue_formatNumberDigits _ _ hdigits⟩⟩
  · rw [if_neg hfits] at hdecode
    refine ⟨?_, fun h => absurd h hfits⟩
    rintro ⟨decoded, isInteger, hdecoded, -⟩
    rw [decodeNumberTextInto, hdecode] at hdecoded
    cases hdecoded

/-- Leading and trailing zeros and an exponent. -/
theorem decodeNumberTextInto_trailingZeros :
    ∃ wire, encodeNumberText (textBytes "-0012.3400e-5") = .ok wire ∧
      ∃ decoded isInteger, decodeNumberTextInto wire = .ok (decoded, isInteger) ∧
        (textValue (textBytes "-0012.3400e-5")).isSome ∧
        textValue (textBytes decoded) = textValue (textBytes "-0012.3400e-5") := by
  have hencode : encodeNumberText (textBytes "-0012.3400e-5") = .ok [64, 100, 78, 61, 102] := by decide +kernel
  have hread : readDecimalText (textBytes "-0012.3400e-5") = some ⟨true, [0, 0, 1, 2], [3, 4, 0, 0], -5⟩ := by
    decide +kernel
  refine ⟨_, hencode, (decodeNumberTextInto_encodeNumberText_iff hencode).2 fun parts hparts => ?_⟩
  cases hparts
  decide

/-- A text of forty digits with the point behind the first one is encoded with a mantissa of twenty-one bytes. -/
theorem decodeNumberTextInto_fortyDigits :
    ∃ wire, encodeNumberText (textBytes "1.234567890123456789012345678901234567891") = .ok wire ∧
      decodeNumberTextInto wire = .error (.ttcDecode "encoded NUMBER too long") := by
  refine ⟨[193, 2, 24, 46, 68, 90, 2, 24, 46, 68, 90, 2, 24, 46, 68, 90, 2, 24, 46, 68, 90, 11], ?_, rfl⟩
  decide +kernel

/-! ### The texts that are accepted -/

/-- The parts of a text with a sign of either kind. -/
def readSigned : List UInt8 → Option DecimalText
  | 43 :: rest => readUnsigned false rest
  | text => readDecimalText text

/-- The text is a decimal literal of zero, or of a number of at most forty digits in the range. -/
def IsRepresentable (text : List UInt8) : Prop :=
  ∃ parts, readSigned text = some parts ∧ parts.whole ++ parts.fraction ≠ [] ∧
    (parts.significant = [] ∨ parts.significant.length ≤ numberMaxDigits ∧ parts.InRange)

/-- The text is empty, too long or has a plus sign. -/
def IsRefused (text : List UInt8) : Prop := text = [] ∨ numberAsTextChars < text.length ∨ text.head? = some 43

private theorem readDecimalText_eq (text : List UInt8) :
    readDecimalText text = if text.head? = some 43 then none else readSigned text := by
  split
  · obtain ⟨rest, rfl⟩ := List.head?_eq_some_iff.1 ‹_›
    rfl
  · unfold readSigned
    split
    · simp at *
    · rfl

private theorem exists_encodeNumberText_iff :
    (∃ wire, encodeNumberText text = .ok wire) ↔ ¬IsRefused text ∧
      ∃ parts, readSigned text = some parts ∧ parts.significant.length ≤ numberMaxDigits ∧ parts.InRange := by
  simp only [encodeNumberText_eq_ok_iff, readDecimalText_eq, IsRefused]
  have hencode {parts : DecimalText} (h : parts.InRange) :
      ∃ wire, encodeDigits parts.isNegative parts.significant parts.pointIndex = .ok wire := by
    by_cases hnil : parts.significant = []
    · exact ⟨_, by rw [hnil]; exact encodeDigits_nil _ _⟩
    · exact ⟨_, encodeDigits_eq parts.isNegative hnil h.1 h.2⟩
  constructor
  · rintro ⟨wire, hnil, hlen, parts, hread, hdigits, hrange, -⟩
    split at hread
    · cases hread
    · exact ⟨by simp_all, parts, hread, hdigits, hrange⟩
  · rintro ⟨hform, parts, hread, hdigits, hrange⟩
    obtain ⟨wire, hwire⟩ := hencode hrange
    rw [not_or, not_or, not_lt] at hform
    exact ⟨wire, hform.1, hform.2.1, parts, by rw [if_neg hform.2.2, hread], hdigits, hrange, hwire⟩

/-- The encoder accepts the representable literals and no other texts, except that it refuses some literals for their
form and zeros with a large exponent, and that it takes a text without digits for zero. -/
theorem encodeNumberText_accepts_iff (text : List UInt8) :
    ((∃ wire, encodeNumberText text = .ok wire) ↔ IsRepresentable text) ↔
      ∀ parts, readSigned text = some parts →
        (parts.whole ++ parts.fraction ≠ [] →
          parts.significant = [] ∨ parts.significant.length ≤ numberMaxDigits ∧ parts.InRange →
          ¬IsRefused text ∧ parts.InRange) ∧
        (parts.whole ++ parts.fraction = [] → IsRefused text ∨ ¬parts.InRange) := by
  rw [exists_encodeNumberText_iff, IsRepresentable]
  cases readSigned text with
  | none => simp
  | some parts =>
    have hempty : parts.whole ++ parts.fraction = [] → parts.significant = [] := fun h => by
      rw [DecimalText.significant, h]
      rfl
    have hzero : parts.significant = [] → parts.significant.length ≤ numberMaxDigits := fun h => by
      rw [h]
      decide
    simp only [Option.some.injEq, exists_eq_left', forall_eq']
    tauto

/-- A literal with a plus sign, a zero with a large exponent, and a point without digits. -/
theorem encodeNumberText_accepts_fails :
    (IsRepresentable (textBytes "+5") ∧
      encodeNumberText (textBytes "+5") = .error (.ttcDecode "invalid NUMBER bind")) ∧
    (IsRepresentable (textBytes "0e500") ∧
      encodeNumberText (textBytes "0e500") = .error (.ttcDecode "NUMBER bind out of range")) ∧
    ¬IsRepresentable (textBytes ".") ∧ encodeNumberText (textBytes ".") = .ok [128] := by
  refine ⟨⟨⟨⟨false, [5], [], 0⟩, by decide, by decide, .inr ⟨by decide, by decide, by decide⟩⟩, by decide⟩,
    ⟨⟨⟨false, [0], [], 500⟩, by decide, by decide, .inl (by decide)⟩, by decide⟩, ?_, by decide⟩
  rintro ⟨parts, hread, hdigits, -⟩
  cases hread
  exact hdigits rfl

end OracleThin.Ttc

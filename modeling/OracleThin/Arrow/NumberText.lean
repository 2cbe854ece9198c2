import OracleThin.Arrow.Builders
import OracleThin.Ttc.NumberAgree

/-!
# The text of an owned NUMBER

A borrowed NUMBER is a text. As an owned value it is a coefficient and a scale, whose text is another one in two
cases: zeros in front of the other digits are lost, and a zero with a fraction becomes a plain zero. So a text whose
digits the two decoders of NUMBERs write alike is kept.
-/

namespace OracleThin.Arrow

open Lib Wire Ttc

variable {digits : List Nat}

/-- A text with the given digits before and behind the point. -/
def spelled (isNegative : Bool) (whole fraction : List Nat) : List Char :=
  (if isNegative then ['-'] else []) ++ (whole.map digitChar ++
    if fraction = [] then [] else '.' :: fraction.map digitChar)

/-- The digits before the point without leading zeros, but at least one. -/
def leading (whole : List Nat) : List Nat := if dropZeros whole = [] then [0] else dropZeros whole

def signed (isNegative : Bool) (n : Nat) : Int := if isNegative then -n else n

/-! ### What the formatter writes -/

variable {whole fraction : List Nat} {isNegative : Bool}

theorem unsignedText_dropZeros (hne : dropZeros (whole ++ fraction) ≠ []) :
    unsignedText (dropZeros (whole ++ fraction)) ((dropZeros (whole ++ fraction)).length - fraction.length) =
      (leading whole).map digitChar ++ if fraction = [] then [] else '.' :: fraction.map digitChar := by
  rw [← dropZeros_dropZeros_append] at hne ⊢
  cases hwhole : dropZeros whole with
  | nil =>
    -- The zeros in front of the fraction are written behind the point.
    rw [hwhole, List.nil_append] at hne
    obtain ⟨n, hn⟩ := exists_zeros_append_dropZeros fraction
    have hlen : fraction.length = n + (dropZeros fraction).length := by
      rw [hn, List.length_append, List.length_replicate, ← hn]
    have hfraction : fraction ≠ [] := by
      rintro rfl
      exact hne rfl
    have hcount : (-(((dropZeros fraction).length : Int) - fraction.length)).toNat = n := by omega
    have hzeros : (List.replicate n 0).map digitChar = List.replicate n '0' := List.map_replicate ..
    have hmap : fraction.map digitChar = List.replicate n '0' ++ (dropZeros fraction).map digitChar := by
      rw [← hzeros, ← List.map_append, ← hn]
    rw [List.nil_append, leading, if_pos hwhole, if_neg hfraction, unsignedText, if_pos (by omega), hcount, hmap]
    rfl
  | cons first rest =>
    have hhead : (first :: rest ++ fraction).head? ≠ some 0 := by
      have h := head_dropZeros whole
      rw [hwhole] at h
      simpa using h
    have hlen : (((first :: rest ++ fraction).length : Nat) : Int) - fraction.length = (first :: rest).length := by
      rw [List.length_append]
      omega
    rw [dropZeros_of_head hhead, hlen, leading, hwhole, if_neg (List.cons_ne_nil _ _)]
    by_cases hfraction : fraction = []
    · subst hfraction
      rw [List.append_nil, unsignedText_of_le le_rfl (by simp), Int.sub_self]
      simp
    · have hpos := List.length_pos_iff.2 hfraction
      rw [if_neg hfraction, unsignedText_of_lt (by simp) (by rw [List.length_append]; omega), Int.toNat_natCast,
        List.take_left, List.drop_left]

theorem fmtInlineInto_signed (hten : ∀ digit ∈ whole ++ fraction, digit < 10)
    (hne : decimal (whole ++ fraction) ≠ 0) :
    OracleNumber.fmtInlineInto (signed isNegative (decimal (whole ++ fraction))) fraction.length =
      spelled isNegative (leading whole) fraction := by
  have hdigits : (Nat.digits 10 (decimal (whole ++ fraction))).reverse = dropZeros (whole ++ fraction) := by
    rw [← decimal_dropZeros]
    exact digits_decimal (fun digit hdigit => hten digit (mem_of_mem_dropZeros hdigit)) (head_dropZeros _)
  have hdrop : dropZeros (whole ++ fraction) ≠ [] := by
    intro hnil
    rw [← decimal_dropZeros, hnil] at hne
    exact hne rfl
  rw [signed, fmtInlineInto_eq isNegative hne, ← List.length_reverse, hdigits, formatNumberDigits_eq,
    unsignedText_dropZeros hdrop]
  rfl

/-- Zeros at the end of an integer are written from the scale. -/
theorem fmtInlineInto_trimIntegerZeros (isNegative : Bool) (fuel : Nat) {n : Nat} (hn : n ≠ 0) {scale : Int}
    (hscale : scale ≤ 0) :
    ∃ m scale', trimIntegerZeros fuel (signed isNegative n) scale = (signed isNegative m, scale') ∧ m ≠ 0 ∧
      OracleNumber.fmtInlineInto (signed isNegative m) scale' =
        OracleNumber.fmtInlineInto (signed isNegative n) scale := by
  induction fuel generalizing n scale with
  | zero => exact ⟨n, scale, rfl, hn, rfl⟩
  | succ fuel ih =>
    by_cases hmod : n % 10 = 0
    · obtain ⟨k, rfl⟩ : ∃ k, n = 10 * k := ⟨n / 10, by omega⟩
      have hk : k ≠ 0 := by omega
      have hstep : trimIntegerZeros (fuel + 1) (signed isNegative (10 * k)) scale =
          trimIntegerZeros fuel (signed isNegative k) (scale - 1) := by
        have hrem : (signed isNegative (10 * k)).tmod 10 = 0 := by
          cases isNegative <;> simp [signed]
        have hquot : (signed isNegative (10 * k)).tdiv 10 = signed isNegative k := by
          cases isNegative <;> simp [signed]
        rw [trimIntegerZeros, if_pos hrem, hquot]
      obtain ⟨m, scale', htrim, hm, hfmt⟩ := ih hk (show scale - 1 ≤ 0 by omega)
      refine ⟨m, scale', hstep.trans htrim, hm, hfmt.trans ?_⟩
      have hdigits : Nat.digits 10 (10 * k) = 0 :: Nat.digits 10 k := by
        have h := Nat.digits_add_two_add_one 8 (10 * k - 1)
        rw [Nat.sub_add_cancel (by omega)] at h
        rw [h]
        simp
      have hlen : ((Nat.digits 10 k).reverse ++ [0]).length = (Nat.digits 10 k).length + 1 := by simp
      have hcount : (((Nat.digits 10 k).length : Int) - (scale - 1) - (Nat.digits 10 k).reverse.length).toNat =
          ((((Nat.digits 10 k).length + 1 : Nat) : Int) - scale -
            ((Nat.digits 10 k).reverse ++ [0]).length).toNat + 1 := by
        rw [List.length_reverse, hlen]
        omega
      unfold signed
      rw [fmtInlineInto_eq isNegative hk, fmtInlineInto_eq isNegative hn, hdigits, formatNumberDigits_eq,
        formatNumberDigits_eq, List.reverse_cons, List.length_cons,
        unsignedText_of_le (by rw [List.length_reverse]; omega) (by omega),
        unsignedText_of_le (by rw [hlen]; omega) (by omega), hcount, List.replicate_succ, List.map_append,
          List.append_assoc]
      rfl
    · have hrem : (signed isNegative n).tmod 10 ≠ 0 := by
        intro hzero
        have hdvd : (10 : Int) ∣ signed isNegative n := Int.dvd_of_tmod_eq_zero hzero
        unfold signed at hdvd
        split at hdvd <;> omega
      refine ⟨n, scale, ?_, hn, rfl⟩
      rw [trimIntegerZeros, if_neg hrem]

/-! ### What the parser of canonical texts reads -/

private theorem digitChar_wire {digit : Nat} (h : digit < 26) :
    digitChar digit ≠ '.' ∧ digitChar digit ≠ '-' ∧
      charDigit (digitChar digit) = if digit < 10 then some digit else none := by
  have hall : ∀ d : Fin 26, digitChar d ≠ '.' ∧ digitChar d ≠ '-' ∧
      charDigit (digitChar d) = if d.val < 10 then some d.val else none := by decide
  exact hall ⟨digit, h⟩

theorem splitOnce_point (h : ∀ digit ∈ whole, digit < 26) {suffix : List Char}
    (hsuffix : suffix = [] ∧ fraction = [] ∨ suffix = '.' :: fraction.map digitChar) :
    (whole.map digitChar ++ suffix).takeWhile (· ≠ '.') = whole.map digitChar ∧
      ((whole.map digitChar ++ suffix).dropWhile (· ≠ '.')).drop 1 = fraction.map digitChar := by
  have hall : ∀ c ∈ whole.map digitChar, (decide (c ≠ '.')) = true := by
    intro c hc
    obtain ⟨digit, hdigit, rfl⟩ := List.mem_map.1 hc
    exact decide_eq_true (digitChar_wire (h digit hdigit)).1
  rw [List.takeWhile_append_of_pos hall, List.dropWhile_append_of_pos hall]
  rcases hsuffix with ⟨rfl, rfl⟩ | rfl <;> simp

theorem mapM_charDigit (h : ∀ digit ∈ digits, digit < 26) :
    (digits.map digitChar).mapM charDigit = if ∀ digit ∈ digits, digit < 10 then some digits else none := by
  induction digits with
  | nil => rfl
  | cons digit digits ih =>
    rw [List.map_cons, List.mapM_cons, (digitChar_wire (h digit (by simp))).2.2,
      ih fun d hd => h d (List.mem_cons_of_mem _ hd)]
    by_cases hten : digit < 10
    · simp only [hten, if_true, List.forall_mem_cons, true_and]
      split <;> rfl
    · simp [hten]

theorem parseCanonicalInline_eq {rest : List Char} (h : rest.head? ≠ some '-') :
    parseCanonicalInline ((if isNegative then ['-'] else []) ++ rest) = readCanonical isNegative rest := by
  cases isNegative with
  | true => rfl
  | false =>
    simp only [Bool.false_eq_true, if_false, List.nil_append]
    exact parseCanonicalInline.eq_2 rest fun tail htail => h (by rw [htail]; rfl)

theorem checkedI128_signed {n : Nat} (h : n < i128Bound) :
    checkedI128 (if isNegative then -(n : Int) else n) = some (signed isNegative n) := by
  have hcast : (n : Int) < 2 ^ 127 := by exact_mod_cast h
  rw [checkedI128, if_pos]
  · rfl
  · split <;> omega

/-- The parser on digits and a suffix that is empty or begins with a point. -/
theorem readCanonical_spelled {suffix : List Char} (hne : whole ≠ [])
    (hwire : ∀ digit ∈ whole ++ fraction, digit < 26)
    (hsuffix : suffix = [] ∧ fraction = [] ∨ suffix = '.' :: fraction.map digitChar) :
    readCanonical isNegative (whole.map digitChar ++ suffix) =
      if (∀ digit ∈ whole ++ fraction, digit < 10) ∧ decimal (whole ++ fraction) < i128Bound ∧
        fraction.length < 2 ^ 15 ∧
          ¬(decimal (whole ++ fraction) = 0 ∧ fraction = []) then
        some (if fraction = [] then trimIntegerZeros 39 (signed isNegative (decimal (whole ++ fraction))) 0
          else (signed isNegative (decimal (whole ++ fraction)), (fraction.length : Int)))
      else none := by
  obtain ⟨htake, hdrop⟩ := splitOnce_point (fun d hd => hwire d (List.mem_append_left _ hd)) hsuffix
  have hrest : whole.map digitChar ++ suffix ≠ [] := by simp [hne]
  unfold readCanonical
  rw [if_neg hrest]
  simp only [htake, hdrop, ← List.map_append, List.length_map, mapM_charDigit hwire]
  by_cases hten : ∀ digit ∈ whole ++ fraction, digit < 10
  · rw [if_pos hten, Option.bind_eq_bind, Option.bind_some, foldlM_pushDigit]
    by_cases hsmall : decimal (whole ++ fraction) < i128Bound
    · have hzero : signed isNegative (decimal (whole ++ fraction)) = 0 ↔ decimal (whole ++ fraction) = 0 := by
        unfold signed
        split <;> omega
      have hlen : (fraction.length : Int) = 0 ↔ fraction = [] := by
        rw [← List.length_eq_zero_iff]
        omega
      have hlong : (2 : Int) ^ 15 ≤ fraction.length ↔ ¬fraction.length < 2 ^ 15 := by omega
      rw [if_pos hsmall, Option.bind_eq_bind, Option.bind_some, checkedI128_signed hsmall, Option.bind_some]
      simp only [hzero, hlen, hlong]
      by_cases hshort : fraction.length < 2 ^ 15
      · by_cases hplain : decimal (whole ++ fraction) = 0 ∧ fraction = []
        · rw [if_neg (not_not.2 hshort), if_pos hplain]
          exact (if_neg fun h => h.2.2.2 hplain).symm
        · rw [if_neg (not_not.2 hshort), if_neg hplain]
          refine Eq.trans ?_ (if_pos ⟨hten, hsmall, hshort, hplain⟩).symm
          split <;> rfl
      · rw [if_pos hshort]
        exact (if_neg fun h => hshort h.2.2.1).symm
    · rw [if_neg hsmall]
      exact (if_neg fun h => hsmall h.2.1).symm
  · rw [if_neg hten]
    exact (if_neg fun h => hten h.1).symm

/-! ### Texts from the wire -/

/-- The text of an owned NUMBER that was made from a text. -/
def restated (text : List Char) : List Char :=
  match parseCanonicalInline text with
  | some (coefficient, scale) => OracleNumber.fmtInlineInto coefficient scale
  | none => text

theorem fmtInto_fromCanonicalTextWithFlag (text : String) (isInteger : Bool) :
    (OracleNumber.fromCanonicalTextWithFlag text isInteger).fmtInto = String.ofList (restated text.toList) := by
  unfold OracleNumber.fromCanonicalTextWithFlag restated
  cases parseCanonicalInline text.toList <;> simp [OracleNumber.fmtInto]

theorem leading_eq (rest : List Nat) (hne : whole ≠ []) (h : whole.length ≤ 1 ∨ (whole ++ rest).head? ≠ some 0) :
    leading whole = whole := by
  obtain ⟨first, tail, rfl⟩ := List.exists_cons_of_ne_nil hne
  by_cases hfirst : first = 0
  · subst hfirst
    obtain rfl : tail = [] := by simpa using h
    rfl
  · rw [leading, dropZeros_of_head (by simpa using hfirst), if_neg hne]

/-- A text whose digits both decoders write alike is kept by an owned NUMBER. -/
theorem restated_formatNumberDigits {point : Int} (hwire : ∀ digit ∈ digits, digit < 26)
    (h : WrittenAlike digits isNegative point) :
    restated (formatNumberDigits digits isNegative point) = formatNumberDigits digits isNegative point := by
  by_cases hzero : decimal digits = 0
  · rw [WrittenAlike, hzero, if_neg (by decide), if_pos rfl] at h
    obtain ⟨hpositive, hlen, rfl⟩ := h
    obtain rfl : isNegative = false := by simpa using hpositive
    rw [decimal_eq_zero_iff] at hzero
    match digits, hlen, hzero with
    | [], _, _ => decide
    | [digit], _, hzero =>
      rw [hzero digit (by simp)]
      decide
  obtain ⟨whole, fraction, suffix, m, htext, hsuffix, hne, hpoint, hsplit, hlen, hm⟩ :=
    unsignedText_parts digits point
  have hformat : formatNumberDigits digits isNegative point =
      (if isNegative then ['-'] else []) ++ (whole.map digitChar ++ suffix) := by rw [formatNumberDigits_eq, htext]
  have hle : decimal digits ≤ decimal (whole ++ fraction) := by
    rw [hsplit, decimal_append, decimal_append, decimal_replicate_zero, decimal_replicate_zero, Nat.zero_mul,
      Nat.zero_add,
      Nat.add_zero]
    exact Nat.le_mul_of_pos_right _ (by positivity)
  replace hwire : ∀ digit ∈ whole ++ fraction, digit < 26 := fun digit hdigit => by
    rcases mem_of_mem_zeros (hsplit ▸ hdigit) with rfl | hdigit
    · decide
    · exact hwire digit hdigit
  have hhead : (whole.map digitChar ++ suffix).head? ≠ some '-' := by
    obtain ⟨first, rest, rfl⟩ := List.exists_cons_of_ne_nil hne
    simpa using (digitChar_wire (hwire first (by simp))).2.1
  unfold restated
  rw [hformat, parseCanonicalInline_eq hhead, readCanonical_spelled hne hwire hsuffix]
  split
  · rename_i coefficient scale hparse
    obtain ⟨⟨hten, hsmall, -, -⟩, hvalue⟩ := Option.ite_none_right_eq_some.1 hparse
    have hne' : decimal (whole ++ fraction) ≠ 0 := by omega
    rw [WrittenAlike, if_neg (not_le.2 (lt_of_le_of_lt hle hsmall)), if_neg hzero] at h
    have hwhole : leading whole = whole := by
      refine leading_eq fraction hne ?_
      rcases hm with rfl | rfl
      · rcases h.2.2 with hhead | hpoint
        · refine Or.inr ?_
          obtain ⟨first, rest, rfl⟩ := List.exists_cons_of_ne_nil (show digits ≠ [] by rintro rfl; exact hzero rfl)
          rw [hsplit]
          simpa using hhead
        · exact Or.inl (by omega)
      · exact Or.inl le_rfl
    have hspelled : spelled isNegative whole fraction =
        (if isNegative then ['-'] else []) ++ (whole.map digitChar ++ suffix) := by
      rw [spelled]
      rcases hsuffix with ⟨rfl, rfl⟩ | rfl
      · rfl
      · by_cases hnil : fraction = []
        · rcases hpoint hnil with hsuffix | rfl
          · cases hsuffix
          · exact absurd (by rw [hnil]; rfl) hne'
        · rw [if_neg hnil]
    rw [← hspelled, ← hwhole, ← fmtInlineInto_signed hten hne']
    by_cases hnil : fraction = []
    · obtain ⟨m', scale', htrim, -, hfmt⟩ := fmtInlineInto_trimIntegerZeros isNegative 39 hne' le_rfl
      rw [if_pos hnil, htrim] at hvalue
      obtain ⟨rfl, rfl⟩ := Prod.mk.inj (Option.some.inj hvalue)
      rw [hfmt, hnil]
      rfl
    · rw [if_neg hnil] at hvalue
      obtain ⟨rfl, rfl⟩ := Prod.mk.inj (Option.some.inj hvalue)
      rfl
  · rfl

/-- What both decoders make of a NUMBER whose digits they write alike: an owned NUMBER with the borrowed text, which
the owned form of that text keeps. -/
theorem fromWire_agree {bytes : List UInt8} (h : WireAlike bytes) :
    Agree (fun (written : String × Bool) (number : OracleNumber) => number.fmtInto = written.1 ∧
      (OracleNumber.fromCanonicalTextWithFlag written.1 written.2).fmtInto = written.1)
      (decodeNumberTextInto bytes) (OracleNumber.fromWire bytes) := by
  match bytes, h with
  | [], _ => trivial
  | first :: rest, h =>
    by_cases hnil : rest = []
    · subst hnil
      refine ⟨rfl, ?_⟩
      rw [fmtInto_fromCanonicalTextWithFlag]
      dsimp only
      split <;> decide
    by_cases hlong : 20 < rest.length
    · have hbytes : 21 < (first :: rest).length := by
        rw [List.length_cons]
        omega
      rw [OracleNumber.fromWire, decodeNumberPartsStack_of_long hbytes, decodeNumberTextInto,
        decodeNumberParts_of_long hbytes]
      exact trivial
    · have halike := (h.resolve_left hnil).resolve_left hlong
      have hlt : ∀ digit ∈ spelledDigits (mantissaValues first rest), digit < 26 := fun _ => spelledDigits_lt
      have howned := decodeOwnedText_cons first hnil (not_lt.1 hlong)
      rw [decodeNumberTextInto_cons first hnil (not_lt.1 hlong)]
      rw [(ownedText_eq_iff hlt _ _).2 halike] at howned
      obtain ⟨number, hnumber, hpair⟩ := except_bind_eq_ok.1 howned
      rw [hnumber]
      refine ⟨congrArg Prod.fst (Except.ok.inj hpair), ?_⟩
      rw [fmtInto_fromCanonicalTextWithFlag, String.toList_ofList, restated_formatNumberDigits hlt halike]

/-! ### What the conversions read -/

private theorem digitChar_ten {digit : Nat} (h : digit < 10) :
    (digitChar digit).isDigit ∧ charValue (digitChar digit) = digit ∧ (digitChar digit = '0' ↔ digit = 0) ∧
      (digitChar digit == 'e' || digitChar digit == 'E') = false := by
  have hall : ∀ d : Fin 10, (digitChar d).isDigit ∧ charValue (digitChar d) = d ∧ (digitChar d = '0' ↔ d.val = 0) ∧
      (digitChar d == 'e' || digitChar d == 'E') = false := by decide
  exact hall ⟨digit, h⟩

theorem all_isDigit (h : ∀ digit ∈ digits, digit < 10) :
    ∀ c ∈ digits.map digitChar, c.isDigit := by
  intro c hc
  obtain ⟨digit, hdigit, rfl⟩ := List.mem_map.1 hc
  exact (digitChar_ten (h digit hdigit)).1

theorem map_charValue (h : ∀ digit ∈ digits, digit < 10) :
    (digits.map digitChar).map charValue = digits := by
  rw [List.map_map]
  exact (List.map_congr_left fun digit hdigit => (digitChar_ten (h digit hdigit)).2.1).trans (List.map_id digits)

theorem hasExponent_sign (isNegative : Bool) (rest : List Char) :
    hasExponent ((if isNegative then ['-'] else []) ++ rest) = hasExponent rest := by
  cases isNegative <;> rfl

theorem dropWhile_digitChar (h : ∀ digit ∈ digits, digit < 10) :
    (digits.map digitChar).dropWhile (· = '0') = (dropZeros digits).map digitChar := by
  induction digits with
  | nil => rfl
  | cons digit digits ih =>
    have hzero := (digitChar_ten (h digit (List.mem_cons_self ..))).2.2.1
    by_cases hdigit : digit = 0
    · simp_all [dropZeros]
    · simp_all [dropZeros]

section

variable {suffix : List Char} (hwhole : ∀ digit ∈ whole, digit < 10) (hfraction : ∀ digit ∈ fraction, digit < 10)
  (hsuffix : suffix = [] ∧ fraction = [] ∨ suffix = '.' :: fraction.map digitChar)
include hwhole hsuffix

theorem head_digits : (whole.map digitChar ++ suffix).head? ≠ some '-' := by
  cases whole with
  | nil => rcases hsuffix with ⟨rfl, -⟩ | rfl <;> simp
  | cons digit whole => simpa using (digitChar_wire (lt_trans (hwhole digit (by simp)) (by decide : 10 < 26))).2.1

include hfraction

theorem hasExponent_digits : hasExponent (whole.map digitChar ++ suffix) = false := by
  have hmark {digits : List Nat} (h : ∀ digit ∈ digits, digit < 10) : hasExponent (digits.map digitChar) = false := by
    rw [hasExponent, List.any_map, List.any_eq_false]
    exact fun digit hdigit => by simpa using (digitChar_ten (h digit hdigit)).2.2.2
  have hnone := hmark hwhole
  have hbehind := hmark hfraction
  unfold hasExponent at hnone hbehind ⊢
  rw [List.any_append, hnone]
  rcases hsuffix with ⟨rfl, -⟩ | rfl
  · rfl
  · rw [List.any_cons, hbehind]
    rfl

theorem decimal128FromNumberText_digits (hne : whole ++ fraction ≠ []) (scale : Int) {unscaled : Nat}
    (hunscaled : unscaled = decimal (whole ++ fraction ++ List.replicate ((max scale 0).toNat - fraction.length) 0)) :
    decimal128FromNumberText ((if isNegative then ['-'] else []) ++ (whole.map digitChar ++ suffix)) scale =
      if fraction.length ≤ (max scale 0).toNat ∧ unscaled < 10 ^ 38 then some (signed isNegative unscaled)
      else none := by
  have hread : readDecimal128 isNegative (whole.map digitChar ++ suffix) scale =
      if fraction.length ≤ (max scale 0).toNat ∧ unscaled < 10 ^ 38 then some (signed isNegative unscaled)
      else none := by
    obtain ⟨htake, hdrop⟩ := splitOnce_point (fun d hd => lt_trans (hwhole d hd) (by decide : 10 < 26)) hsuffix
    have hsome : ¬(whole.map digitChar = [] ∧ fraction.map digitChar = []) := by simpa using hne
    generalize hplaces : (max scale 0).toNat - fraction.length = n at hunscaled
    have hdigits : whole.map digitChar ++ fraction.map digitChar ++ List.replicate n '0' =
        (whole ++ fraction ++ List.replicate n 0).map digitChar := by
      simp only [List.map_append, List.map_replicate]
      rfl
    have hlt : ∀ digit ∈ whole ++ fraction ++ List.replicate n 0, digit < 10 := by
      simp only [List.mem_append, List.mem_replicate]
      rintro digit ((hdigit | hdigit) | ⟨-, rfl⟩)
      · exact hwhole digit hdigit
      · exact hfraction digit hdigit
      · decide
    have hlong : (dropZeros (whole ++ fraction ++ List.replicate n 0)).length ≤ 38 ↔ unscaled < 10 ^ 38 := by
      rw [← digits_decimal (fun digit hdigit => hlt digit (mem_of_mem_dropZeros hdigit)) (head_dropZeros _),
        List.length_reverse, decimal_dropZeros, Nat.digits_length_le_iff (by decide), hunscaled]
    unfold readDecimal128
    simp only [htake, hdrop, hsome, List.all_eq_true.2 (all_isDigit hwhole),
      List.all_eq_true.2 (all_isDigit hfraction),
      if_false, List.length_map, hplaces, hdigits, and_self, not_true_eq_false]
    rw [dropWhile_digitChar hlt, List.length_map, map_charValue hlt, foldlM_pushDigit, ← hunscaled]
    by_cases hscale : fraction.length ≤ (max scale 0).toNat
    · by_cases hsmall : unscaled < 10 ^ 38
      · have hbound : unscaled < i128Bound := lt_trans hsmall (by decide)
        rw [if_neg (by omega), if_neg (by omega), if_pos hbound, if_pos ⟨hscale, hsmall⟩]
        rfl
      · rw [if_neg (by omega), if_pos (by omega)]
        simp only [hsmall, and_false, if_false]
        rfl
    · rw [if_pos (by omega)]
      simp only [hscale, false_and, if_false]
      rfl
  rw [← hread]
  unfold decimal128FromNumberText
  rw [hasExponent_sign, hasExponent_digits hwhole hfraction hsuffix]
  cases isNegative with
  | true => rfl
  | false =>
    simp only [Bool.false_eq_true, if_false, List.nil_append]
    split
    · exact absurd (congrArg List.head? ‹_›) (head_digits hwhole hsuffix)
    · rfl

end

theorem spelled_suffix (fraction : List Nat) :
    (if fraction = [] then [] else '.' :: fraction.map digitChar) = [] ∧ fraction = [] ∨
      (if fraction = [] then [] else '.' :: fraction.map digitChar) = '.' :: fraction.map digitChar := by
  split <;> simp_all

end OracleThin.Arrow

import OracleThin.Image.Oson
import OracleThin.Ttc.NumberAgree
import OracleThin.Ttc.NumberExact

/-!
# Scalars of OSON images

The node of a scalar, read back. Most scalars come back as they are; an interval comes back in hours, minutes and
seconds of one sign, a number if its wire form is not too long, and a vector if its dimensions can be counted.
-/

namespace OracleThin.Image

open Lib Wire Ttc

/-! ### Reading what stands at a position -/

variable {time : CivilTime} {date wire : List UInt8} {decode : List UInt8 → Result OsonValue}
  {width : Nat} {byte : UInt8}

section

variable {reader : OsonReader} (hmax : reader.data.length ≤ reader.limits.maxResponseBytes)
variable {pos : Nat} {part : List UInt8}

theorem seekTo_of_le (h : pos ≤ reader.data.length) (pos' : Nat) : reader.seekTo pos pos' = .ok ((), pos) := by
  have hfits : ¬reader.data.length < pos := by omega
  simp only [OsonReader.seekTo, if_neg hfits]
  rfl

include hmax

theorem readRaw_standsAt (h : StandsAt reader.data pos part) :
    reader.readRaw part.length pos = .ok (part, pos + part.length) := by
  have hlen := h.length_le
  have hcheck : reader.limits.checkResponseBytes part.length = .ok () := if_pos (by omega)
  have hfits : ¬reader.data.length < pos + part.length := by omega
  simp only [OsonReader.readRaw, bind, StateT.bind, Seek.lift_apply, hcheck, Except.map, Except.bind, Seek.get_apply,
    if_neg hfits, pure, StateT.pure, Except.pure, Seek.set_apply, h.take_drop]

theorem readUint_standsAt {n : Nat} (h : StandsAt reader.data pos (toBe width n)) :
    reader.readUint width pos = .ok (n % 256 ^ width, pos + width) := by
  have hraw := readRaw_standsAt hmax h
  rw [length_toBe] at hraw
  rw [OsonReader.readUint, Seek.bind_of_ok hraw, ofBe_toBe]
  rfl

theorem readU8_standsAt (h : StandsAt reader.data pos [byte]) : reader.readU8 pos = .ok (byte, pos + 1) := by
  have hraw : reader.readRaw 1 pos = .ok ([byte], pos + 1) := readRaw_standsAt hmax h
  rw [OsonReader.readU8, Seek.bind_of_ok hraw]
  rfl

private theorem decodeRaw_standsAt (h : StandsAt reader.data pos part) :
    decodeRaw reader part.length decode pos = (decode part).map (·, pos + part.length) := by
  rw [decodeRaw, Seek.bind_of_ok (readRaw_standsAt hmax h), Seek.lift_apply]

private theorem decodeSized_standsAt (h : StandsAt reader.data pos (toBe width part.length ++ part))
    (hlen : part.length < 256 ^ width) :
    decodeSized reader width decode pos = (decode part).map (·, pos + (width + part.length)) := by
  obtain ⟨hsize, hpart⟩ := StandsAt.append_iff.1 h
  have hread := readUint_standsAt hmax hsize
  rw [Nat.mod_eq_of_lt hlen] at hread
  rw [length_toBe] at hpart
  rw [decodeSized, Seek.bind_of_ok hread, decodeRaw_standsAt hmax hpart, Nat.add_assoc]

end

/-! ### Texts, dates and intervals -/

theorem decodeUtf8_textBytes (text reason : String) : decodeUtf8 (textBytes text) reason = .ok text := by
  rw [decodeUtf8, fromUTF8?_eq_some_iff.2 rfl]

theorem toU8_eq_ok {value : Int} {message : String} (h : toU8 value message = .ok byte) :
    (byte.toNat : Int) = value := by
  unfold toU8 at h
  split at h
  · cases h
    rw [UInt8.toNat_ofNat_of_lt' (by rw [UInt8.size]; omega)]
    omega
  · cases h

private theorem decodeOffsetTimeByte_add_one {max : Nat} {field : String} (h : byte.toNat ≤ max) (hmax : max < 60) :
    decodeOffsetTimeByte (byte + 1) max field = .ok byte := by
  have hsum : (byte + 1).toNat = byte.toNat + 1 := by
    exact Nat.mod_eq_of_lt (by simp; omega)
  have hzero : byte + 1 ≠ 0 := fun hzero => by
    rw [hzero] at hsum
    simp at hsum
  rw [decodeOffsetTimeByte, if_neg (by rw [not_or]; exact ⟨hzero, by omega⟩)]
  simp

/-- A date that is encoded is read back, with the fraction behind it. -/
theorem decodeCivilTime_encodeOracleDate {fraction : List UInt8} {nanosecond : Nat}
    (h : encodeOracleDate time = .ok date) (hfraction : decodeFraction (date ++ fraction) = .ok nanosecond) :
    decodeCivilTime (date ++ fraction) = .ok { time with nanosecond } := by
  unfold encodeOracleDate at h
  split at h
  · cases h
  rename_i hrange
  obtain ⟨century, hcentury, h⟩ := except_bind_eq_ok.1 h
  obtain ⟨yearInCentury, hyear, h⟩ := except_bind_eq_ok.1 h
  cases h
  have hcentury := toU8_eq_ok hcentury
  have hyear := toU8_eq_ok hyear
  have hsplit := Int.mul_tdiv_add_tmod time.year 100
  have hback : ((century.toNat : Int) - 100) * 100 + yearInCentury.toNat - 100 = time.year := by omega
  simp only [not_or, not_not] at hrange
  obtain ⟨hvalid, hmonth, hmonth', hday, hday', hhour, hminute, hsecond⟩ := hrange
  have hhour : decodeOffsetTimeByte (time.hour + 1) 23 "hour" = .ok time.hour :=
    decodeOffsetTimeByte_add_one (UInt8.le_iff_toNat_le.1 (UInt8.not_lt.1 hhour)) (by decide)
  have hminute : decodeOffsetTimeByte (time.minute + 1) 59 "minute" = .ok time.minute :=
    decodeOffsetTimeByte_add_one (UInt8.le_iff_toNat_le.1 (UInt8.not_lt.1 hminute)) (by decide)
  have hsecond : decodeOffsetTimeByte (time.second + 1) 59 "second" = .ok time.second :=
    decodeOffsetTimeByte_add_one (UInt8.le_iff_toNat_le.1 (UInt8.not_lt.1 hsecond)) (by decide)
  unfold decodeCivilTime
  simp only [List.cons_append, List.getD_cons_zero, List.getD_cons_succ, hback]
  rw [if_neg (by simp [hvalid, hcentury, hyear]), if_neg (by simp [hmonth, hmonth']), if_neg (by simp [hday, hday'])]
  simp only [List.cons_append] at hfraction
  simp only [hhour, hminute, hsecond, hfraction, Except.bind, bind, pure, Except.pure]

theorem length_encodeOracleDate (h : encodeOracleDate time = .ok date) : date.length = 7 := by
  unfold encodeOracleDate at h
  split at h
  · cases h
  · obtain ⟨century, -, h⟩ := except_bind_eq_ok.1 h
    obtain ⟨yearInCentury, -, h⟩ := except_bind_eq_ok.1 h
    cases h
    rfl

section

variable {J V : Type}

theorem decodeDatetimeValue_encodeOracleDate (h : encodeOracleDate time = .ok date) :
    (decodeDatetimeValue date : Except _ (QueryValue J V)) = .ok (.dateTime { time with nanosecond := 0 }) := by
  have hlen := length_encodeOracleDate h
  have hfraction : decodeFraction (date ++ []) = .ok 0 := by
    rw [List.append_nil, decodeFraction, if_neg (by omega)]
  have htime := decodeCivilTime_encodeOracleDate h hfraction
  rw [List.append_nil] at htime
  rw [decodeDatetimeValue, if_neg (by omega), htime]
  dsimp only [bind, Except.bind]
  rw [if_neg (by omega)]
  rfl

/-- A date with a fraction behind it, and what follows the fraction. -/
theorem decodeCivilTime_fraction {rest : List UInt8} (h : encodeOracleDate time = .ok date)
    (hsmall : time.nanosecond ≤ 999999999) :
    decodeCivilTime (date ++ (toBe 4 time.nanosecond ++ rest)) = .ok time := by
  have hlen := length_encodeOracleDate h
  have hfraction : decodeFraction (date ++ (toBe 4 time.nanosecond ++ rest)) = .ok time.nanosecond := by
    have htake : ((date ++ (toBe 4 time.nanosecond ++ rest)).drop 7).take 4 = toBe 4 time.nanosecond := by
      rw [List.drop_left' hlen, List.take_left' (length_toBe 4 _)]
    have hlong : 11 ≤ (date ++ (toBe 4 time.nanosecond ++ rest)).length := by
      rw [List.length_append, List.length_append, hlen, length_toBe]
      omega
    rw [decodeFraction, if_pos hlong, htake, ofBe_toBe_of_lt (by omega)]
    exact if_neg (by omega)
  exact decodeCivilTime_encodeOracleDate h hfraction

private theorem encodeOracleTimestamp_eq_ok {bytes : List UInt8} (hne : time.nanosecond ≠ 0)
    (h : encodeOracleTimestamp time = .ok bytes) :
    time.nanosecond ≤ 999999999 ∧ ∃ date, encodeOracleDate time = .ok date ∧ bytes = date ++
    toBe 4 time.nanosecond := by
  unfold encodeOracleTimestamp at h
  by_cases hbig : 999999999 < time.nanosecond
  · rw [if_pos hbig] at h
    cases h
  · rw [if_neg hbig] at h
    obtain ⟨date, hdate, h⟩ := except_bind_eq_ok.1 h
    rw [if_neg hne] at h
    cases h
    exact ⟨by omega, date, hdate, rfl⟩

theorem decodeDatetimeValue_encodeOracleTimestamp {bytes : List UInt8} (hne : time.nanosecond ≠ 0)
    (h : encodeOracleTimestamp time = .ok bytes) :
    bytes.length = 11 ∧ (decodeDatetimeValue bytes : Except _ (QueryValue J V)) = .ok (.dateTime time) := by
  obtain ⟨hsmall, date, hdate, rfl⟩ := encodeOracleTimestamp_eq_ok hne h
  have hbytes : (date ++ toBe 4 time.nanosecond).length = 11 := by
    rw [List.length_append, length_encodeOracleDate hdate, length_toBe]
  have htime : decodeCivilTime (date ++ toBe 4 time.nanosecond) = .ok time := by
    have h : decodeCivilTime (date ++ (toBe 4 time.nanosecond ++ [])) = .ok time :=
      decodeCivilTime_fraction hdate hsmall
    simpa using h
  refine ⟨hbytes, ?_⟩
  rw [decodeDatetimeValue, if_neg (by omega), htime]
  dsimp only [bind, Except.bind]
  rw [if_neg (by omega)]
  rfl

theorem toDuration_eq_ok {value : Int} {message : String} {bytes : List UInt8}
    (h : toDuration value message = .ok bytes) (message' : String) :
    bytes.length = 4 ∧ toI32 (ofBe bytes - tnsDurationMid) message' = .ok value := by
  unfold toDuration at h
  split at h
  · rename_i hrange
    cases h
    have hofBe : (ofBe (toBe 4 (value + tnsDurationMid).toNat) : Int) = value + tnsDurationMid := by
      rw [ofBe_toBe_of_lt (by omega), Int.toNat_of_nonneg hrange.1]
    unfold tnsDurationMid at *
    rw [toI32, hofBe, if_pos (by omega)]
    exact ⟨rfl, by congr 1; omega⟩
  · cases h

/-- The seconds of an interval come back as hours, minutes and seconds of one sign. -/
theorem decodeIntervalDs_encodeIntervalDs {days seconds nanoseconds : Int} {bytes : List UInt8}
    (h : encodeIntervalDs days seconds nanoseconds = .ok bytes) :
    bytes.length = 11 ∧ (decodeIntervalDs bytes : Except _ (QueryValue J V)) =
      .ok (.intervalDS days (seconds.tdiv 3600) ((seconds.tmod 3600).tdiv 60) (seconds.tmod 60) nanoseconds) := by
  obtain ⟨wireDays, hdays, h⟩ := except_bind_eq_ok.1 h
  obtain ⟨hour, hhour, h⟩ := except_bind_eq_ok.1 h
  obtain ⟨minute, hminute, h⟩ := except_bind_eq_ok.1 h
  obtain ⟨second, hsecond, h⟩ := except_bind_eq_ok.1 h
  obtain ⟨wireFseconds, hfseconds, h⟩ := except_bind_eq_ok.1 h
  cases h
  obtain ⟨hdaysLen, hdays⟩ := toDuration_eq_ok hdays "INTERVAL DS out of range"
  obtain ⟨hfsecondsLen, hfseconds⟩ := toDuration_eq_ok hfseconds "INTERVAL DS out of range"
  have hhour := toU8_eq_ok hhour
  have hminute := toU8_eq_ok hminute
  have hsecond := toU8_eq_ok hsecond
  match wireDays, hdaysLen with
  | [a, b, c, d], _ =>
    match wireFseconds, hfsecondsLen with
    | [e, f, g, i], _ =>
      refine ⟨rfl, ?_⟩
      change (do
        let days ← toI32 (ofBe [a, b, c, d] - tnsDurationMid) "INTERVAL DS out of range"
        let fseconds ← toI32 (ofBe [e, f, g, i] - tnsDurationMid) "INTERVAL DS out of range"
        return QueryValue.intervalDS days (hour.toNat - tnsDurationOffset) (minute.toNat - tnsDurationOffset)
          (second.toNat - tnsDurationOffset) fseconds) = _
      rw [hdays, hfseconds, hhour, hminute, hsecond]
      simp [bind, Except.bind, pure, Except.pure]

end

private theorem decodeDatetime_encodeOracleDate (h : encodeOracleDate time = .ok date)
    (hwhole : time.nanosecond = 0) :
    decodeDatetime date = .ok (.dateTime time) := by
  rw [decodeDatetime, decodeDatetimeValue_encodeOracleDate h, ← hwhole]
  rfl

private theorem decodeDatetime_encodeOracleTimestamp {bytes : List UInt8} (hne : time.nanosecond ≠ 0)
    (h : encodeOracleTimestamp time = .ok bytes) :
    bytes.length = 11 ∧ decodeDatetime bytes = .ok (.dateTime time) := by
  obtain ⟨hlen, hvalue⟩ := decodeDatetimeValue_encodeOracleTimestamp hne h
  refine ⟨hlen, ?_⟩
  rw [decodeDatetime, hvalue]
  rfl

private theorem decodeInterval_encodeIntervalDs {days seconds nanoseconds : Int} {bytes : List UInt8}
    (h : encodeIntervalDs days seconds nanoseconds = .ok bytes) :
    bytes.length = 11 ∧ decodeInterval bytes =
      .ok (.intervalDS days (seconds.tdiv 3600) ((seconds.tmod 3600).tdiv 60) (seconds.tmod 60) nanoseconds) := by
  obtain ⟨hlen, hvalue⟩ := decodeIntervalDs_encodeIntervalDs h
  refine ⟨hlen, ?_⟩
  rw [decodeInterval, hvalue]
  rfl

/-! ### Numbers -/

/-- The text is the one that is written for its own digits: in plain notation, without zeros that are not needed. -/
def IsNormalNumber (text : String) : Prop :=
  match readDecimalText (textBytes text) with
  | some parts =>
    text = if parts.significant = [] then "0"
      else String.ofList (formatNumberDigits parts.significant parts.isNegative parts.pointIndex)
  | none => False

instance (text : String) : Decidable (IsNormalNumber text) := by
  unfold IsNormalNumber
  split <;> infer_instance

/-- The wire form of the text is longer than the decoder allows. -/
def IsOverlongNumber (text : String) : Prop :=
  ∃ parts, readDecimalText (textBytes text) = some parts ∧ parts.Overlong

theorem decodeNumber_eq (bytes : List UInt8) :
    decodeNumber bytes = (decodeOwnedText bytes).map fun found => .number found.1 := by
  rw [decodeNumber, decodeOwnedText]
  cases OracleNumber.fromWire bytes <;> rfl

/-- The owned decoder writes digits without zeros at either side as the other decoder does. -/
theorem decodeOwnedText_of_parts {digits : List Nat} {isNegative : Bool} {point : Int}
    (h : decodeNumberParts wire = .ok (.parts digits isNegative point)) (hdigits : ∀ digit ∈ digits, digit < 10)
    (hne : digits ≠ []) (hfirst : digits.head? ≠ some 0) (hlen : digits.length ≤ maxDigits) :
    decodeOwnedText wire =
      .ok (String.ofList (formatNumberDigits digits isNegative point), isIntegral digits point) := by
  match wire with
  | [] => cases h
  | first :: rest =>
    by_cases hlong : 21 < (first :: rest).length
    · rw [decodeNumberParts_of_long hlong] at h
      cases h
    by_cases hnil : rest = []
    · subst hnil
      cases h
    have hshort : rest.length ≤ 20 := by
      rw [List.length_cons] at hlong
      omega
    rw [decodeNumberParts_cons first hnil hshort] at h
    simp only [Except.ok.injEq, DecodedNumber.parts.injEq] at h
    obtain ⟨hspelled, hsign, hpoint⟩ := h
    have hnonzero : decimal digits ≠ 0 := fun hzero => by
      cases digits with
      | nil => exact hne rfl
      | cons digit digits => exact hfirst (congrArg some (decimal_eq_zero_iff.1 hzero digit (List.mem_cons_self ..)))
    have halike : WrittenAlike digits isNegative point := by
      unfold WrittenAlike
      split
      · exact Or.inl hlen
      · exact ⟨hdigits, hlen, Or.inl hfirst⟩
    rw [decodeOwnedText_cons first hnil hshort, hspelled, hsign, hpoint]
    have htext := (ownedText_eq_iff (fun digit hdigit =>
      by have := hdigits digit hdigit; omega) isNegative point).2 halike
    rw [htext]

private theorem length_of_decodeNumberParts
    (h : decodeNumberParts wire = .error (.ttcDecode "encoded NUMBER too long")) :
    21 < wire.length := by
  by_contra hshort
  match wire with
  | [] => simp [decodeNumberParts] at h
  | first :: rest =>
    by_cases hnil : rest = []
    · subst hnil
      cases h
    · rw [List.length_cons] at hshort
      rw [decodeNumberParts_cons first hnil (by omega)] at h
      cases h

/-- A number in normal form comes back, unless its wire form is too long. -/
theorem decodeNumber_encodeNumberText {text : String} (hnormal : IsNormalNumber text)
    (h : encodeNumberText (textBytes text) = .ok wire) :
    (¬IsOverlongNumber text → decodeNumber wire = .ok (.number text)) ∧
      (IsOverlongNumber text → ∀ value, decodeNumber wire ≠ .ok value) := by
  obtain ⟨-, -, parts, hread, hlen, ⟨hlow, hhigh⟩, hencode⟩ := encodeNumberText_eq_ok_iff.1 h
  obtain ⟨hdigits, hfirst, hlast⟩ := DecimalText.significant_facts hread
  have hover : IsOverlongNumber text ↔ parts.Overlong := by
    simp [IsOverlongNumber, hread]
  rw [IsNormalNumber, hread] at hnormal
  dsimp only at hnormal
  rw [hover]
  by_cases hnil : parts.significant = []
  · rw [hnil, encodeDigits_nil] at hencode
    cases hencode
    rw [if_pos hnil] at hnormal
    subst hnormal
    refine ⟨fun _ => rfl, fun hlong => ?_⟩
    rw [DecimalText.Overlong, hnil] at hlong
    cases hlong.1
  rw [if_neg hnil] at hnormal
  have hdecode := decodeNumberParts_encodeDigits hdigits hnil hfirst hlast hlow hhigh hencode
  have hfits : (packedDigits parts.significant parts.pointIndex).length ≤ numberMaxDigits ↔ ¬parts.Overlong :=
    length_packedDigits_le_iff hlen
  refine ⟨fun hshort => ?_, fun hlong value hvalue => ?_⟩
  · rw [if_pos (hfits.2 hshort)] at hdecode
    have hmax : parts.significant.length ≤ maxDigits := le_trans hlen (by decide)
    rw [decodeNumber_eq, decodeOwnedText_of_parts hdecode hdigits hnil hfirst hmax, hnormal]
    rfl
  · rw [if_neg fun hle => hfits.1 hle hlong] at hdecode
    rw [decodeNumber_eq, decodeOwnedText, OracleNumber.fromWire,
      decodeNumberPartsStack_of_long (length_of_decodeNumberParts hdecode)] at hvalue
    cases hvalue

/-! ### Sizes -/

/-- The bytes of a number on the wire. -/
def numberBytes (text : String) : Nat :=
  match readDecimalText (textBytes text) with
  | some parts =>
    if parts.significant = [] then 1
    else
      let packed := (packedDigits parts.significant parts.pointIndex).length
      1 + packed / 2 + if parts.isNegative ∧ packed < numberMaxDigits then 1 else 0
  | none => 0

private theorem length_encodeNumberText {text : String} (h : encodeNumberText (textBytes text) = .ok wire) :
    wire.length = numberBytes text ∧ wire.length < 256 := by
  obtain ⟨-, -, parts, hread, hlen, ⟨hlow, hhigh⟩, hencode⟩ := encodeNumberText_eq_ok_iff.1 h
  rw [numberBytes, hread]
  dsimp only
  by_cases hnil : parts.significant = []
  · rw [hnil, encodeDigits_nil] at hencode
    cases hencode
    rw [if_pos hnil]
    exact ⟨rfl, by simp⟩
  · rw [encodeDigits_eq parts.isNegative hnil hlow hhigh] at hencode
    cases hencode
    obtain ⟨fill, hfill, hpacked⟩ := packedDigits_eq parts.significant parts.pointIndex
    have hfilled : fill.length ≤ 1 := by rcases hfill with rfl | rfl <;> simp
    have hsmall : (packedDigits parts.significant parts.pointIndex).length ≤ 42 := by
      unfold numberMaxDigits at hlen
      rw [hpacked, List.length_append]
      split
      · omega
      · rw [List.length_cons]
        omega
    rw [if_neg hnil, List.length_append, List.length_cons, List.length_map, length_digitPairs]
    split
    · simp only [List.length_singleton]
      omega
    · simp only [List.length_nil]
      omega

def VectorValues.bytes : VectorValues → Nat
  | .float32 bits => bits.length * 4
  | .float64 bits => bits.length * 8
  | .int8 values => values.length
  | .binary bytes => bytes.length

/-- The bytes of the image of a vector. -/
def Vector.bytes : Vector → Nat
  | .dense values => 17 + values.bytes
  | .sparse _ indices values => 19 + indices.length * 4 + values.bytes

private theorem length_encodeValues (values : VectorValues) : (encodeValues values).length = values.bytes := by
  cases values with
  | float32 bits => simp [encodeValues, VectorValues.bytes, encodeBinaryFloat, length_encodeSortable]
  | float64 bits => simp [encodeValues, VectorValues.bytes, encodeBinaryDouble, length_encodeSortable]
  | int8 values => simp [encodeValues, VectorValues.bytes]
  | binary bytes => rfl

private theorem length_encodeVectorChecked {vector : Vector} {image : List UInt8}
    (h : encodeVectorChecked vector = .ok image) :
    image.length = vector.bytes := by
  cases vector with
  | dense values =>
    cases h
    simp [Vector.bytes, length_encodeValues]
    omega
  | sparse numDimensions indices values =>
    unfold encodeVectorChecked at h
    dsimp only at h
    by_cases hmismatch : indices.length ≠ values.len
    · rw [if_pos hmismatch] at h
      cases h
    by_cases hmany : 0xffff < indices.length
    · rw [if_neg hmismatch, if_pos hmany] at h
      cases h
    rw [if_neg hmismatch, if_neg hmany] at h
    cases h
    simp [Vector.bytes, length_encodeValues]
    omega

/-- The bytes of the node of a scalar. -/
def scalarBytes : OsonValue → Nat
  | .null | .bool _ => 1
  | .number text => 2 + numberBytes text
  | .binaryFloat _ => 5
  | .binaryDouble _ => 9
  | .string text =>
    let length := (textBytes text).length
    (if length < 256 then 2 else if length < 65536 then 3 else 5) + length
  | .raw bytes => (if bytes.length < 65536 then 3 else 5) + bytes.length
  | .dateTime time => if time.nanosecond = 0 then 8 else 12
  | .intervalDS .. => 12
  | .vector vector => 6 + vector.bytes
  | .array _ | .object _ => 0

def OsonValue.isScalar : OsonValue → Bool
  | .array _ | .object _ => false
  | _ => true

theorem length_encodeScalar {value : OsonValue} {node : List UInt8} (h : encodeScalar value = .ok node) :
    node.length = scalarBytes value := by
  cases value with
  | null | binaryFloat _ | binaryDouble _ | array _ | object _ =>
    cases h
    simp [scalarBytes, encodeBinaryFloat, encodeBinaryDouble, length_encodeSortable]
  | bool b => cases b <;> cases h <;> rfl
  | string text =>
    cases h
    simp only [writeString, scalarBytes]
    split
    · simp
      omega
    · split <;> simp <;> omega
  | raw bytes =>
    cases h
    simp only [writeRaw, scalarBytes]
    split <;> simp <;> omega
  | number text =>
    rw [encodeScalar] at h
    split at h
    · rename_i wire hwire
      cases h
      have hlen := (length_encodeNumberText hwire).1
      simp [scalarBytes, hlen]
      omega
    · cases h
  | dateTime time =>
    rw [encodeScalar] at h
    rw [scalarBytes]
    split at h
    · obtain ⟨bytes, hbytes, h⟩ := except_bind_eq_ok.1 h
      cases h
      rw [if_pos ‹_›, List.length_cons, length_encodeOracleDate hbytes]
    · obtain ⟨bytes, hbytes, h⟩ := except_bind_eq_ok.1 h
      cases h
      rw [if_neg ‹_›, List.length_cons, (decodeDatetime_encodeOracleTimestamp ‹_› hbytes).1]
  | intervalDS days hours minutes seconds fseconds =>
    obtain ⟨bytes, hbytes, h⟩ := except_bind_eq_ok.1 h
    cases h
    rw [scalarBytes, List.length_cons, (decodeInterval_encodeIntervalDs hbytes).1]
  | vector vector =>
    obtain ⟨image, himage, h⟩ := except_bind_eq_ok.1 h
    cases h
    have hlen := length_encodeVectorChecked himage
    simp [scalarBytes, hlen]
    omega

/-! ### Nodes -/

/-- What the node of a scalar is read back as. -/
def rereadScalar (limits : ProtocolLimits) : OsonValue → Result OsonValue
  | .number text => encodeNumberText (textBytes text) >>= decodeNumber
  | .intervalDS days hours minutes seconds fseconds =>
    let total := totalSeconds hours minutes seconds
    .ok (.intervalDS days (total.tdiv 3600) ((total.tmod 3600).tdiv 60) (total.tmod 60) fseconds)
  | .vector vector => encodeVectorChecked vector >>= decodeEmbeddedVector limits
  | value => .ok value

section

variable {decoder : OsonDecoder} (hmax : decoder.reader.data.length ≤ decoder.reader.limits.maxResponseBytes)
variable {pos : Nat}

variable {nodeType : UInt8}

include hmax

private theorem decodeNode_of_type (depth : Nat) (h : StandsAt decoder.reader.data pos [nodeType])
    (hscalar : nodeType &&& 0x80 = 0) :
    decoder.decodeNode depth pos = decodeScalarWithNodeType decoder.reader nodeType (pos + 1) := by
  cases depth with
  | zero | succ depth =>
      rw [OsonDecoder.decodeNode, Seek.bind_of_ok (readU8_standsAt hmax h), if_neg (not_not.2 hscalar)]

/-- A node whose type is followed by bytes of a length that the type gives. -/
theorem decodeNode_raw (depth : Nat) {part : List UInt8} {len : Nat}
    (h : StandsAt decoder.reader.data pos (nodeType :: part)) (hlen : part.length = len)
    (hscalar : nodeType &&& 0x80 = 0)
    (htype : decodeScalarWithNodeType decoder.reader nodeType = decodeRaw decoder.reader len decode) :
    decoder.decodeNode depth pos = (decode part).map (·, pos + (nodeType :: part).length) := by
  obtain ⟨hnode, hpart⟩ := StandsAt.append_iff.1 (show StandsAt _ _ ([nodeType] ++ part) from h)
  rw [decodeNode_of_type hmax depth hnode hscalar, htype, ← hlen, List.length_cons, Nat.add_comm part.length,
    ← Nat.add_assoc]
  exact decodeRaw_standsAt hmax hpart

/-- A node whose type is followed by a length and bytes of that length. -/
theorem decodeNode_sized (depth : Nat) {part : List UInt8}
    (h : StandsAt decoder.reader.data pos (nodeType :: toBe width part.length ++ part))
    (hlen : part.length < 256 ^ width) (hscalar : nodeType &&& 0x80 = 0)
    (htype : decodeScalarWithNodeType decoder.reader nodeType = decodeSized decoder.reader width decode) :
    decoder.decodeNode depth pos =
      (decode part).map (·, pos + (nodeType :: toBe width part.length ++ part).length) := by
  obtain ⟨hnode, hpart⟩ :=
    StandsAt.append_iff.1 (show StandsAt _ _ ([nodeType] ++ (toBe width part.length ++ part)) from h)
  have hpos : pos + (nodeType :: toBe width part.length ++ part).length = pos + 1 + (width + part.length) := by
    simp
    omega
  rw [decodeNode_of_type hmax depth hnode hscalar, htype, hpos]
  exact decodeSized_standsAt hmax hpart hlen

private theorem decodeNode_vector (depth : Nat) {image : List UInt8}
    (h : StandsAt decoder.reader.data pos
      ([tnsJsonTypeExtended, tnsJsonTypeVector] ++ toBe 4 image.length ++ image))
    (hlen : image.length < 2 ^ 32) :
    decoder.decodeNode depth pos = (decodeEmbeddedVector decoder.reader.limits image).map
      (·, pos + ([tnsJsonTypeExtended, tnsJsonTypeVector] ++ toBe 4 image.length ++ image).length) := by
  have hend := h.length_le
  simp only [List.length_append, List.length_cons, List.length_nil, length_toBe] at hend
  obtain ⟨hhead, himage⟩ := StandsAt.append_iff.1 h
  obtain ⟨htypes, hsize⟩ := StandsAt.append_iff.1 hhead
  obtain ⟨hnode, hextended⟩ := StandsAt.append_iff.1
    (show StandsAt _ _ ([tnsJsonTypeExtended] ++ [tnsJsonTypeVector]) from htypes)
  have htype : decoder.reader.readU8 (pos + 1) = .ok (tnsJsonTypeVector, pos + 2) := readU8_standsAt hmax hextended
  have hread : decoder.reader.readU32be (pos + 2) = .ok (image.length, pos + 2 + 4) := by
    rw [← Nat.mod_eq_of_lt (show image.length < 256 ^ 4 by omega)]
    exact readUint_standsAt hmax hsize
  have hcheck : (liftM (decoder.reader.limits.checkResponseBytes image.length) : OsonRead Unit) (pos + 2 + 4) =
      .ok ((), pos + 2 + 4) := by
    rw [show decoder.reader.limits.checkResponseBytes image.length = .ok () from if_pos (by omega)]
    rfl
  have hraw : decodeRaw decoder.reader image.length (decodeEmbeddedVector decoder.reader.limits) (pos + 2 + 4) =
      (decodeEmbeddedVector decoder.reader.limits image).map (·, pos + 2 + 4 + image.length) :=
    decodeRaw_standsAt hmax (by simpa using himage)
  have hpos : pos + ([tnsJsonTypeExtended, tnsJsonTypeVector] ++ toBe 4 image.length ++ image).length =
      pos + 2 + 4 + image.length := by
    simp
    omega
  rw [decodeNode_of_type hmax depth hnode rfl, hpos]
  change decodeExtended decoder.reader (pos + 1) = _
  rw [decodeExtended, Seek.bind_of_ok htype, if_pos rfl, Seek.bind_of_ok hread, Seek.bind_of_ok hcheck, hraw]

/-- The node of a scalar is read back. -/
theorem decodeNode_encodeScalar (depth : Nat) {value : OsonValue} {node : List UInt8} (hvalue : value.isScalar)
    (h : encodeScalar value = .ok node) (hnode : StandsAt decoder.reader.data pos node)
    (hlen : node.length < 2 ^ 32) :
    decoder.decodeNode depth pos =
      (rereadScalar decoder.reader.limits value).map (·, pos + node.length) := by
  cases value with
  | array _ | object _ => cases hvalue
  | null =>
    cases h
    exact decodeNode_of_type hmax depth hnode rfl
  | bool b =>
    cases b <;> cases h <;> exact decodeNode_of_type hmax depth hnode rfl
  | binaryFloat bits =>
    cases h
    rw [decodeNode_raw hmax depth hnode (by simp [encodeBinaryFloat, length_encodeSortable]) rfl rfl,
      decodeBinaryFloat_encodeBinaryFloat]
    rfl
  | binaryDouble bits =>
    cases h
    rw [decodeNode_raw hmax depth hnode (by simp [encodeBinaryDouble, length_encodeSortable]) rfl rfl,
      decodeBinaryDouble_encodeBinaryDouble]
    rfl
  | number text =>
    rw [encodeScalar] at h
    split at h
    · rename_i wire hwire
      cases h
      rw [decodeNode_sized hmax depth hnode (by simpa using (length_encodeNumberText hwire).2) rfl rfl, rereadScalar,
        hwire]
      rfl
    · cases h
  | string text =>
    cases h
    have hback : decodeString (textBytes text) = .ok (.string text) := by
      rw [decodeString, decodeUtf8_textBytes]
      rfl
    rw [writeString] at hnode hlen ⊢
    split at hnode
    · rw [if_pos ‹_›, decodeNode_sized hmax depth hnode (by simpa) rfl rfl, hback]
      rfl
    · rw [if_neg ‹_›] at hlen ⊢
      split at hnode
      · rw [if_pos ‹_›, decodeNode_sized hmax depth hnode (by simpa) rfl rfl, hback]
        rfl
      · rw [if_neg ‹_›, List.length_append] at hlen
        rw [if_neg ‹_›, decodeNode_sized hmax depth hnode (by omega) rfl rfl, hback]
        rfl
  | raw bytes =>
    cases h
    rw [writeRaw] at hnode hlen ⊢
    split at hnode
    · rw [if_pos ‹_›, decodeNode_sized hmax depth hnode (by simpa) rfl rfl]
      rfl
    · rw [if_neg ‹_›, List.length_append] at hlen
      rw [if_neg ‹_›, decodeNode_sized hmax depth hnode (by omega) rfl rfl]
      rfl
  | dateTime time =>
    rw [encodeScalar] at h
    split at h
    · obtain ⟨bytes, hbytes, h⟩ := except_bind_eq_ok.1 h
      cases h
      rw [decodeNode_raw hmax depth hnode (length_encodeOracleDate hbytes) rfl rfl,
        decodeDatetime_encodeOracleDate hbytes ‹_›]
      rfl
    · obtain ⟨bytes, hbytes, h⟩ := except_bind_eq_ok.1 h
      cases h
      obtain ⟨hbytesLen, hback⟩ := decodeDatetime_encodeOracleTimestamp ‹_› hbytes
      rw [decodeNode_raw hmax depth hnode hbytesLen rfl rfl, hback]
      rfl
  | intervalDS days hours minutes seconds fseconds =>
    obtain ⟨bytes, hbytes, h⟩ := except_bind_eq_ok.1 h
    cases h
    obtain ⟨hbytesLen, hback⟩ := decodeInterval_encodeIntervalDs hbytes
    rw [decodeNode_raw hmax depth hnode hbytesLen rfl rfl, hback]
    rfl
  | vector vector =>
    obtain ⟨image, himage, h⟩ := except_bind_eq_ok.1 h
    cases h
    rw [decodeNode_vector hmax depth hnode (by simp at hlen; omega), rereadScalar, himage]
    rfl

end

end OracleThin.Image

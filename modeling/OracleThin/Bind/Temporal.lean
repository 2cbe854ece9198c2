import OracleThin.Bind.Value
import OracleThin.Image.OsonScalar

/-!
# Dates, times and intervals

What the encoders of temporal values accept is decoded to the same value. A date has seven bytes, a timestamp leaves
out a fraction of zero, and a timestamp with time zone is written with its local time and the offset. An offset that
is 20 hours or more to the west has no byte for its hours, or a zero, which the decoder refuses; the binds of
timestamps without an offset are written with offset zero.

The decoder of dates takes only the bytes that the encoder writes.
-/

namespace OracleThin.Bind

open Lib Wire Ttc Image

variable {J V : Type}

/-! ### Timestamps -/

variable {time : CivilTime} {bytes : List UInt8}

private theorem decodeDatetimeValue_encodeOracleTimestamp_all (h : encodeOracleTimestamp time = .ok bytes) :
    (decodeDatetimeValue bytes : Except _ (QueryValue J V)) = .ok (.dateTime time) := by
  by_cases hzero : time.nanosecond = 0
  · -- The fraction is left out, so the bytes are those of the date.
    have hdate : encodeOracleDate time = .ok bytes := by
      unfold encodeOracleTimestamp at h
      rw [if_neg (by omega)] at h
      obtain ⟨date, hdate, h⟩ := except_bind_eq_ok.1 h
      rw [if_pos hzero] at h
      cases h
      exact hdate
    rw [decodeDatetimeValue_encodeOracleDate hdate, ← hzero]
  · exact (decodeDatetimeValue_encodeOracleTimestamp hzero h).2

/-- What the encoder of a timestamp with time zone has accepted. -/
theorem encodeOracleTimestampTzWithOffset_eq_ok {offsetMinutes : Int}
    (h : encodeOracleTimestampTzWithOffset time offsetMinutes = .ok bytes) :
    time.nanosecond ≤ 999999999 ∧ validTzOffsetMinutes offsetMinutes = true ∧ ∃ date hour minute,
      encodeOracleDate time = .ok date ∧ (UInt8.toNat hour : Int) = offsetMinutes.tdiv 60 + tzHourOffset ∧
      (UInt8.toNat minute : Int) = offsetMinutes.tmod 60 + tzMinuteOffset ∧
      bytes = date ++ (toBe 4 time.nanosecond ++ [hour, minute]) := by
  unfold encodeOracleTimestampTzWithOffset at h
  by_cases hbig : 999999999 < time.nanosecond
  · rw [if_pos hbig] at h
    cases h
  rw [if_neg hbig] at h
  by_cases hoffset : validTzOffsetMinutes offsetMinutes = true
  · rw [if_neg (not_not.2 hoffset)] at h
    obtain ⟨hour, hhour, h⟩ := except_bind_eq_ok.1 h
    obtain ⟨minute, hminute, h⟩ := except_bind_eq_ok.1 h
    obtain ⟨date, hdate, h⟩ := except_bind_eq_ok.1 h
    cases h
    exact ⟨by omega, hoffset, date, hour, minute, hdate, toU8_eq_ok hhour, toU8_eq_ok hminute, List.append_assoc ..⟩
  · rw [if_pos hoffset] at h
    cases h

/-- The decoder finds the time and is left with the bytes of the offset. -/
theorem decodeDatetimeValue_zone {date : List UInt8} {hour minute : UInt8} (h : encodeOracleDate time = .ok date)
    (hsmall : time.nanosecond ≤ 999999999) :
    (decodeDatetimeValue (date ++ (toBe 4 time.nanosecond ++ [hour, minute])) : Except _ (QueryValue J V)) =
      decodeZone time hour minute := by
  have hlen := length_encodeOracleDate h
  have hbytes : (date ++ (toBe 4 time.nanosecond ++ [hour, minute])).length = 13 := by simp [hlen]
  have hzone (i : Nat) :
      (date ++ (toBe 4 time.nanosecond ++ [hour, minute])).getD (11 + i) 0 = [hour, minute].getD i 0 := by
    rw [← List.append_assoc, List.getD_append_right _ _ _ _ (by simp [hlen])]
    simp [hlen]
  rw [decodeDatetimeValue, if_neg (by omega), decodeCivilTime_fraction h hsmall]
  dsimp only [bind, Except.bind]
  rw [if_pos hbytes, hzone 0, hzone 1]
  rfl

private theorem and_hasRegionId_eq_zero {byte : UInt8} (h : byte.toNat < 128) : byte &&& tnsHasRegionId = 0 := by
  apply UInt8.toNat_inj.1
  have hmask : tnsHasRegionId.toNat = 2 ^ 7 := rfl
  rw [UInt8.toNat_and, hmask, Nat.and_two_pow, Nat.testBit_lt_two_pow h]
  rfl

/-- The decoder takes an offset from its two bytes, unless one of them is zero. -/
theorem decodeZone_eq {hour minute : UInt8} (hhour : hour.toNat < 128) (hminute : minute.toNat < 120)
    (hoffset : validTzOffsetMinutes ((hour.toNat - tzHourOffset) * 60 + minute.toNat - tzMinuteOffset) = true) :
    (decodeZone time hour minute : Except _ (QueryValue J V)) =
      if hour = 0 ∨ minute = 0 then .error (.ttcDecode "invalid TIMESTAMP WITH TIME ZONE offset")
      else .ok (.timestampTz time ((hour.toNat - tzHourOffset) * 60 + minute.toNat - tzMinuteOffset)) := by
  have hlow : ¬120 ≤ minute := by
    exact Nat.not_le.2 hminute
  unfold decodeZone
  rw [if_neg (not_not.2 (and_hasRegionId_eq_zero hhour)), if_neg hlow]
  rw [if_pos hoffset]

private theorem tmod_bounds (a : Int) {b : Int} (hb : 0 < b) :
    -b < a.tmod b ∧ a.tmod b < b ∧ (0 ≤ a → 0 ≤ a.tmod b) ∧ (a ≤ 0 → a.tmod b ≤ 0) := by
  refine ⟨Int.lt_tmod_of_pos a hb, Int.tmod_lt_of_pos a hb, Int.tmod_nonneg b, fun ha => ?_⟩
  have hneg := Int.tmod_nonneg b (show 0 ≤ -a by omega)
  rw [Int.neg_tmod] at hneg
  omega

/-- An offset comes back if its hours are not 20 or more to the west; the decoder refuses the others. -/
theorem decodeDatetimeValue_encodeOracleTimestampTzWithOffset {offsetMinutes : Int}
    (h : encodeOracleTimestampTzWithOffset time offsetMinutes = .ok bytes) :
    (decodeDatetimeValue bytes : Except _ (QueryValue J V)) =
      if offsetMinutes ≤ -1200 then .error (.ttcDecode "invalid TIMESTAMP WITH TIME ZONE offset")
      else .ok (.timestampTz time offsetMinutes) := by
  obtain ⟨hsmall, hoffset, date, hour, minute, hdate, hhour, hminute, rfl⟩ :=
    encodeOracleTimestampTzWithOffset_eq_ok h
  have hrange : -1439 ≤ offsetMinutes ∧ offsetMinutes ≤ 1439 := by simpa [validTzOffsetMinutes] using hoffset
  have hsplit := Int.mul_tdiv_add_tmod offsetMinutes 60
  have hrest := tmod_bounds offsetMinutes (show (0 : Int) < 60 by decide)
  have hback : ((hour.toNat : Int) - tzHourOffset) * 60 + minute.toNat - tzMinuteOffset = offsetMinutes := by
    omega
  unfold tzHourOffset at hhour
  unfold tzMinuteOffset at hminute
  rw [decodeDatetimeValue_zone hdate hsmall, decodeZone_eq (by omega) (by omega) (by rw [hback]; exact hoffset),
    hback]
  -- The minutes never become a zero byte; the hours do at 20 to the west.
  have hzero : hour = 0 ∨ minute = 0 ↔ offsetMinutes ≤ -1200 := by
    rw [← UInt8.toNat_inj, ← UInt8.toNat_inj, UInt8.toNat_zero]
    omega
  simp only [hzero]

/-! ### Intervals of years and months -/

theorem decodeIntervalYm_encodeIntervalYm {years months : Int} (h : encodeIntervalYm years months = .ok bytes) :
    (decodeIntervalYm bytes : Except _ (QueryValue J V)) = .ok (.intervalYM years months) := by
  obtain ⟨wireYears, hyears, h⟩ := except_bind_eq_ok.1 h
  obtain ⟨month, hmonth, h⟩ := except_bind_eq_ok.1 h
  cases h
  obtain ⟨hlen, hyears⟩ := toDuration_eq_ok hyears "INTERVAL YM out of range"
  have hmonth := toU8_eq_ok hmonth
  have hbytes : (wireYears ++ [month]).length = 5 := by simp [hlen]
  have hlast : (wireYears ++ [month]).getD 4 0 = month := by
    rw [List.getD_append_right _ _ _ _ hlen.le, hlen]
    rfl
  rw [decodeIntervalYm, if_neg (by omega), List.take_left' hlen, hyears, hlast, hmonth]
  simp [bind, Except.bind, pure, Except.pure]

/-! ### The bytes of a date -/

private theorem decodeOffsetTimeByte_eq_ok {byte value : UInt8} {max : Nat} {field : String}
    (h : decodeOffsetTimeByte byte max field = .ok value) : byte = value + 1 ∧ value.toNat ≤ max := by
  unfold decodeOffsetTimeByte at h
  split at h
  · cases h
  · rename_i hrange
    cases h
    rw [not_or] at hrange
    have hpos : 1 ≤ byte.toNat := by
      have hne : byte.toNat ≠ 0 := fun hzero => hrange.1 (UInt8.toNat_inj.1 hzero)
      omega
    have hsub : (byte - 1).toNat = byte.toNat - 1 := UInt8.toNat_sub_of_le _ _ (UInt8.le_iff_toNat_le.2 hpos)
    exact ⟨by simp, by omega⟩

/-- What the decoder of dates accepts is in the ranges of the encoder, and is what it writes. -/
theorem encodeOracleDate_of_decodeCivilTime (hlen : bytes.length = 7) (h : decodeCivilTime bytes = .ok time) :
    encodeOracleDate time = .ok bytes := by
  match bytes, hlen with
  | [century, yearInCentury, month, day, hour, minute, second], _ =>
    unfold decodeCivilTime at h
    simp only [List.getD_cons_zero, List.getD_cons_succ] at h
    generalize hyear : ((century.toNat : Int) - 100) * 100 + yearInCentury.toNat - 100 = year at h
    by_cases hcivil : ¬validOracleDateYear year ∨ (century.toNat : Int) ≠ year.tdiv 100 + 100 ∨
        (yearInCentury.toNat : Int) ≠ year.tmod 100 + 100
    · rw [if_pos hcivil] at h
      cases h
    rw [if_neg hcivil] at h
    by_cases hmonth : month < 1 ∨ 12 < month
    · rw [if_pos hmonth] at h
      cases h
    rw [if_neg hmonth] at h
    by_cases hday : day < 1 ∨ 31 < day
    · rw [if_pos hday] at h
      cases h
    rw [if_neg hday] at h
    obtain ⟨hour', hhour, h⟩ := except_bind_eq_ok.1 h
    obtain ⟨minute', hminute, h⟩ := except_bind_eq_ok.1 h
    obtain ⟨second', hsecond, h⟩ := except_bind_eq_ok.1 h
    cases h
    obtain ⟨rfl, hhourLe⟩ := decodeOffsetTimeByte_eq_ok hhour
    obtain ⟨rfl, hminuteLe⟩ := decodeOffsetTimeByte_eq_ok hminute
    obtain ⟨rfl, hsecondLe⟩ := decodeOffsetTimeByte_eq_ok hsecond
    simp only [not_or, not_not] at hcivil hmonth hday
    have htoU8 (byte : UInt8) (message : String) : toU8 byte.toNat message = .ok byte := by
      have hlt := byte.toNat_lt
      rw [toU8, if_pos (by omega), Int.toNat_natCast, UInt8.ofNat_toNat]
    have hrange (value : UInt8) (max : UInt8) (hle : value.toNat ≤ max.toNat) : ¬max < value :=
      UInt8.not_lt.2 (UInt8.le_iff_toNat_le.2 hle)
    rw [encodeOracleDate, if_neg (by simp [hcivil.1, hmonth, hday, hrange _ 23 hhourLe, hrange _ 59 hminuteLe,
      hrange _ 59 hsecondLe]), ← hcivil.2.1, ← hcivil.2.2, htoU8, htoU8]
    rfl

/-- Seven bytes are the bytes of a date exactly when they are decoded. -/
theorem decodeDatetimeValue_isOk_iff (hlen : bytes.length = 7) :
    (∃ value : QueryValue J V, decodeDatetimeValue bytes = .ok value) ↔
      ∃ time, encodeOracleDate time = .ok bytes := by
  constructor
  · rintro ⟨value, h⟩
    rw [decodeDatetimeValue, if_neg (by omega)] at h
    obtain ⟨time, htime, -⟩ := except_bind_eq_ok.1 h
    exact ⟨time, encodeOracleDate_of_decodeCivilTime hlen htime⟩
  · rintro ⟨time, h⟩
    exact ⟨_, decodeDatetimeValue_encodeOracleDate h⟩

/-! ### All codecs -/

/-- Whatever an encoder accepts, its decoder returns, and seven bytes are decoded exactly when they are those of a
date. The seconds of an interval come back as hours, minutes and seconds. -/
theorem temporal_codecs_inverse :
    (∀ time bytes, encodeOracleDate time = .ok bytes →
      (decodeDatetimeValue bytes : Except _ (QueryValue J V)) = .ok (.dateTime { time with nanosecond := 0 })) ∧
    (∀ time bytes, encodeOracleTimestamp time = .ok bytes →
      (decodeDatetimeValue bytes : Except _ (QueryValue J V)) = .ok (.dateTime time)) ∧
    (∀ time bytes, encodeOracleTimestampTz time = .ok bytes →
      (decodeDatetimeValue bytes : Except _ (QueryValue J V)) = .ok (.timestampTz time 0)) ∧
    (∀ days seconds nanoseconds bytes, encodeIntervalDs days seconds nanoseconds = .ok bytes →
      ∃ hours minutes rest, (decodeIntervalDs bytes : Except _ (QueryValue J V)) =
          .ok (.intervalDS days hours minutes rest nanoseconds) ∧
        seconds = 3600 * hours + 60 * minutes + rest ∧ |minutes| < 60 ∧ |rest| < 60 ∧
        (0 ≤ seconds → 0 ≤ hours ∧ 0 ≤ minutes ∧ 0 ≤ rest) ∧ (seconds ≤ 0 → hours ≤ 0 ∧ minutes ≤ 0 ∧ rest ≤ 0)) ∧
    (∀ years months bytes, encodeIntervalYm years months = .ok bytes →
      (decodeIntervalYm bytes : Except _ (QueryValue J V)) = .ok (.intervalYM years months)) ∧
    (∀ bytes : List UInt8, bytes.length = 7 →
      ((∃ value : QueryValue J V, decodeDatetimeValue bytes = .ok value) ↔
        ∃ time, encodeOracleDate time = .ok bytes)) := by
  refine ⟨fun _ _ => decodeDatetimeValue_encodeOracleDate, fun _ _ => decodeDatetimeValue_encodeOracleTimestamp_all,
    fun time bytes h => ?_, fun days seconds nanoseconds bytes h => ?_,
      fun _ _ _ => decodeIntervalYm_encodeIntervalYm,
    fun bytes => decodeDatetimeValue_isOk_iff⟩
  · exact decodeDatetimeValue_encodeOracleTimestampTzWithOffset h
  · refine ⟨_, _, _, (decodeIntervalDs_encodeIntervalDs h).2, ?_⟩
    have hhours := Int.mul_tdiv_add_tmod seconds 3600
    have hminutes := Int.mul_tdiv_add_tmod (seconds.tmod 3600) 60
    have hsame : (seconds.tmod 3600).tmod 60 = seconds.tmod 60 := Int.tmod_tmod_of_dvd seconds (by decide)
    have hhour := tmod_bounds seconds (show (0 : Int) < 3600 by decide)
    have hminute := tmod_bounds seconds (show (0 : Int) < 60 by decide)
    rw [abs_lt, abs_lt]
    omega

theorem temporal_codecs_inverse_leapDay :
    (decodeDatetimeValue [53, 88, 1, 1, 1, 1, 1] : Except _ (QueryValue Unit Unit)) =
      .ok (.dateTime ⟨-4712, 1, 1, 0, 0, 0, 0⟩) ∧
    (decodeDatetimeValue [120, 124, 2, 29, 24, 60, 59, 0, 0, 0, 5] : Except _ (QueryValue Unit Unit)) =
      .ok (.dateTime ⟨2024, 2, 29, 23, 59, 58, 5⟩) ∧
    (decodeDatetimeValue [120, 124, 2, 29, 24, 60, 59, 0, 0, 0, 5, 20, 60] : Except _ (QueryValue Unit Unit)) =
      .ok (.timestampTz ⟨2024, 2, 29, 23, 59, 58, 5⟩ 0) ∧
    (∃ hours minutes rest, (decodeIntervalDs [127, 255, 255, 253, 59, 59, 59, 127, 255, 255, 249] :
        Except _ (QueryValue Unit Unit)) = .ok (.intervalDS (-3) hours minutes rest (-7)) ∧
      -3661 = 3600 * hours + 60 * minutes + rest) ∧
    (decodeIntervalYm [127, 255, 255, 254, 55] : Except _ (QueryValue Unit Unit)) = .ok (.intervalYM (-2) (-5)) ∧
    ∃ value : QueryValue Unit Unit, decodeDatetimeValue [120, 124, 2, 29, 24, 60, 59] = .ok value := by
  obtain ⟨hdate, hstamp, hzoned, hdays, hmonths, hseven⟩ := temporal_codecs_inverse
  obtain ⟨hours, minutes, rest, hdecoded, hsum, -⟩ :=
    hdays (-3) (-3661) (-7) [127, 255, 255, 253, 59, 59, 59, 127, 255, 255, 249] (by decide)
  exact ⟨hdate ⟨-4712, 1, 1, 0, 0, 0, 0⟩ _ (by decide), hstamp ⟨2024, 2, 29, 23, 59, 58, 5⟩ _ (by decide),
    hzoned ⟨2024, 2, 29, 23, 59, 58, 5⟩ _ (by decide), ⟨hours, minutes, rest, hdecoded, hsum⟩,
    hmonths (-2) (-5) _ (by decide), (hseven _ rfl).2 ⟨⟨2024, 2, 29, 23, 59, 58, 0⟩, by decide⟩⟩

end OracleThin.Bind

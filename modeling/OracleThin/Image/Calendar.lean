import OracleThin.Image.Oson

/-!
# Shifting a date and time

A time stamp of an OSON image is shifted by the offset of its time zone. The shift goes through the number of the day,
in a Gregorian calendar that has a year 0, and is exact there. The calendar of Oracle has no year 0 and ends with the
year 9999: a shift is exact in it only if it stays on one side of the year 0 and within the years of the calendar.
-/

namespace OracleThin.Image

open Lib Wire Ttc

/-! ### Dates and day numbers -/

/-- The number of a day, 0 for 1970-01-01. The years are counted from March on, so that a leap day is the last day. -/
def dayNumber (year month day : Int) : Int :=
  let y := if month ≤ 2 then year - 1 else year
  let m := if month ≤ 2 then month + 9 else month - 3
  365 * y + y / 4 - y / 100 + y / 400 + (153 * m + 2) / 5 + day - 719469

def monthLength (year month : Int) : Int :=
  if month = 2 then if year % 4 = 0 ∧ (year % 100 ≠ 0 ∨ year % 400 = 0) then 29 else 28
  else if month = 4 ∨ month = 6 ∨ month = 9 ∨ month = 11 then 30
  else 31

theorem monthLength_le (year month : Int) : monthLength year month ≤ 31 := by
  unfold monthLength
  split_ifs <;> decide

/-- The day exists in the calendar that has a year 0. -/
def IsDate (year month day : Int) : Prop := 1 ≤ month ∧ month ≤ 12 ∧ 1 ≤ day ∧ day ≤ monthLength year month

theorem dayNumber_lt_iff {year month day : Int} (h : IsDate year month day) (year' : Int) :
    dayNumber year month day < dayNumber year' 1 1 ↔ year < year' := by
  simp only [IsDate, monthLength, dayNumber] at h ⊢
  split_ifs at h ⊢ <;> omega

/-! ### The years of an era -/

/-- The days of an era of 400 years before the given one of its years. -/
def daysBefore (year : Int) : Int := 365 * year + year / 4 - year / 100

/-- A day of an era without the leap days. -/
def plainDay (day : Int) : Int := day - day / 1460 + day / 36524 - day / 146096

private theorem plainDay_mono {day day' : Int} (h : day ≤ day') : plainDay day ≤ plainDay day' := by
  unfold plainDay
  omega

private theorem plainDay_daysBefore : ∀ year : Fin 400, 365 * (year.val : Int) ≤ plainDay (daysBefore year.val) ∧
    (0 < year.val → plainDay (daysBefore year.val - 1) < 365 * (year.val : Int)) := by
  decide +kernel

private theorem daysBefore_era {year : Int} (h : 0 ≤ year ∧ year < 400) (era : Int) :
    365 * (year + era * 400) + (year + era * 400) / 4 - (year + era * 400) / 100 + (year + era * 400) / 400 =
      era * 146097 + daysBefore year := by
  have hfour : (year + era * 400) / 4 = year / 4 + era * 100 := by omega
  have hundred : (year + era * 400) / 100 = year / 100 + era * 4 := by omega
  have hera : (year + era * 400) / 400 = era := by omega
  rw [hfour, hundred, hera, daysBefore]
  ring

/-- The year of a day of an era, and its day of that year, which is the leap day if it is the last one. -/
theorem daysBefore_le {day : Int} (h : 0 ≤ day ∧ day < 146097) {year : Int} (hyear : plainDay day / 365 = year) :
    0 ≤ year ∧ year < 400 ∧ daysBefore year ≤ day ∧ (day < daysBefore year + 365 ∨
      day = daysBefore year + 365 ∧ (year + 1) % 4 = 0 ∧ ((year + 1) % 100 ≠ 0 ∨ (year + 1) % 400 = 0)) := by
  have hrange : 0 ≤ year ∧ year < 400 := by
    unfold plainDay at hyear
    omega
  obtain ⟨year, rfl⟩ := Int.eq_ofNat_of_zero_le hrange.1
  have hfirst : daysBefore year ≤ day := by
    by_contra hlt
    have hpos : 0 < year := by
      by_contra hzero
      obtain rfl : year = 0 := by omega
      exact hlt h.1
    have hbefore := (plainDay_daysBefore ⟨year, by omega⟩).2 hpos
    have hmono := plainDay_mono (Int.le_sub_one_of_lt (Int.not_le.1 hlt))
    dsimp only at hbefore
    omega
  have hlast : year < 399 → day < daysBefore (year + 1) := by
    intro hyear
    by_contra hlt
    have hnext := (plainDay_daysBefore ⟨year + 1, by omega⟩).1
    have hmono := plainDay_mono (Int.not_lt.1 hlt)
    push_cast at hnext
    omega
  refine ⟨hrange.1, hrange.2, hfirst, ?_⟩
  have hfour : ((year : Int) + 1) / 4 = year / 4 + if ((year : Int) + 1) % 4 = 0 then 1 else 0 := by split <;> omega
  have hundred : ((year : Int) + 1) / 100 = year / 100 + if ((year : Int) + 1) % 100 = 0 then 1 else 0 := by
    split <;> omega
  unfold daysBefore at *
  split at hfour <;> split at hundred <;> omega

/-! ### The functions of the driver -/

theorem tdiv_floor (a : Int) {b c : Int} (hb : 0 < b) (hc : c = b - 1) :
    (if 0 ≤ a then a else a - c).tdiv b = a / b := by
  split
  · exact Int.tdiv_eq_ediv_of_nonneg ‹_›
  · have hsplit : -(a - c) = b - 1 - a % b + -(a / b) * b := by
      have := Int.mul_ediv_add_emod a b
      linarith
    have hmod := Int.emod_lt_of_pos a hb
    have hmod' := Int.emod_nonneg a hb.ne'
    rw [← Int.neg_neg (a - c), Int.neg_tdiv, Int.tdiv_eq_ediv_of_nonneg (by omega), hsplit,
      Int.add_mul_ediv_right _ _ hb.ne', Int.ediv_eq_zero_of_lt (by omega) (by omega)]
    omega

theorem daysFromCivil_eq {year : Int} {month day : UInt8}
    (h : 1 ≤ month.toNat ∧ month.toNat ≤ 12 ∧ 1 ≤ day.toNat ∧ day.toNat ≤ 31) :
    daysFromCivil year month day = .ok (dayNumber year month.toNat day.toNat) := by
  have hlow : month ≤ 2 ↔ (month.toNat : Int) ≤ 2 := by rw [UInt8.le_iff_toNat_le]; simp
  have hhigh : 2 < month ↔ ¬(month.toNat : Int) ≤ 2 := by rw [← hlow, UInt8.not_le]
  unfold daysFromCivil dayNumber
  rw [if_neg (by simp only [UInt8.lt_iff_toNat_lt]; simp; omega)]
  simp only [hlow, hhigh, tdiv_floor _ (b := 400) (c := 399) (by decide) rfl]
  split
  all_goals
    simp (disch := omega) only [Int.tdiv_eq_ediv_of_nonneg]
    congr 1
    omega

private theorem toU8_eq {value : Int} (message : String) (h : 0 ≤ value ∧ value < 256) :
    ∃ byte, toU8 value message = .ok byte ∧ (byte.toNat : Int) = value := by
  refine ⟨_, if_pos h, ?_⟩
  rw [UInt8.toNat_ofNat']
  omega

private theorem civilOf_spec (days : Int) : ∃ year month day : Int, civilOf days = (year, month, day) ∧
    IsDate year month day ∧ dayNumber year month day = days := by
  have hera : 0 ≤ days + 719468 - (days + 719468) / 146097 * 146097 ∧
      days + 719468 - (days + 719468) / 146097 * 146097 < 146097 := by omega
  unfold civilOf
  simp only [tdiv_floor _ (b := 146097) (c := 146096) (by decide) rfl]
  generalize hdays : (days + 719468) / 146097 = era at hera ⊢
  generalize hday : days + 719468 - era * 146097 = dayOfEra at hera ⊢
  obtain ⟨hyear, hyear', hle, hlt⟩ := daysBefore_le hera rfl
  simp (disch := omega) only [Int.tdiv_eq_ediv_of_nonneg]
  rw [← plainDay]
  generalize plainDay dayOfEra / 365 = year at *
  rw [← daysBefore]
  generalize hdoy : dayOfEra - daysBefore year = dayOfYear at *
  simp (disch := omega) only [Int.tdiv_eq_ediv_of_nonneg]
  refine ⟨_, _, _, rfl, ?_⟩
  have hdays := daysBefore_era ⟨hyear, hyear'⟩ era
  simp only [IsDate, monthLength, dayNumber]
  split_ifs <;> simp only [Int.add_sub_cancel, Int.add_zero, hdays] <;> omega

/-- The year is the only part of a date that may be out of its range. -/
theorem civilFromDays_spec (days : Int) : ∃ (year : Int) (month day : UInt8),
    civilFromDays days = (do return (← toI32 year "invalid adjusted TIMESTAMP year", month, day)) ∧
      civilOf days = (year, (month.toNat : Int), (day.toNat : Int)) ∧
      IsDate year month.toNat day.toNat ∧ dayNumber year month.toNat day.toNat = days := by
  obtain ⟨year, month, day, hcivil, hdate, hdays⟩ := civilOf_spec days
  have hlength := monthLength_le year month
  obtain ⟨hmonth, hmonth', hday, hday'⟩ := hdate
  obtain ⟨m, hm, hm'⟩ := @toU8_eq month "invalid adjusted TIMESTAMP month" (by omega)
  obtain ⟨d, hd, hd'⟩ := @toU8_eq day "invalid adjusted TIMESTAMP day" (by omega)
  refine ⟨year, m, d, ?_, ?_⟩
  · simp only [civilFromDays, hcivil, hm, hd]
    rfl
  · rw [hm', hd']
    exact ⟨hcivil, ⟨hmonth, hmonth', hday, hday'⟩, hdays⟩

/-! ### The shift -/

/-- The number of a second in the calendar that has a year 0. -/
def secondNumber (time : CivilTime) : Int :=
  dayNumber time.year time.month.toNat time.day.toNat * 86400 +
    (time.hour.toNat * 3600 + time.minute.toNat * 60 + time.second.toNat)

/-- The date exists in the calendar that has a year 0, and the time of the day exists. -/
structure IsTime (time : CivilTime) : Prop where
  date : IsDate time.year time.month.toNat time.day.toNat
  hour : time.hour.toNat < 24
  minute : time.minute.toNat < 60
  second : time.second.toNat < 60

/-- The end of `adjustDatetimeByMinutes`: the time of a second. -/
def timeOf (seconds : Int) (nanosecond : Nat) : Result CivilTime := do
  let (year, month, day) ← civilFromDays (seconds / 86400)
  let hour ← toU8 (seconds % 86400 / 3600) "invalid adjusted TIMESTAMP hour"
  let minute ← toU8 (seconds % 86400 % 3600 / 60) "invalid adjusted TIMESTAMP minute"
  let second ← toU8 (seconds % 86400 % 60) "invalid adjusted TIMESTAMP second"
  return ⟨year, month, day, hour, minute, second, nanosecond⟩

private theorem adjustDatetimeByMinutes_eq {time : CivilTime} (h : IsTime time) (offset : Int) :
    adjustDatetimeByMinutes time offset = timeOf (secondNumber time + offset * 60) time.nanosecond := by
  obtain ⟨hmonth, hmonth', hday, hday'⟩ := h.date
  have hlength := monthLength_le time.year time.month.toNat
  unfold adjustDatetimeByMinutes
  rw [daysFromCivil_eq (by omega)]
  rfl

private theorem timeOf_spec (seconds : Int) (nanosecond : Nat) : ∃ time : CivilTime, IsTime time ∧
    secondNumber time = seconds ∧ time.nanosecond = nanosecond ∧
    timeOf seconds nanosecond = (toI32 time.year "invalid adjusted TIMESTAMP year").map fun _ => time := by
  obtain ⟨year, month, day, hcivil, -, hdate, hdays⟩ := civilFromDays_spec (seconds / 86400)
  obtain ⟨hour, hhour, hhour'⟩ := toU8_eq "invalid adjusted TIMESTAMP hour"
    (by omega : 0 ≤ seconds % 86400 / 3600 ∧ seconds % 86400 / 3600 < 256)
  obtain ⟨minute, hminute, hminute'⟩ := toU8_eq "invalid adjusted TIMESTAMP minute"
    (by omega : 0 ≤ seconds % 86400 % 3600 / 60 ∧ seconds % 86400 % 3600 / 60 < 256)
  obtain ⟨second, hsecond, hsecond'⟩ := toU8_eq "invalid adjusted TIMESTAMP second"
    (by omega : 0 ≤ seconds % 86400 % 60 ∧ seconds % 86400 % 60 < 256)
  refine ⟨⟨year, month, day, hour, minute, second, nanosecond⟩, ⟨hdate, ?_, ?_, ?_⟩, ?_, rfl, ?eq⟩
  case eq =>
    rw [timeOf, hcivil, hhour, hminute, hsecond]
    unfold toI32
    split <;> rfl
  all_goals
    simp only [secondNumber, hdays]
    omega

private theorem secondNumber_lt_iff {time : CivilTime} (h : IsTime time) (year : Int) :
    time.year < year ↔ secondNumber time <
      (365 * (year - 1) + (year - 1) / 4 - (year - 1) / 100 + (year - 1) / 400 - 719162) * 86400 := by
  obtain ⟨hdate, hhour, hminute, hsecond⟩ := h
  rw [← dayNumber_lt_iff hdate, secondNumber]
  simp only [dayNumber, Int.reduceLE, if_true]
  omega

private theorem adjustDatetimeByMinutes_ok {time result : CivilTime} (h : IsTime time) {offset : Int}
    (hok : adjustDatetimeByMinutes time offset = .ok result) : IsTime result ∧
    secondNumber result = secondNumber time + offset * 60 ∧ result.nanosecond = time.nanosecond := by
  rw [adjustDatetimeByMinutes_eq h] at hok
  obtain ⟨_, hresult, hseconds, hnanosecond, heq⟩ := timeOf_spec (secondNumber time + offset * 60) time.nanosecond
  obtain ⟨_, _, rfl⟩ := except_map_eq_ok.1 (heq.symm.trans hok)
  exact ⟨hresult, hseconds, hnanosecond⟩

/-! ### The calendar of Oracle -/

/-- A date and time of the calendar of Oracle. -/
structure IsOracleTime (time : CivilTime) : Prop extends IsTime time where
  year : validOracleDateYear time.year
  nanosecond : time.nanosecond < 10 ^ 9

/-- The number of a second in the calendar of Oracle, where the year 1 follows the year -1. -/
def oracleSecond (time : CivilTime) : Int := secondNumber time + if time.year < 0 then 366 * 86400 else 0

/-- The shifted second is in the years of the calendar on the same side of the year 0. -/
def StaysInEra (time : CivilTime) (offset : Int) : Prop :=
  let seconds := secondNumber time + offset * 60
  if time.year < 0 then dayNumber (-4712) 1 1 * 86400 ≤ seconds ∧ seconds < dayNumber 0 1 1 * 86400
  else dayNumber 1 1 1 * 86400 ≤ seconds ∧ seconds < dayNumber 10000 1 1 * 86400

private theorem exists_adjustDatetimeByMinutes {time : CivilTime} (h : IsOracleTime time) {offset : Int}
    (hoffset : -2 ^ 31 ≤ offset ∧ offset < 2 ^ 31) : ∃ result, adjustDatetimeByMinutes time offset = .ok result := by
  obtain ⟨result, hresult, hseconds, -, heq⟩ := timeOf_spec (secondNumber time + offset * 60) time.nanosecond
  have hyear := h.year
  simp only [validOracleDateYear, decide_eq_true_eq] at hyear
  have hfirst := secondNumber_lt_iff h.toIsTime (-4712)
  have hlast := secondNumber_lt_iff h.toIsTime 10000
  have hfirst' := secondNumber_lt_iff hresult (-20000)
  have hlast' := secondNumber_lt_iff hresult 20000
  rw [adjustDatetimeByMinutes_eq h.toIsTime, heq, toI32, if_pos (by omega)]
  exact ⟨_, rfl⟩

/-- A shift gives the date and time of the calendar of Oracle that many minutes away exactly if it stays in its era,
and two shifts add up. -/
theorem adjustDatetimeByMinutes_iff {time : CivilTime} (h : IsOracleTime time) {offset : Int}
    (hoffset : -2 ^ 31 ≤ offset ∧ offset < 2 ^ 31) :
    ((∀ result, adjustDatetimeByMinutes time offset = .ok result → IsOracleTime result ∧
        oracleSecond result = oracleSecond time + offset * 60 ∧ result.nanosecond = time.nanosecond) ↔
      StaysInEra time offset) ∧
    ∀ (a b : Int) (first second sum : CivilTime), adjustDatetimeByMinutes time a = .ok first →
      adjustDatetimeByMinutes first b = .ok second → adjustDatetimeByMinutes time (a + b) = .ok sum →
      second = sum := by
  constructor
  · obtain ⟨result, heq⟩ := exists_adjustDatetimeByMinutes h hoffset
    obtain ⟨hresult, hseconds, hnanosecond⟩ := adjustDatetimeByMinutes_ok h.toIsTime heq
    have hyear := h.year
    have hyears := secondNumber_lt_iff hresult
    have hfirst := hyears (-4712)
    have hzero := hyears 0
    have hone := hyears 1
    have hlast := hyears 10000
    constructor
    · intro hall
      obtain ⟨hvalid, hshift, -⟩ := hall result heq
      have hyear' := hvalid.year
      simp only [validOracleDateYear, decide_eq_true_eq] at hyear'
      simp only [oracleSecond, StaysInEra, dayNumber] at hshift ⊢
      split_ifs at hshift ⊢ <;> omega
    · rintro hstays _ hok
      obtain rfl := Except.ok.inj (heq.symm.trans hok)
      simp only [StaysInEra, dayNumber] at hstays
      refine ⟨⟨hresult, ?_, hnanosecond ▸ h.nanosecond⟩, ?_, hnanosecond⟩
      · simp only [validOracleDateYear, decide_eq_true_eq]
        split_ifs at hstays <;> omega
      · simp only [oracleSecond]
        split_ifs at hstays ⊢ <;> omega
  · intro a b first second sum hfirst hsecond hsum
    obtain ⟨htime, hseconds, hnanosecond⟩ := adjustDatetimeByMinutes_ok h.toIsTime hfirst
    rw [adjustDatetimeByMinutes_eq h.toIsTime, Int.add_mul, ← Int.add_assoc, ← hseconds, ← hnanosecond,
      ← adjustDatetimeByMinutes_eq htime] at hsum
    exact Except.ok.inj (hsecond.symm.trans hsum)

theorem adjustDatetimeByMinutes_firstHour : IsOracleTime ⟨1, 1, 1, 1, 0, 0, 0⟩ ∧
    oracleSecond ⟨1, 1, 1, 1, 0, 0, 0⟩ = oracleSecond ⟨1, 1, 1, 0, 0, 0, 0⟩ + 60 * 60 ∧
    (⟨1, 1, 1, 1, 0, 0, 0⟩ : CivilTime).nanosecond = 0 :=
  (adjustDatetimeByMinutes_iff ⟨⟨by unfold IsDate; decide, by decide, by decide, by decide⟩, by decide, by decide⟩
    (by decide)).1.2 (by unfold StaysInEra; decide) _ rfl

/-- A minute after the last minute of the year -1 is in a year 0, which Oracle does not have. -/
theorem adjustDatetimeByMinutes_yearZero : IsOracleTime ⟨-1, 12, 31, 23, 59, 0, 0⟩ ∧
    adjustDatetimeByMinutes ⟨-1, 12, 31, 23, 59, 0, 0⟩ 1 = .ok ⟨0, 1, 1, 0, 0, 0, 0⟩ ∧
    ¬IsOracleTime ⟨0, 1, 1, 0, 0, 0, 0⟩ :=
  ⟨⟨⟨by unfold IsDate; decide, by decide, by decide, by decide⟩, by decide, by decide⟩, rfl,
    fun h => absurd h.year (by decide)⟩

end OracleThin.Image

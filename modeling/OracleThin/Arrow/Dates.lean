import OracleThin.Arrow.Convert
import OracleThin.Image.Calendar

/-!
# Dates of Arrow arrays

The Arrow builder counts the days of a date and the direct path load turns days back into dates, each with a copy of
the function of the wire codec. The copies agree, and the two directions are inverse to each other, on the years of
Oracle.
-/

namespace OracleThin.Arrow

open Lib Wire Ttc Image

/-! ### The order of the days -/

/-- The first date is before the second one. -/
def DateLt (year month day year' month' day' : Int) : Prop :=
  year < year' ∨ year = year' ∧ (month < month' ∨ month = month' ∧ day < day')

section

variable {year month day year' month' day' : Int} (h : IsDate year month day) (h' : IsDate year' month' day')
include h h'

private theorem dayNumber_lt (hlt : DateLt year month day year' month' day') :
    dayNumber year month day < dayNumber year' month' day' := by
  obtain hyear | ⟨rfl, hlt⟩ := hlt
  · have hfirst := (dayNumber_lt_iff h year').2 hyear
    have hrest := (dayNumber_lt_iff h' year').not.2 (lt_irrefl _)
    omega
  · simp only [IsDate, monthLength, dayNumber] at h h' ⊢
    split_ifs at h h' ⊢ <;> omega

private theorem dayNumber_lt_iff_dateLt :
    dayNumber year month day < dayNumber year' month' day' ↔ DateLt year month day year' month' day' := by
  refine ⟨fun hlt => ?_, dayNumber_lt h h'⟩
  by_contra hnot
  have hge : DateLt year' month' day' year month day ∨ year = year' ∧ month = month' ∧ day = day' := by
    unfold DateLt at *
    omega
  obtain hgt | ⟨rfl, rfl, rfl⟩ := hge
  · exact lt_asymm hlt (dayNumber_lt h' h hgt)
  · exact lt_irrefl _ hlt

private theorem dayNumber_inj (heq : dayNumber year month day = dayNumber year' month' day') :
    year = year' ∧ month = month' ∧ day = day' := by
  have hlt := (dayNumber_lt_iff_dateLt h h').not.1 heq.not_lt
  have hgt := (dayNumber_lt_iff_dateLt h' h).not.1 heq.not_gt
  unfold DateLt at *
  omega

end

/-! ### The copies -/

/-- The copy of the direct path load, which narrows the year to 32 bits. -/
def civilFromDays (days : Int) : Int × UInt8 × UInt8 :=
  let days := days + 719468
  let era := (if 0 ≤ days then days else days - 146096).tdiv 146097
  let dayOfEra := days - era * 146097
  let yearOfEra := (dayOfEra - dayOfEra.tdiv 1460 + dayOfEra.tdiv 36524 - dayOfEra.tdiv 146096).tdiv 365
  let year := yearOfEra + era * 400
  let dayOfYear := dayOfEra - (365 * yearOfEra + yearOfEra.tdiv 4 - yearOfEra.tdiv 100)
  let monthPrime := (5 * dayOfYear + 2).tdiv 153
  let day := dayOfYear - (153 * monthPrime + 2).tdiv 5 + 1
  let month := monthPrime + if monthPrime < 10 then 3 else -9
  let year := year + if month ≤ 2 then 1 else 0
  (wrapInt 32 year, UInt8.ofInt month, UInt8.ofInt day)

private theorem daysFromCivil_eq_dayNumber (year : Int) (month day : UInt8) :
    daysFromCivil year month day = dayNumber year month.toNat day.toNat := by
  have hlow : month ≤ 2 ↔ (month.toNat : Int) ≤ 2 := by rw [UInt8.le_iff_toNat_le]; simp
  unfold daysFromCivil dayNumber
  simp only [hlow, ← Int.not_le, tdiv_floor _ (b := 400) (c := 399) (by decide) rfl]
  split
  all_goals
    simp (disch := omega) only [Int.tdiv_eq_ediv_of_nonneg]
    omega

/-- The direct path load reads the date that the wire codec reads, with its year narrowed. -/
theorem exists_civilFromDays (days : Int) : ∃ (year : Int) (month day : UInt8),
    civilFromDays days = (wrapInt 32 year, month, day) ∧
      Image.civilFromDays days = (do return (← toI32 year "invalid adjusted TIMESTAMP year", month, day)) ∧
      IsDate year month.toNat day.toNat ∧ dayNumber year month.toNat day.toNat = days := by
  obtain ⟨year, month, day, hcodec, hcivil, hdate⟩ := civilFromDays_spec days
  have heq : civilFromDays days =
      (wrapInt 32 (civilOf days).1, UInt8.ofInt (civilOf days).2.1, UInt8.ofInt (civilOf days).2.2) := rfl
  have hbyte (byte : UInt8) : UInt8.ofInt byte.toNat = byte := by
    have hlt := byte.toNat_lt
    rw [UInt8.ofInt, Int.emod_eq_of_lt (by omega) (by omega), Int.toNat_natCast, UInt8.ofNat_toNat]
  refine ⟨year, month, day, ?_, hcodec, hdate⟩
  rw [heq, hcivil, hbyte, hbyte]

/-- A year of 32 bits is kept by both copies. -/
theorem civilFromDays_dayNumber {year : Int} {month day : UInt8} (h : IsDate year month.toNat day.toNat)
    (hyear : -2 ^ 31 ≤ year ∧ year < 2 ^ 31) :
    civilFromDays (dayNumber year month.toNat day.toNat) = (year, month, day) ∧
      Image.civilFromDays (dayNumber year month.toNat day.toNat) = .ok (year, month, day) := by
  obtain ⟨year', month', day', hdirect, hcodec, hdate, hdays⟩ :=
    exists_civilFromDays (dayNumber year month.toNat day.toNat)
  obtain ⟨rfl, hmonth, hday⟩ := dayNumber_inj hdate h hdays
  obtain rfl := UInt8.toNat_inj.1 (Int.ofNat.inj hmonth)
  obtain rfl := UInt8.toNat_inj.1 (Int.ofNat.inj hday)
  rw [hdirect, hcodec, toI32, if_pos hyear, wrapInt, Int.bmod_eq_of_le (by omega) (by omega)]
  exact ⟨rfl, rfl⟩

/-- On the years -4713 to 9999 dates and days correspond to each other in order, in all copies. -/
theorem calendar_copies_inverse :
    (∀ days : Int, dayNumber (-4713) 1 1 ≤ days → days < dayNumber 10000 1 1 → ∃ (year : Int) (month day : UInt8),
      IsDate year month.toNat day.toNat ∧ -4713 ≤ year ∧ year ≤ 9999 ∧
        Image.civilFromDays days = .ok (year, month, day) ∧ civilFromDays days = (year, month, day) ∧
        Image.daysFromCivil year month day = .ok days ∧ daysFromCivil year month day = days) ∧
    (∀ (year : Int) (month day : UInt8), IsDate year month.toNat day.toNat → -4713 ≤ year → year ≤ 9999 →
      ∃ days : Int, dayNumber (-4713) 1 1 ≤ days ∧ days < dayNumber 10000 1 1 ∧
        Image.daysFromCivil year month day = .ok days ∧ daysFromCivil year month day = days ∧
        Image.civilFromDays days = .ok (year, month, day) ∧ civilFromDays days = (year, month, day)) ∧
    ∀ (year year' : Int) (month day month' day' : UInt8), IsDate year month.toNat day.toNat →
      IsDate year' month'.toNat day'.toNat →
      (daysFromCivil year month day < daysFromCivil year' month' day' ↔
        DateLt year month.toNat day.toNat year' month'.toNat day'.toNat) := by
  have hcopies {year : Int} {month day : UInt8} (h : IsDate year month.toNat day.toNat) (hyear : -4713 ≤ year)
      (hyear' : year ≤ 9999) : Image.daysFromCivil year month day = .ok (dayNumber year month.toNat day.toNat) ∧
        civilFromDays (dayNumber year month.toNat day.toNat) = (year, month, day) ∧
        Image.civilFromDays (dayNumber year month.toNat day.toNat) = .ok (year, month, day) := by
    have hlength := monthLength_le year month.toNat
    have hparts := h
    unfold IsDate at hparts
    exact ⟨daysFromCivil_eq (by omega), civilFromDays_dayNumber h (by omega)⟩
  simp only [daysFromCivil_eq_dayNumber]
  refine ⟨?_, ?_, ?_⟩
  · intro days hlow hhigh
    obtain ⟨year, month, day, -, -, hdate, rfl⟩ := exists_civilFromDays days
    have hyear := (dayNumber_lt_iff hdate (-4713)).not.1 (not_lt.2 hlow)
    have hyear' := (dayNumber_lt_iff hdate 10000).1 hhigh
    obtain ⟨hdays, hdirect, hcodec⟩ := hcopies hdate (by omega) (by omega)
    exact ⟨year, month, day, hdate, by omega, by omega, hcodec, hdirect, hdays, rfl⟩
  · intro year month day hdate hyear hyear'
    obtain ⟨hdays, hdirect, hcodec⟩ := hcopies hdate hyear hyear'
    have hlow := (dayNumber_lt_iff hdate (-4713)).not.2 (not_lt.2 hyear)
    have hhigh := (dayNumber_lt_iff hdate 10000).2 (by omega)
    exact ⟨_, not_lt.1 hlow, hhigh, hdays, rfl, hcodec, hdirect⟩
  · intro year year' month day month' day' hdate hdate'
    exact dayNumber_lt_iff_dateLt hdate hdate'

end OracleThin.Arrow

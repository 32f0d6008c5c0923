import Mathlib.Tactic.Ring
import Soms.Somsai.Dodge

/-!
# Months on

The days of `addMonths`: the date of a day and the day of a date are inverse to each other, months
are counted through, and a date some months on lies in a later month whatever its day becomes.
-/

namespace Soms.Somsai

/-! ## Months counted through -/

theorem daysFromCivil_eq (year month day : Int) : daysFromCivil year month day =
    365 * (if month ≤ 2 then year - 1 else year) + (if month ≤ 2 then year - 1 else year) / 4 -
      (if month ≤ 2 then year - 1 else year) / 100 + (if month ≤ 2 then year - 1 else year) / 400 +
      (153 * (if 2 < month then month - 3 else month + 9) + 2) / 5 + day - 719469 := by
  unfold daysFromCivil
  dsimp only
  generalize (if month ≤ 2 then year - 1 else year) = y
  generalize (153 * (if 2 < month then month - 3 else month + 9) + 2) / 5 = m
  omega

/-- The first day of a month, months counted through. -/
def monthStart (total : Int) : Int := daysFromCivil (total / 12) (total % 12 + 1) 1

theorem monthStart_succ (total : Int) : monthStart total + 28 ≤ monthStart (total + 1) ∧
    monthStart (total + 1) ≤ monthStart total + 31 := by
  unfold monthStart
  rw [daysFromCivil_eq, daysFromCivil_eq]
  obtain ⟨y, m, rfl, hm⟩ : ∃ y m : Int, total = 12 * y + m ∧ 0 ≤ m ∧ m < 12 :=
    ⟨total / 12, total % 12, by omega, by omega, by omega⟩
  have hy : (12 * y + m) / 12 = y := by omega
  have hm' : (12 * y + m) % 12 = m := by omega
  rw [hy, hm']
  by_cases hlast : m = 11
  · subst hlast
    have hyear : (12 * y + 11 + 1) / 12 = y + 1 := by omega
    have hmonth : (12 * y + 11 + 1) % 12 = 0 := by omega
    rw [hyear, hmonth]
    norm_num
    omega
  · have hyear : (12 * y + m + 1) / 12 = y := by omega
    have hmonth : (12 * y + m + 1) % 12 = m + 1 := by omega
    rw [hyear, hmonth]
    have hcases : m = 0 ∨ m = 1 ∨ m = 2 ∨ m = 3 ∨ m = 4 ∨ m = 5 ∨ m = 6 ∨ m = 7 ∨ m = 8 ∨ m = 9 ∨
        m = 10 := by omega
    rcases hcases with rfl | rfl | rfl | rfl | rfl | rfl | rfl | rfl | rfl | rfl | rfl <;>
      norm_num <;> omega

/-! ## The date of a day -/

/-- A day of an era in its hundred years, four years and year. -/
theorem exists_dayOfEra {e : Int} (h : 0 ≤ e ∧ e < 146097) :
    ∃ c q r s : Int, (0 ≤ c ∧ c ≤ 3) ∧ (0 ≤ q ∧ q ≤ 24) ∧ (0 ≤ r ∧ r ≤ 3) ∧ (0 ≤ s ∧ s ≤ 365) ∧
      (s = 365 → r = 3) ∧ (q = 24 → r = 3 → s = 365 → c = 3) ∧
      e = 36524 * c + 1461 * q + 365 * r + s := by
  obtain ⟨c, hc⟩ : ∃ c, c = min 3 (e / 36524) := ⟨_, rfl⟩
  obtain ⟨q, hq⟩ : ∃ q, q = (e - 36524 * c) / 1461 := ⟨_, rfl⟩
  obtain ⟨r, hr⟩ : ∃ r, r = min 3 ((e - 36524 * c - 1461 * q) / 365) := ⟨_, rfl⟩
  refine ⟨c, q, r, e - 36524 * c - 1461 * q - 365 * r, ?_, ?_, ?_, ?_, ?_, ?_, ?_⟩ <;> omega

theorem yearOfEra_eq {c q r s : Int} (hc : 0 ≤ c ∧ c ≤ 3) (hq : 0 ≤ q ∧ q ≤ 24)
    (hr : 0 ≤ r ∧ r ≤ 3) (hs : 0 ≤ s ∧ s ≤ 365) (hlast : s = 365 → r = 3)
    (hcentury : q = 24 → r = 3 → s = 365 → c = 3) {e : Int}
    (he : e = 36524 * c + 1461 * q + 365 * r + s) :
    (e - e / 1460 + e / 36524 - e / 146096) / 365 = 100 * c + 4 * q + r := by
  have hcentury' : e / 36524 - e / 146096 = c := by
    by_cases hend : q = 24 ∧ r = 3 ∧ s = 365
    · obtain ⟨rfl, rfl, rfl⟩ := hend
      obtain rfl := hcentury rfl rfl rfl
      omega
    · have hlow : 1461 * q + 365 * r + s < 36524 := by omega
      have hcenturies : e / 36524 = c := by
        clear hend hlast hcentury
        omega
      have hwhole : e / 146096 = 0 := Int.ediv_eq_zero_of_lt (by omega) (by omega)
      rw [hcenturies, hwhole, sub_zero]
  have hleap : e / 1460 = 25 * c + q + (if 1460 ≤ 24 * c + q + 365 * r + s then 1 else 0) := by
    split <;> omega
  rw [hleap]
  split <;> omega

/-- A day of a year that starts in March. -/
theorem dayOfYear_bounds {s mp : Int} (hs : 0 ≤ s ∧ s ≤ 365) (hmp : mp = (5 * s + 2) / 153) :
    (0 ≤ mp ∧ mp ≤ 11) ∧ 1 ≤ s - (153 * mp + 2) / 5 + 1 ∧ s - (153 * mp + 2) / 5 + 1 ≤ 31 := by
  omega

/-- The month that comes so many months after March. -/
theorem daysFromCivil_march {y m mp : Int} (hmp : 0 ≤ mp ∧ mp ≤ 11)
    (hm : m = if mp < 10 then mp + 3 else mp - 9) (day : Int) :
    daysFromCivil (y + if m ≤ 2 then 1 else 0) m day =
      365 * y + y / 4 - y / 100 + y / 400 + (153 * mp + 2) / 5 + day - 719469 := by
  have hyear : (if m ≤ 2 then y + (if m ≤ 2 then 1 else 0) - 1 else
      y + if m ≤ 2 then 1 else 0) = y := by
    split_ifs <;> omega
  have hmonth : (if 2 < m then m - 3 else m + 9) = mp := by
    rw [hm]
    split_ifs <;> omega
  rw [daysFromCivil_eq, hyear, hmonth]

/-- The days before a year of an era. -/
theorem yearOfEra_days {c q r : Int} (hc : 0 ≤ c ∧ c ≤ 3) (hq : 0 ≤ q ∧ q ≤ 24)
    (hr : 0 ≤ r ∧ r ≤ 3) (era : Int) :
    (100 * c + 4 * q + r + era * 400) / 4 = 25 * c + q + 100 * era ∧
      (100 * c + 4 * q + r + era * 400) / 100 = c + 4 * era ∧
      (100 * c + 4 * q + r + era * 400) / 400 = era := by
  refine ⟨?_, ?_, ?_⟩ <;> omega

/-- The date of a day is in a month that starts at most thirty days before. -/
theorem civilFromDays_spec {days y m d : Int} (h : civilFromDays days = (y, m, d)) :
    (1 ≤ m ∧ m ≤ 12) ∧ (1 ≤ d ∧ d ≤ 31) ∧ daysFromCivil y m d = days := by
  obtain ⟨era, hera⟩ : ∃ era, era = (days + 719468) / 146097 := ⟨_, rfl⟩
  have hbounds : 0 ≤ days + 719468 - era * 146097 ∧
      days + 719468 - era * 146097 < 146097 := by omega
  obtain ⟨c, q, r, s, hc, hq, hr, hs, hlast, hcentury, he⟩ := exists_dayOfEra hbounds
  have hyear := yearOfEra_eq hc hq hr hs hlast hcentury he
  obtain ⟨hquarter, hcenturies, -⟩ := yearOfEra_days hc hq hr 0
  rw [zero_mul, add_zero, mul_zero, add_zero] at hquarter
  rw [zero_mul, add_zero, mul_zero, add_zero] at hcenturies
  have hday : 36524 * c + 1461 * q + 365 * r + s -
      (365 * (100 * c + 4 * q + r) + (25 * c + q) - c) = s := by ring
  unfold civilFromDays at h
  dsimp only at h
  rw [← hera, hyear, he, hquarter, hcenturies, hday] at h
  obtain ⟨mp, hmp⟩ : ∃ mp, mp = (5 * s + 2) / 153 := ⟨_, rfl⟩
  obtain ⟨hmonths, hdays⟩ := dayOfYear_bounds hs hmp
  rw [← hmp] at h
  simp only [Prod.mk.injEq] at h
  obtain ⟨rfl, hm, rfl⟩ := h
  have hmonth : 1 ≤ m ∧ m ≤ 12 := by
    rw [← hm]
    split_ifs <;> omega
  rw [hm]
  refine ⟨hmonth, hdays, ?_⟩
  obtain ⟨hquarter, hcenturies, hera'⟩ := yearOfEra_days hc hq hr era
  rw [daysFromCivil_march hmonths hm.symm, hquarter, hcenturies, hera']
  omega

/-! ## Adding months -/

theorem monthStart_add (total : Int) (months : Nat) :
    monthStart total + 28 * months ≤ monthStart (total + months) := by
  induction months with
  | zero => simp
  | succ n ih =>
    have hnext := (monthStart_succ (total + n)).1
    push_cast
    rw [← add_assoc]
    omega

theorem daysFromCivil_day (year month day : Int) :
    daysFromCivil year month day = daysFromCivil year month 1 + day - 1 := by
  rw [daysFromCivil_eq, daysFromCivil_eq year month 1]
  ring

theorem daysInMonth_eq (total : Int) : daysInMonth (total / 12) (total % 12 + 1) =
    monthStart (total + 1) - monthStart total := by
  unfold daysInMonth monthStart
  dsimp only
  congr 1
  split_ifs with hlast
  · have hyear : (total + 1) / 12 = total / 12 + 1 := by omega
    have hmonth : (total + 1) % 12 + 1 = 1 := by omega
    rw [hyear, hmonth]
  · have hyear : (total + 1) / 12 = total / 12 := by omega
    have hmonth : (total + 1) % 12 + 1 = total % 12 + 1 + 1 := by omega
    rw [hyear, hmonth]

/-- The same day some months on is in a later month, whatever the lengths of the months. -/
theorem lt_addMonths (now : Time) {months : Nat} (hmonths : 2 ≤ months) :
    now < addMonths now months := by
  obtain ⟨days, hdays⟩ : ∃ days : Int, days = now / microsPerDay := ⟨_, rfl⟩
  obtain ⟨y, m, d, hcivil⟩ : ∃ y m d, civilFromDays days = (y, m, d) := ⟨_, _, _, rfl⟩
  obtain ⟨hm, hd, hround⟩ := civilFromDays_spec hcivil
  obtain ⟨total, htotal⟩ : ∃ total, total = y * 12 + m - 1 := ⟨_, rfl⟩
  have hstart : monthStart total + d - 1 = days := by
    have hyear : total / 12 = y := by omega
    have hmonth : total % 12 + 1 = m := by omega
    rw [← hround, daysFromCivil_day, monthStart, hyear, hmonth]
  have hlength := (monthStart_succ (total + months)).1
  have hlater := monthStart_add total months
  have hlt : days < monthStart (total + months) +
      min d (monthStart (total + months + 1) - monthStart (total + months)) - 1 := by omega
  have hmul := Int.mul_lt_mul_of_pos_right hlt (show 0 < microsPerDay by decide)
  have hnew : addMonths now months = (monthStart (total + months) +
      min d (monthStart (total + months + 1) - monthStart (total + months)) - 1) * microsPerDay +
      now % microsPerDay := by
    unfold addMonths
    rw [← hdays, hcivil]
    dsimp only
    rw [← htotal, daysInMonth_eq, daysFromCivil_day]
    rfl
  calc now = days * microsPerDay + now % microsPerDay := by
        rw [hdays, Int.ediv_mul_add_emod]
    _ < _ := Int.add_lt_add_right hmul _
    _ = addMonths now months := hnew.symm

/-- A whole second stays one. -/
theorem addMonths_seconds {now : Time} (hnow : 1000000 ∣ now) (months : Int) :
    1000000 ∣ addMonths now months := by
  have hlength : (1000000 : Int) ∣ microsPerDay := by decide
  have hrest : now % microsPerDay % 1000000 = 0 :=
    (Int.emod_emod_of_dvd now hlength).trans (Int.emod_eq_zero_of_dvd hnow)
  exact Int.dvd_add (Int.dvd_mul_of_dvd_right hlength) (Int.dvd_of_emod_eq_zero hrest)

end Soms.Somsai

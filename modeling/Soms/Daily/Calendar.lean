import Mathlib.Data.Int.ConditionallyCompleteOrder
import Mathlib.Order.ConditionallyCompleteLattice.Basic

/-!
# Dates and weeks

`helpers/time.py` on the proleptic Gregorian calendar.  Times are microseconds
since 1970 in UTC and days are counted from that day, a Thursday.
-/

namespace Soms.Daily

abbrev Time := Int
abbrev Day := Int

def dayLength : Int := 86400000000

/-- `datetime.date()` -/
def date (t : Time) : Day := t / dayLength

/-- The first of January of a year. -/
def yearStart (y : Int) : Int :=
  365 * (y - 1970) + (y - 1) / 4 - (y - 1) / 100 + (y - 1) / 400 - 477

/-- The year of a day. -/
def year (d : Int) : Int :=
  let y := 400 * d / 146097 + 1970
  if d < yearStart y then y - 1 else if yearStart (y + 1) ≤ d then y + 1 else y

/-- The weeks, from Monday to Sunday, numbered through. -/
def week (d : Day) : Int := (d + 3) / 7

/-- The year that has a week's Thursday, and the number of that Thursday in it. -/
def isoWeek (k : Int) : Int × Int := (year (7 * k), (7 * k - yearStart (year (7 * k))) / 7 + 1)

/-- Year and week of `datetime.isocalendar()`. -/
def isocalendar (d : Day) : Int × Int := isoWeek (week d)

/-- `a > b` on pairs. -/
def after (a b : Int × Int) : Bool := decide (b.1 < a.1 ∨ b.1 = a.1 ∧ b.2 < a.2)

/-- `are_adjacent_weeks` -/
def areAdjacentWeeks (t u : Time) : Bool :=
  let a := isocalendar (date t)
  let b := isocalendar (date u)
  let x := if after a b then b else a
  let y := if after a b then a else b
  if x.1 = y.1 ∧ y.2 - x.2 = 1 then true
  else if y.1 = x.1 + 1 ∧ y.2 = 1 then
    -- the twenty-eighth of December is in the last week
    decide (x.2 = (isocalendar (yearStart (x.1 + 1) - 4)).2)
  else false

/-- `are_same_weeks` -/
def areSameWeeks (t u : Time) : Bool := isocalendar (date t) == isocalendar (date u)

/-! ## Years -/

/-- A year in its period of four hundred years, hundred years and four years. -/
theorem yearStart_period (q a c e : Int) (ha : 0 ≤ a ∧ a ≤ 3) (hc : 0 ≤ c ∧ c ≤ 24)
    (he : 0 ≤ e ∧ e ≤ 3) : yearStart (400 * q + 100 * a + 4 * c + e + 1) =
      146097 * q + 36524 * a + 1461 * c + 365 * e - 719162 := by
  unfold yearStart
  omega

theorem exists_period (y : Int) : ∃ q a c e : Int, y = 400 * q + 100 * a + 4 * c + e + 1 ∧
    (0 ≤ a ∧ a ≤ 3) ∧ (0 ≤ c ∧ c ≤ 24) ∧ 0 ≤ e ∧ e ≤ 3 :=
  ⟨(y - 1) / 400, (y - 1) % 400 / 100, (y - 1) % 100 / 4, (y - 1) % 4, by omega, by omega,
    by omega, by omega⟩

/-- A year is as long as the mean year, up to two days. -/
theorem yearStart_mean (y : Int) : 146097 * (y - 1970) - 800 ≤ 400 * yearStart y ∧
    400 * yearStart y ≤ 146097 * (y - 1970) + 800 := by
  obtain ⟨q, a, c, e, rfl, ha, hc, he⟩ := exists_period y
  rw [yearStart_period q a c e ha hc he]
  omega

theorem yearStart_succ (y : Int) : yearStart y + 365 ≤ yearStart (y + 1) := by
  obtain ⟨q, a, c, e, rfl, ha, hc, he⟩ := exists_period y
  rw [yearStart_period q a c e ha hc he]
  unfold yearStart
  omega

theorem year_spec (d : Int) : yearStart (year d) ≤ d ∧ d < yearStart (year d + 1) := by
  unfold year
  dsimp only
  generalize hy : 400 * d / 146097 + 1970 = y
  have hlow := yearStart_mean (y - 1)
  have hhigh := yearStart_mean (y + 1 + 1)
  split_ifs with hbefore hafter
  · rw [Int.sub_add_cancel]
    exact ⟨by omega, hbefore⟩
  · exact ⟨hafter, by omega⟩
  · exact ⟨not_lt.mp hbefore, not_le.mp hafter⟩

theorem yearStart_strictMono : StrictMono yearStart :=
  strictMono_int_of_lt_succ fun y => lt_of_lt_of_le (Int.lt_add_of_pos_right _ (by decide))
    (yearStart_succ y)

theorem year_eq {d y : Int} (hlow : yearStart y ≤ d) (hhigh : d < yearStart (y + 1)) :
    year d = y := by
  obtain ⟨hle, hlt⟩ := year_spec d
  have hup : year d < y + 1 := yearStart_strictMono.lt_iff_lt.mp (hle.trans_lt hhigh)
  have hdown : y < year d + 1 := yearStart_strictMono.lt_iff_lt.mp (hlow.trans_lt hlt)
  omega

theorem year_mono {d e : Int} (h : d ≤ e) : year d ≤ year e :=
  Int.lt_add_one_iff.mp
    (yearStart_strictMono.lt_iff_lt.mp ((year_spec d).1.trans_lt (h.trans_lt (year_spec e).2)))

/-! ## Weeks -/

/-- Weeks of one year are numbered through. -/
theorem isoWeek_snd {k l : Int} (h : (isoWeek k).1 = (isoWeek l).1) :
    (isoWeek l).2 - (isoWeek k).2 = l - k := by
  have hyear : year (7 * k) = year (7 * l) := h
  simp only [isoWeek, hyear]
  omega

theorem isoWeek_injective : Function.Injective isoWeek := fun k l h => by
  have hnumber := isoWeek_snd (congrArg Prod.fst h)
  rw [h, Int.sub_self] at hnumber
  omega

theorem areSameWeeks_iff {t u : Time} :
    areSameWeeks t u = true ↔ week (date t) = week (date u) := by
  rw [areSameWeeks, beq_iff_eq]
  exact isoWeek_injective.eq_iff

/-- The pairs come in the order of the weeks. -/
theorem after_isoWeek (k l : Int) : after (isoWeek k) (isoWeek l) = decide (l < k) := by
  have hlater : ∀ {i j : Int}, i < j → after (isoWeek j) (isoWeek i) = true := by
    intro i j hij
    have hyears : (isoWeek i).1 ≤ (isoWeek j).1 := year_mono (by omega)
    rw [after, decide_eq_true_iff]
    rcases hyears.lt_or_eq with hlt | heq
    · exact .inl hlt
    · have hnumber := isoWeek_snd heq
      exact .inr ⟨heq, by omega⟩
  rcases lt_trichotomy l k with hlt | rfl | hgt
  · rw [hlater hlt, decide_eq_true hlt]
  · simp [after]
  · have hback := hlater hgt
    rw [decide_eq_false (not_lt.mpr hgt.le)]
    simp only [after, decide_eq_true_iff, decide_eq_false_iff_not] at hback ⊢
    omega

/-- The Thursday of the week of the twenty-eighth of December is the last one of its
year. -/
theorem lastWeek (y : Int) : yearStart (y + 1) - 7 ≤ 7 * week (yearStart (y + 1) - 4) ∧
    7 * week (yearStart (y + 1) - 4) < yearStart (y + 1) := by
  unfold week
  omega

/-- The week after the last one of a year is the first one of the next. -/
theorem isoWeek_succ {k l : Int} :
    ((isoWeek k).1 = (isoWeek l).1 ∧ (isoWeek l).2 - (isoWeek k).2 = 1 ∨
      ((isoWeek l).1 = (isoWeek k).1 + 1 ∧ (isoWeek l).2 = 1) ∧
        (isoWeek k).2 = (isocalendar (yearStart ((isoWeek k).1 + 1) - 4)).2) ↔ l = k + 1 := by
  have hyear : (isoWeek k).1 = year (7 * k) := rfl
  obtain ⟨hstart, hend⟩ := year_spec (7 * k)
  obtain ⟨hlow, hhigh⟩ := lastWeek (year (7 * k))
  have hsucc := yearStart_succ (year (7 * k))
  generalize hlast : week (yearStart (year (7 * k) + 1) - 4) = m at hlow hhigh
  -- The last week has the year of `k`.
  have hm : (isoWeek m).1 = year (7 * k) := year_eq (by omega) hhigh
  have hiso : isocalendar (yearStart ((isoWeek k).1 + 1) - 4) = isoWeek m :=
    congrArg isoWeek hlast
  rw [hiso]
  have hnumber := isoWeek_snd (hyear.trans hm.symm)
  constructor
  · rintro (⟨hsame, hone⟩ | ⟨⟨hnext, hfirst⟩, hnumbers⟩)
    · have := isoWeek_snd hsame
      omega
    · have hl : year (7 * l) = year (7 * k) + 1 := hnext
      have hl' := (year_spec (7 * l)).1
      simp only [isoWeek, hl] at hfirst
      rw [hl] at hl'
      omega
  · rintro rfl
    by_cases hin : 7 * (k + 1) < yearStart (year (7 * k) + 1)
    · have hsame : (isoWeek (k + 1)).1 = year (7 * k) := year_eq (by omega) hin
      exact .inl ⟨hsame.symm, (isoWeek_snd hsame.symm).trans (by omega)⟩
    · have hnext := yearStart_succ (year (7 * k) + 1)
      have hl : year (7 * (k + 1)) = year (7 * k) + 1 := year_eq (not_lt.mp hin) (by omega)
      refine .inr ⟨⟨hl, ?_⟩, by omega⟩
      simp only [isoWeek, hl]
      omega

theorem areAdjacentWeeks_iff {t u : Time} : areAdjacentWeeks t u = true ↔
    week (date u) = week (date t) + 1 ∨ week (date t) = week (date u) + 1 := by
  have hpair : ∀ k l : Int,
      (if (isoWeek k).1 = (isoWeek l).1 ∧ (isoWeek l).2 - (isoWeek k).2 = 1 then true
        else if (isoWeek l).1 = (isoWeek k).1 + 1 ∧ (isoWeek l).2 = 1 then
          decide ((isoWeek k).2 = (isocalendar (yearStart ((isoWeek k).1 + 1) - 4)).2)
        else false) = true ↔ l = k + 1 := by
    intro k l
    refine Iff.trans ?_ isoWeek_succ
    split_ifs with hsame hnext
    · exact iff_of_true rfl (.inl hsame)
    · rw [decide_eq_true_iff]
      exact ⟨fun hlast => .inr ⟨hnext, hlast⟩, fun hor => (hor.resolve_left hsame).2⟩
    · exact iff_of_false not_false fun hor => hor.elim hsame fun h => hnext h.1
  unfold areAdjacentWeeks
  simp only [isocalendar, after_isoWeek]
  by_cases h : week (date u) < week (date t)
  · simp only [h, decide_true, if_true]
    refine (hpair _ _).trans ⟨.inr, fun hor => hor.resolve_left ?_⟩
    omega
  · simp only [h, decide_false, Bool.false_eq_true, if_false]
    refine (hpair _ _).trans ⟨.inl, fun hor => hor.resolve_right ?_⟩
    omega

end Soms.Daily

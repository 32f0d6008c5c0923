import Mathlib.Data.List.Dedup
import Soms.Daily.Challenge
import Soms.Library.Streak

/-!
# The streak law

The current streak is the run of days that ends today, the best one the longest
run so far, and the play count the number of days played.  The submission tells
from `last_update` whether a day is counted already, and the nightly job writes
the same field: a submission after the job of its day is taken for a second one.
`OnTime` says when the field still means what the submission takes it to mean.
-/

namespace Soms.Daily

open DailyChallengeStats

/-- What the statistics have to say after a pass on the day `today`. -/
structure Law (days : List Day) (today : Day) (st : DailyChallengeStats) : Prop where
  current : IsRun {d | d ∈ days} today st.dailyStreakCurrent
  best : Longest {d | d ∈ days} st.dailyStreakBest
  playcount : st.playcount = days.dedup.length

/-- The user passed the challenge on the day. -/
def DailyChallengeStats.passedOn (st : DailyChallengeStats) (d : Day) : Bool :=
  st.lastDayStreak.any fun t => date t == d

/-- The field is unset, or the user passed today already, or the field says
yesterday, before the day's job, and the user passed yesterday or has no streak. -/
def OnTime (st : DailyChallengeStats) (today : Day) : Prop :=
  st.lastUpdate = none ∨ st.passedOn today = true ∨
    st.updatedOn (today - 1) = true ∧
      (st.passedOn (today - 1) = true ∨ st.dailyStreakCurrent = 0)

/-- The passes of a run come on time. -/
def Allowed (s : State) : Event → Prop
  | .submit now uid true => ∀ st, s.stats uid = some st → OnTime st (date now)
  | _ => True

/-! ## Days -/

theorem date_le {t u : Time} (h : t ≤ u) : date t ≤ date u :=
  Int.ediv_le_ediv (by decide) h

@[simp] theorem date_jobTime (d : Day) : date (jobTime d) = d := by
  have hdiv : ∀ x : Int, (x * 86400000000 + 60000000) / 86400000000 = x := fun x => by omega
  exact hdiv d

/-- Between two jobs the day is that of the first or the next. -/
theorem date_between {t : Time} {d : Day} (hlow : jobTime d ≤ t) (hhigh : t < jobTime (d + 1)) :
    d ≤ date t ∧ date t ≤ d + 1 := by
  have h₁ := date_le hlow
  have h₂ := date_le (Int.le_of_lt hhigh)
  rw [date_jobTime] at h₁ h₂
  exact ⟨h₁, h₂⟩

/-! ## One submission -/

/-- What is known of the statistics of a user between events. -/
structure Kept (days : List Day) (lastJob : Day) (clock : Time) (st : DailyChallengeStats) :
    Prop where
  best : Longest {d | d ∈ days} st.dailyStreakBest
  playcount : st.playcount = days.dedup.length
  /-- The newest day is that of `last_day_streak`, and its run is the current
  streak unless a later job reset it. -/
  newest : ∀ d rest, days = d :: rest → st.passedOn d = true ∧
    (IsRun {d | d ∈ days} d st.dailyStreakCurrent ∨ st.dailyStreakCurrent = 0 ∧ d < lastJob)
  fresh : days = [] → st.dailyStreakCurrent = 0 ∧ st.lastDayStreak = none
  ordered : ∀ d rest, days = d :: rest → ∀ d' ∈ rest, d' ≤ d
  updated : ∀ t, st.lastUpdate = some t → lastJob ≤ date t ∧ t ≤ clock
  passed : ∀ t, st.lastDayStreak = some t → ∃ u, st.lastUpdate = some u ∧ date t ≤ date u

theorem passedOn_iff {st : DailyChallengeStats} {d : Day} :
    st.passedOn d = true ↔ ∃ t, st.lastDayStreak = some t ∧ date t = d := by
  cases h : st.lastDayStreak <;> simp [passedOn, h]

theorem updatedOn_iff {st : DailyChallengeStats} {d : Day} :
    st.updatedOn d = true ↔ ∃ t, st.lastUpdate = some t ∧ date t = d := by
  cases h : st.lastUpdate <;> simp [updatedOn, h]

theorem updatedOn_unique {st : DailyChallengeStats} {d e : Day} (hd : st.updatedOn d = true)
    (he : st.updatedOn e = true) : d = e := by
  obtain ⟨t, ht, rfl⟩ := updatedOn_iff.mp hd
  obtain ⟨u, hu, rfl⟩ := updatedOn_iff.mp he
  rw [Option.some.inj (ht.symm.trans hu)]

theorem yesterday_ne (d : Day) : d - 1 ≠ d := by
  have hne : ∀ x : Int, x - 1 ≠ x := fun x => by omega
  exact hne d

section CountDay

variable {now : Time} {st : DailyChallengeStats}

/-- The first update ever. -/
theorem countDay_first (now : Time) (h : st.lastUpdate = none) :
    (st.countDay now).dailyStreakCurrent = 1 ∧ (st.countDay now).dailyStreakBest = 1 ∧
      (st.countDay now).playcount = st.playcount + 1 := by
  simp [countDay, h]

/-- The field says yesterday. -/
theorem countDay_next (h : st.updatedOn (date now - 1) = true) :
    (st.countDay now).dailyStreakCurrent = st.dailyStreakCurrent + 1 ∧
      (st.countDay now).dailyStreakBest =
        max st.dailyStreakBest (st.dailyStreakCurrent + 1) ∧
      (st.countDay now).playcount = st.playcount + 1 := by
  obtain ⟨t, ht, hdate⟩ := updatedOn_iff.mp h
  have hsome : st.lastUpdate.isNone = false := by simp [ht]
  have hsame : ∀ n : Nat, ({ st with playcount := n } : DailyChallengeStats).updatedOn
      (date now - 1) = true := fun n => h
  unfold countDay
  simp only [hsome, hsame, Bool.false_eq_true, if_false, if_true]
  split
  · next hlt => exact ⟨rfl, (max_eq_right hlt.le).symm, rfl⟩
  · next hle => exact ⟨rfl, (max_eq_left (by simpa using hle)).symm, rfl⟩

/-- The field says today: nothing is counted. -/
theorem countDay_today (h : st.updatedOn (date now) = true) :
    (st.countDay now).dailyStreakCurrent = st.dailyStreakCurrent ∧
      (st.countDay now).dailyStreakBest = st.dailyStreakBest ∧
      (st.countDay now).playcount = st.playcount := by
  obtain ⟨t, ht, hdate⟩ := updatedOn_iff.mp h
  have hsome : st.lastUpdate.isNone = false := by simp [ht]
  have hyesterday : st.updatedOn (date now - 1) = false :=
    Bool.eq_false_iff.mpr fun hy => yesterday_ne _ (updatedOn_unique hy h)
  have hold : ∀ n : Nat, ({ st with playcount := n } : DailyChallengeStats).updatedOn
      (date now - 1) = false := fun n => hyesterday
  have hsame : ∀ n : Nat, ({ st with playcount := n } : DailyChallengeStats).updatedOn
      (date now) = true := fun n => h
  unfold countDay
  simp [hsome, hold, hsame]

/-- The weekly part leaves the daily counts and the times alone. -/
theorem countWeek_daily (now : Time) (st : DailyChallengeStats) :
    (st.countWeek now).dailyStreakCurrent = st.dailyStreakCurrent ∧
      (st.countWeek now).dailyStreakBest = st.dailyStreakBest ∧
      (st.countWeek now).playcount = st.playcount := by
  unfold countWeek
  split
  · exact ⟨rfl, rfl, rfl⟩
  · dsimp only
    split_ifs <;> exact ⟨rfl, rfl, rfl⟩

end CountDay

theorem setOf_cons (d : Day) (days : List Day) :
    {e | e ∈ d :: days} = insert d {e | e ∈ days} := by
  ext e
  simp

namespace Kept

variable {days : List Day} {lastJob : Day} {clock now : Time} {st : DailyChallengeStats}

/-- The newest day is not after the last update. -/
theorem le_updated (hk : Kept days lastJob clock st) {d : Day} (hd : d ∈ days) :
    ∃ u, st.lastUpdate = some u ∧ d ≤ date u := by
  cases days with
  | nil => simp at hd
  | cons e rest =>
    obtain ⟨t, ht, hdate⟩ := passedOn_iff.mp (hk.newest e rest rfl).1
    obtain ⟨u, hu, hle⟩ := hk.passed t ht
    rw [hdate] at hle
    refine ⟨u, hu, ?_⟩
    rcases List.mem_cons.mp hd with rfl | hrest
    · exact hle
    · exact (hk.ordered e rest rfl d hrest).trans hle

theorem eq_nil (hk : Kept days lastJob clock st) (h : st.lastUpdate = none) : days = [] := by
  by_contra hne
  obtain ⟨d, hd⟩ := List.exists_mem_of_ne_nil days hne
  obtain ⟨u, hu, -⟩ := hk.le_updated hd
  simp [h] at hu

/-- The newest day passed is the one of `last_day_streak`. -/
theorem of_passedOn (hk : Kept days lastJob clock st) {d : Day} (h : st.passedOn d = true) :
    ∃ rest, days = d :: rest := by
  obtain ⟨t, ht, rfl⟩ := passedOn_iff.mp h
  cases hdays : days with
  | nil => simp [(hk.fresh hdays).2] at ht
  | cons e rest =>
    obtain ⟨u, hu, hdate⟩ := passedOn_iff.mp (hk.newest e rest hdays).1
    rw [← hdate, Option.some.inj (hu.symm.trans ht)]
    exact ⟨rest, rfl⟩

/-- A run that no job reset is the one that ends on the newest day. -/
theorem run_newest (hk : Kept days lastJob clock st) {d : Day} {rest : List Day}
    (hdays : days = d :: rest) (hjob : lastJob ≤ d) :
    IsRun {e | e ∈ days} d st.dailyStreakCurrent := by
  rcases (hk.newest d rest hdays).2 with hrun | ⟨-, hlt⟩
  · exact hrun
  · exact absurd hjob (Int.not_le.mpr hlt)

/-- Before the job of its day, the streak is the run that ended yesterday. -/
theorem run_yesterday (hk : Kept days lastJob clock st) {today : Day}
    (hupdated : st.updatedOn (today - 1) = true)
    (hstreak : st.passedOn (today - 1) = true ∨ st.dailyStreakCurrent = 0) :
    IsRun {e | e ∈ days} (today - 1) st.dailyStreakCurrent := by
  obtain ⟨u, hu, hdate⟩ := updatedOn_iff.mp hupdated
  have hjob : lastJob ≤ today - 1 := hdate ▸ (hk.updated u hu).1
  rcases hstreak with hpassed | hzero
  · obtain ⟨rest, hdays⟩ := hk.of_passedOn hpassed
    exact hk.run_newest hdays hjob
  · rw [hzero, IsRun.zero_iff]
    intro hmem
    have hmem : today - 1 ∈ days := hmem
    cases hdays : days with
    | nil => simp [hdays] at hmem
    | cons d rest =>
      obtain ⟨v, hv, hle⟩ := hk.le_updated (d := d) (by simp [hdays])
      obtain rfl : v = u := Option.some.inj (hv.symm.trans hu)
      have hge : today - 1 ≤ d := by
        rw [hdays] at hmem
        rcases List.mem_cons.mp hmem with heq | hrest
        · exact heq.le
        · exact hk.ordered d rest hdays _ hrest
      have hrun := hk.run_newest hdays (hjob.trans hge)
      rw [hzero, IsRun.zero_iff] at hrun
      exact hrun (by simp [hdays])

/-- **One submission.**  A pass on time leaves the statistics the law asks for. -/
theorem law (hk : Kept days lastJob clock st) (hclock : clock ≤ now)
    (hjob : lastJob ≤ date now) (hon : OnTime st (date now)) :
    Law (date now :: days) (date now) (st.countDay now) := by
  rcases hon with hnone | htoday | ⟨hupdated, hstreak⟩
  · obtain rfl := hk.eq_nil hnone
    obtain ⟨hcurrent, hbest, hcount⟩ := countDay_first now hnone
    have hempty : IsRun {e | e ∈ ([] : List Day)} (date now - 1) 0 := by simp [IsRun]
    have hrun : IsRun {e | e ∈ [date now]} (date now) 1 := by
      rw [setOf_cons]
      exact hempty.insert_succ
    refine ⟨hcurrent ▸ hrun, ?_, by rw [hcount, hk.playcount]; rfl⟩
    rw [hbest, setOf_cons]
    have hlongest : Longest {e | e ∈ ([] : List Day)} 0 := by simpa using longest_empty
    exact hlongest.insert_above (by simp) (setOf_cons (date now) [] ▸ hrun)
  · obtain ⟨rest, hdays⟩ := hk.of_passedOn htoday
    have hmem : date now ∈ days := by simp [hdays]
    have hupdated : st.updatedOn (date now) = true := by
      obtain ⟨u, hu, hle⟩ := hk.le_updated hmem
      have hge := date_le ((hk.updated u hu).2.trans hclock)
      exact updatedOn_iff.mpr ⟨u, hu, le_antisymm hge hle⟩
    obtain ⟨hcurrent, hbest, hcount⟩ := countDay_today hupdated
    have hset : {e | e ∈ date now :: days} = {e | e ∈ days} := by
      rw [setOf_cons]
      exact Set.insert_eq_of_mem hmem
    refine ⟨?_, ?_, ?_⟩
    · rw [hset, hcurrent]
      exact hk.run_newest hdays hjob
    · rw [hset, hbest]
      exact hk.best
    · rw [hcount, List.dedup_cons_of_mem hmem]
      exact hk.playcount
  · obtain ⟨hcurrent, hbest, hcount⟩ := countDay_next hupdated
    have habove : ∀ d ∈ days, d < date now := by
      intro d hd
      obtain ⟨u, hu, hdate⟩ := updatedOn_iff.mp hupdated
      obtain ⟨v, hv, hle⟩ := hk.le_updated hd
      obtain rfl : v = u := Option.some.inj (hv.symm.trans hu)
      rw [hdate] at hle
      exact Int.lt_of_le_sub_one hle
    have hrun := (hk.run_yesterday hupdated hstreak).insert_succ
    refine ⟨?_, ?_, ?_⟩
    · rw [setOf_cons, hcurrent]
      exact hrun
    · rw [setOf_cons, hbest]
      exact hk.best.insert_above habove hrun
    · have hnew : date now ∉ days := fun h => lt_irrefl _ (habove _ h)
      rw [hcount, List.dedup_cons_of_notMem hnew, hk.playcount]
      rfl

/-- Time passes. -/
theorem later (hk : Kept days lastJob clock st) (hclock : clock ≤ now) :
    Kept days lastJob now st :=
  { hk with updated := fun t ht => ⟨(hk.updated t ht).1, (hk.updated t ht).2.trans hclock⟩ }

theorem initial : Kept [] lastJob clock {} where
  best := by simpa using longest_empty
  playcount := rfl
  newest := by simp
  fresh := fun _ => ⟨rfl, rfl⟩
  ordered := by simp
  updated := by simp
  passed := by simp

/-- What a pass on time leaves. -/
theorem submit (hk : Kept days lastJob clock st) (hclock : clock ≤ now)
    (hjob : lastJob ≤ date now) (hon : OnTime st (date now)) {st' : DailyChallengeStats}
    (hst' : st' = { (st.countDay now).countWeek now with
      lastUpdate := some now, lastDayStreak := some now, lastWeeklyStreak := some now }) :
    Law (date now :: days) (date now) st' ∧ Kept (date now :: days) lastJob now st' := by
  have hlaw := hk.law hclock hjob hon
  obtain ⟨hcurrent, hbest, hcount⟩ := countWeek_daily now (st.countDay now)
  have hlaw' : Law (date now :: days) (date now) st' := by
    subst hst'
    exact ⟨hcurrent ▸ hlaw.current, hbest ▸ hlaw.best, hcount.trans hlaw.playcount⟩
  refine ⟨hlaw', hlaw'.best, hlaw'.playcount, ?_, by simp, ?_, ?_, ?_⟩
  · intro d rest hdays
    obtain ⟨rfl, rfl⟩ := List.cons.inj hdays
    exact ⟨by simp [hst', passedOn], .inl hlaw'.current⟩
  · intro d rest hdays d' hd'
    obtain ⟨rfl, rfl⟩ := List.cons.inj hdays
    obtain ⟨u, hu, hle⟩ := hk.le_updated hd'
    exact hle.trans (date_le ((hk.updated u hu).2.trans hclock))
  · intro t ht
    obtain rfl : now = t := by simpa [hst'] using ht
    exact ⟨hjob, le_rfl⟩
  · intro t ht
    obtain rfl : now = t := by simpa [hst'] using ht
    exact ⟨now, by simp [hst'], le_rfl⟩

end Kept

/-! ## The nightly job -/

/-- The statistics after placements made now. -/
def Placed (now : Time) (st st' : DailyChallengeStats) : Prop :=
  ∃ m n, st' = { st with
    top10pPlacements := m, top50pPlacements := n, lastUpdate := some now }

theorem Placed.trans {now : Time} {st st' st'' : DailyChallengeStats} (h : Placed now st st')
    (h' : Placed now st' st'') : Placed now st st'' := by
  obtain ⟨m, n, rfl⟩ := h
  obtain ⟨m', n', rfl⟩ := h'
  exact ⟨m', n', rfl⟩

theorem placed_place (now : Time) (i total : Nat) (st : DailyChallengeStats) :
    Placed now st (st.place now i total) := by
  unfold place
  dsimp only
  split_ifs <;> exact ⟨_, _, rfl⟩

theorem reset_spec (now : Time) {st : DailyChallengeStats}
    (h : st.updatedOn (date now) = false) :
    (st.reset now).dailyStreakBest = st.dailyStreakBest ∧
      (st.reset now).dailyStreakCurrent = 0 ∧ (st.reset now).playcount = st.playcount ∧
      (st.reset now).lastDayStreak = st.lastDayStreak ∧
      (st.reset now).lastUpdate = some now := by
  unfold reset
  rw [if_neg (by simp [h])]
  dsimp only
  split_ifs <;> exact ⟨rfl, rfl, rfl, rfl, rfl⟩

/-- The placements touch the users placed, and mark them as updated now. -/
theorem placeAll_spec (now : Time) (total i : Nat) (scores : List UserId) (stats : Stats)
    (uid : UserId) :
    (uid ∉ scores → placeAll now total i scores stats uid = stats uid) ∧
      (stats uid = none → placeAll now total i scores stats uid = none) ∧
      ∀ st, stats uid = some st → uid ∈ scores →
        ∃ st', placeAll now total i scores stats uid = some st' ∧ Placed now st st' := by
  induction scores generalizing i stats with
  | nil => simp [placeAll]
  | cons a rest ih =>
    obtain ⟨hout, hnone, hin⟩ :=
      ih (i + 1) (Function.update stats a ((stats a).map (·.place now i total)))
    refine ⟨fun hmem => ?_, fun h => ?_, fun st hst hmem => ?_⟩
    · rw [List.mem_cons, not_or] at hmem
      exact (hout hmem.2).trans (Function.update_of_ne hmem.1 _ _)
    · refine hnone ?_
      by_cases ha : uid = a
      · subst ha
        rw [Function.update_self, h]
        rfl
      · rw [Function.update_of_ne ha, h]
    · by_cases ha : uid = a
      · subst ha
        have hplaced : Function.update stats uid ((stats uid).map (·.place now i total)) uid =
            some (st.place now i total) := by
          rw [Function.update_self, hst]
          rfl
        have hone := placed_place now i total st
        by_cases hrest : uid ∈ rest
        · obtain ⟨st', hst', hmore⟩ := hin _ hplaced hrest
          exact ⟨st', hst', hone.trans hmore⟩
        · exact ⟨_, (hout hrest).trans hplaced, hone⟩
      · have hrest : uid ∈ rest := (List.mem_cons.mp hmem).resolve_left ha
        exact hin st ((Function.update_of_ne ha _ _).trans hst) hrest

namespace Kept

variable {days : List Day} {lastJob : Day} {clock : Time} {st st' : DailyChallengeStats}

/-- The job marks a user as updated on its day. -/
theorem mark (hk : Kept days lastJob clock st) (hclock : clock ≤ jobTime (lastJob + 1))
    (hplaced : Placed (jobTime (lastJob + 1)) st st') :
    Kept days (lastJob + 1) (jobTime (lastJob + 1)) st' := by
  obtain ⟨m, n, rfl⟩ := hplaced
  refine ⟨hk.best, hk.playcount, fun d rest hdays => ?_, hk.fresh, hk.ordered, fun t ht => ?_,
    fun t ht => ?_⟩
  · obtain ⟨hpassed, hrun⟩ := hk.newest d rest hdays
    exact ⟨hpassed, hrun.imp_right fun ⟨hzero, hlt⟩ => ⟨hzero, Int.lt_add_one_of_le hlt.le⟩⟩
  · obtain rfl := Option.some.inj ht
    exact ⟨(date_jobTime _).ge, le_rfl⟩
  · obtain ⟨u, hu, hle⟩ := hk.passed t ht
    exact ⟨_, rfl, hle.trans (date_le ((hk.updated u hu).2.trans hclock))⟩

/-- The job resets a user without a place, unless the user was updated on its day. -/
theorem reset (hk : Kept days lastJob clock st) (hclock : clock ≤ jobTime (lastJob + 1)) :
    Kept days (lastJob + 1) (jobTime (lastJob + 1)) (st.reset (jobTime (lastJob + 1))) := by
  by_cases hupdated : st.updatedOn (lastJob + 1) = true
  · have hsame : st.reset (jobTime (lastJob + 1)) = st := by
      rw [DailyChallengeStats.reset, if_pos (by rwa [date_jobTime])]
    obtain ⟨u, hu, hdate⟩ := updatedOn_iff.mp hupdated
    rw [hsame]
    refine { hk with newest := fun d rest hdays => ?_, updated := fun t ht => ?_ }
    · refine ⟨(hk.newest d rest hdays).1, (hk.newest d rest hdays).2.imp_right ?_⟩
      exact fun ⟨hzero, hlt⟩ => ⟨hzero, Int.lt_add_one_of_le hlt.le⟩
    · obtain rfl := Option.some.inj (hu.symm.trans ht)
      exact ⟨hdate.ge, (hk.updated u hu).2.trans hclock⟩
  · have hother : st.updatedOn (date (jobTime (lastJob + 1))) = false := by
      rwa [date_jobTime, Bool.eq_false_iff]
    obtain ⟨hbest, hcurrent, hcount, hday, hupdate⟩ := reset_spec _ hother
    refine ⟨hbest ▸ hk.best, hcount.trans hk.playcount, fun d rest hdays => ?_,
      fun hdays => ⟨hcurrent, hday.trans (hk.fresh hdays).2⟩, hk.ordered, fun t ht => ?_,
      fun t ht => ?_⟩
    · refine ⟨by rw [passedOn, hday]; exact (hk.newest d rest hdays).1, .inr ⟨hcurrent, ?_⟩⟩
      obtain ⟨u, hu, hle⟩ := hk.le_updated (d := d) (by simp [hdays])
      have hdate := date_le ((hk.updated u hu).2.trans hclock)
      rw [date_jobTime] at hdate
      have hne : date u ≠ lastJob + 1 := fun h => hupdated (updatedOn_iff.mpr ⟨u, hu, h⟩)
      exact lt_of_le_of_lt hle (lt_of_le_of_ne hdate hne)
    · obtain rfl := Option.some.inj (hupdate.symm.trans ht)
      exact ⟨(date_jobTime _).ge, le_rfl⟩
    · obtain ⟨u, hu, hle⟩ := hk.passed t (hday ▸ ht)
      exact ⟨_, hupdate, hle.trans (date_le ((hk.updated u hu).2.trans hclock))⟩

end Kept

/-! ## Runs -/

/-- What the events of a run keep of the statistics of a user, given the days
passed so far, the day of the last job and the clock. -/
abbrev UserInvariant := List Day → Day → Time → DailyChallengeStats → Prop

/-- The events other than a pass keep it. -/
structure Persists (K : UserInvariant) : Prop where
  initial : ∀ {lastJob clock}, K [] lastJob clock {}
  later : ∀ {days lastJob clock now st}, K days lastJob clock st → clock ≤ now →
    K days lastJob now st
  placed : ∀ {days lastJob clock st st'}, K days lastJob clock st →
    clock ≤ jobTime (lastJob + 1) → Placed (jobTime (lastJob + 1)) st st' →
    K days (lastJob + 1) (jobTime (lastJob + 1)) st'
  reset : ∀ {days lastJob clock st}, K days lastJob clock st → clock ≤ jobTime (lastJob + 1) →
    K days (lastJob + 1) (jobTime (lastJob + 1)) (st.reset (jobTime (lastJob + 1)))

theorem Kept.persists : Persists Kept :=
  ⟨Kept.initial, fun hk hclock => hk.later hclock, fun hk => hk.mark, fun hk => hk.reset⟩

/-- The clock is between two jobs, and the statistics of every user are as the
passes of the run left them. -/
structure Users (K : UserInvariant) (h : List (Event × State)) (s : State) : Prop where
  afterJob : jobTime s.lastJob ≤ s.clock
  beforeNext : s.clock < jobTime (s.lastJob + 1)
  unknown : ∀ uid, s.stats uid = none → daysPassed h uid = []
  kept : ∀ uid st, s.stats uid = some st → K (daysPassed h uid) s.lastJob s.clock st

/-- The invariant of a run. -/
abbrev Inv := Users Kept

theorem Initial.users {K : UserInvariant} {s : State} (h : Initial s) : Users K [] s where
  afterJob := h.afterJob
  beforeNext := h.beforeNext
  unknown := fun _ _ => rfl
  kept := by
    intro uid st hst
    simp [h.empty uid] at hst

theorem daysPassed_submit (h : List (Event × State)) (t : State) (now : Time) (uid : UserId)
    (passed : Bool) (uid' : UserId) :
    daysPassed ((.submit now uid passed, t) :: h) uid' =
      if passed = true ∧ uid = uid' then date now :: daysPassed h uid' else daysPassed h uid' := by
  cases passed with
  | false => simp [daysPassed]
  | true =>
    by_cases huid : uid = uid' <;> simp [daysPassed, huid]

/-- The statistics after a pass. -/
def DailyChallengeStats.submitted (st : DailyChallengeStats) (now : Time) :
    DailyChallengeStats :=
  { (st.countDay now).countWeek now with
    lastUpdate := some now, lastDayStreak := some now, lastWeeklyStreak := some now }

section Step

variable {K : UserInvariant} {h : List (Event × State)} {s t : State} {now : Time} {uid : UserId}

theorem stats_pass (now : Time) (uid : UserId) (stats : Stats) :
    processDailyChallengeScore now uid true stats uid =
      some (((stats uid).getD {}).submitted now) := by
  simp [processDailyChallengeScore, submitted]

/-- The statistics that a pass finds. -/
theorem Users.before (hinv : Users K h s) (hK : Persists K) (uid : UserId) :
    K (daysPassed h uid) s.lastJob s.clock ((s.stats uid).getD {}) := by
  cases hst : s.stats uid with
  | none =>
    rw [hinv.unknown uid hst]
    exact hK.initial
  | some st => exact hinv.kept uid st hst

theorem Users.jobDone (hinv : Users K h s) (hclock : s.clock ≤ now) : s.lastJob ≤ date now := by
  have hle := date_le (hinv.afterJob.trans hclock)
  rwa [date_jobTime] at hle

/-- A step keeps the invariant if its pass does. -/
theorem Step.users {e : Event} (hstep : Step s e t) (hK : Persists K) (hinv : Users K h s)
    (hpass : ∀ now uid, e = .submit now uid true → s.clock ≤ now →
      K (date now :: daysPassed h uid) s.lastJob now (((s.stats uid).getD {}).submitted now)) :
    Users K ((e, t) :: h) t := by
  cases hstep with
  | @register now uid hclock hjob hnew =>
    refine ⟨hinv.afterJob.trans hclock, hjob, fun uid' hst => ?_, fun uid' st hst => ?_⟩
    · by_cases huid : uid' = uid
      · simp [huid] at hst
      · exact hinv.unknown uid' (by simpa [huid] using hst)
    · by_cases huid : uid' = uid
      · subst huid
        obtain rfl : {} = st := by simpa using hst
        have hdays : daysPassed h uid' = [] := hinv.unknown uid' hnew
        show K (daysPassed h uid') _ _ _
        rw [hdays]
        exact hK.initial
      · exact hK.later (hinv.kept uid' st (by simpa [huid] using hst)) hclock
  | @submit now uid passed hclock hjob =>
    cases passed with
    | false =>
      refine ⟨hinv.afterJob.trans hclock, hjob, fun uid' hst => ?_, fun uid' st hst => ?_⟩
      · rw [daysPassed_submit]
        exact hinv.unknown uid' hst
      · rw [daysPassed_submit]
        exact hK.later (hinv.kept uid' st hst) hclock
    | true =>
      have hst₁ := stats_pass now uid s.stats
      refine ⟨hinv.afterJob.trans hclock, hjob, fun uid' hst => ?_, fun uid' st hst => ?_⟩
      all_goals
        rw [daysPassed_submit]
        by_cases huid : uid' = uid
      · subst huid
        simp [hst₁] at hst
      · rw [if_neg fun hc => huid hc.2.symm]
        exact hinv.unknown uid' (by simpa [processDailyChallengeScore, huid] using hst)
      · subst huid
        obtain rfl := Option.some.inj (hst₁.symm.trans hst)
        rw [if_pos ⟨rfl, rfl⟩]
        exact hpass now uid' rfl hclock
      · rw [if_neg fun hc => huid hc.2.symm]
        refine hK.later (hinv.kept uid' st ?_) hclock
        simpa [processDailyChallengeScore, huid] using hst
  | @nightly scores =>
    have hclock := hinv.beforeNext.le
    have hspec := fun uid =>
      placeAll_spec (jobTime (s.lastJob + 1)) scores.length 0 scores s.stats uid
    have hnext : jobTime (s.lastJob + 1) < jobTime (s.lastJob + 1 + 1) := by
      have hlt : ∀ x : Int, x * 86400000000 + 60000000 < (x + 1) * 86400000000 + 60000000 :=
        fun x => by omega
      exact hlt _
    refine ⟨le_rfl, hnext, fun uid hst => ?_, fun uid st hst => ?_⟩
    · refine hinv.unknown uid ?_
      by_contra hne
      obtain ⟨st, hst'⟩ := Option.ne_none_iff_exists'.mp hne
      by_cases hmem : uid ∈ scores
      · obtain ⟨st', hplaced, -⟩ := (hspec uid).2.2 st hst' hmem
        simp [processDailyChallengeTop, hmem, hplaced] at hst
      · simp [processDailyChallengeTop, hmem, (hspec uid).1 hmem, hst'] at hst
    · cases hold : s.stats uid with
      | none =>
        have hnone := (hspec uid).2.1 hold
        simp [processDailyChallengeTop, hnone] at hst
      | some st₀ =>
        have hkept := hinv.kept uid st₀ hold
        by_cases hmem : uid ∈ scores
        · obtain ⟨st', hplaced, hsame⟩ := (hspec uid).2.2 st₀ hold hmem
          obtain rfl : st' = st := by
            simpa [processDailyChallengeTop, hmem, hplaced] using hst
          exact hK.placed hkept hclock hsame
        · obtain rfl : st₀.reset (jobTime (s.lastJob + 1)) = st := by
            simpa [processDailyChallengeTop, hmem, (hspec uid).1 hmem, hold] using hst
          exact hK.reset hkept hclock

/-- A pass on time keeps the invariant and leaves what the law asks for. -/
theorem Inv.pass (hinv : Inv h s) (hclock : s.clock ≤ now)
    (hon : ∀ st, s.stats uid = some st → OnTime st (date now)) :
    Law (date now :: daysPassed h uid) (date now) (((s.stats uid).getD {}).submitted now) ∧
      Kept (date now :: daysPassed h uid) s.lastJob now
        (((s.stats uid).getD {}).submitted now) := by
  have hon' : OnTime ((s.stats uid).getD {}) (date now) := by
    cases hst : s.stats uid with
    | none => exact .inl rfl
    | some st => exact hon st hst
  exact (hinv.before Kept.persists uid).submit hclock (hinv.jobDone hclock) hon' rfl

theorem Step.inv {e : Event} (hstep : Step s e t) (hinv : Inv h s) (hallowed : Allowed s e) :
    Inv ((e, t) :: h) t := by
  refine hstep.users Kept.persists hinv fun now uid he hclock => ?_
  subst he
  exact (hinv.pass hclock hallowed).2

end Step

/-- In a run whose passes come on time, every pass leaves the statistics the law
asks for. -/
theorem daily_streak_law {s₀ s : State} {h : List (Event × State)} (h₀ : Initial s₀)
    (hrun : Trace Step Allowed s₀ h s) {now : Time} {uid : UserId} {past : List (Event × State)}
    (hlast : h = (.submit now uid true, s) :: past) :
    ∃ st, s.stats uid = some st ∧ Law (daysPassed h uid) (date now) st := by
  subst hlast
  cases hrun with
  | tail hpast hallowed hstep =>
    have hinv := hpast.invariant (fun _ _ _ _ hi hP hs => hs.inv hi hP) h₀.users
    cases hstep with
    | submit hclock hjob =>
      refine ⟨_, stats_pass now uid _, ?_⟩
      rw [daysPassed_submit, if_pos ⟨rfl, rfl⟩]
      exact (Inv.pass hinv hclock hallowed).1

/-- No statistics, right after the job of day zero. -/
def firstMorning : State where
  stats := fun _ => none
  clock := jobTime 0
  lastJob := 0

theorem firstMorning_initial : Initial firstMorning := ⟨fun _ => rfl, by decide, by decide⟩

/-- The user 7 passed at noon. -/
def firstNoon : State where
  stats := processDailyChallengeScore (dayLength / 2) 7 true firstMorning.stats
  clock := dayLength / 2
  lastJob := 0

/-- Half a minute past midnight the pass of the second day still finds the first. -/
theorem daily_streak_law_midnight :
    ∃ (s : State) (h : List (Event × State)) (st : DailyChallengeStats), s.stats 7 = some st ∧
      st.dailyStreakCurrent = 2 ∧ Law (daysPassed h 7) 1 st := by
  have hday : Step firstMorning (.submit (dayLength / 2) 7 true) firstNoon :=
    .submit (by decide) (by decide)
  have hfirst : Allowed firstMorning (.submit (dayLength / 2) 7 true) := by
    intro st hst
    simp [firstMorning] at hst
  have hsecond : Allowed firstNoon (.submit (dayLength + 30000000) 7 true) := by
    intro st hst
    obtain rfl := Option.some.inj hst
    exact .inr (.inr ⟨by decide, .inl (by decide)⟩)
  have hrun := (Trace.refl.tail hfirst hday).tail hsecond (.submit (by decide) (by decide))
  obtain ⟨st, hst, hlaw⟩ := daily_streak_law firstMorning_initial hrun rfl
  refine ⟨_, _, st, hst, ?_, hlaw⟩
  rw [← Option.some.inj hst]
  rfl

/-- The nightly job runs before the first pass of an account: the pass counts
neither a day nor a streak. -/
theorem pass_after_job :
    ¬ ∀ (s₀ s : State) (h past : List (Event × State)) (now : Time) (uid : UserId),
      Initial s₀ → Trace Step (fun _ _ => True) s₀ h s → h = (.submit now uid true, s) :: past →
        ∃ st, s.stats uid = some st ∧ Law (daysPassed h uid) (date now) st := by
  intro hlaw
  have hrun : Trace Step (fun _ _ => True) firstMorning _ _ :=
    (((Trace.refl.tail (e := .register (dayLength / 2) 7) trivial
      (.register (by decide) (by decide) rfl)).tail
      (e := .nightly []) trivial .nightly).tail
      (e := .submit (dayLength + dayLength / 2) 7 true) trivial (.submit (by decide) (by decide)))
  obtain ⟨st, hst, hcount⟩ := hlaw _ _ _ _ _ _ firstMorning_initial hrun rfl
  have hzero : st.playcount = 0 := by
    rw [← Option.some.inj hst]
    rfl
  have hone := hcount.playcount
  rw [hzero] at hone
  simp [daysPassed] at hone

end Soms.Daily

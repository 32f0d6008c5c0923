import Soms.Daily.Streak

/-!
# The weekly streak law

The current weekly streak is the run of weeks that ends with this one, and the best
one the longest run so far.  A pass on a second day of a week starts the streak
anew, and so does the first pass after a job that found a gap inside the week.
`OnWeek` says when neither matters.
-/

namespace Soms.Daily

open DailyChallengeStats

/-- The weeks of some days. -/
def weeks (days : List Day) : Set Int := {k | ∃ d ∈ days, week d = k}

/-- What the statistics have to say of the weeks after a pass on the day `today`. -/
structure WeeklyLaw (days : List Day) (today : Day) (st : DailyChallengeStats) : Prop where
  current : IsRun (weeks days) (week today) st.weeklyStreakCurrent
  best : Longest (weeks days) st.weeklyStreakBest

/-- A second pass in a week is on the day of the last one or the week before had
none, and no job has reset the streak that a pass in the next week goes on with. -/
structure OnWeek (days : List Day) (now : Time) (st : DailyChallengeStats) : Prop where
  sameWeek : ∀ t, st.lastWeeklyStreak = some t → week (date t) = week (date now) →
    date t = date now ∨ week (date now) - 1 ∉ weeks days
  nextWeek : ∀ t, st.lastWeeklyStreak = some t → week (date t) + 1 = week (date now) →
    st.weeklyStreakCurrent ≠ 0

/-- The law holds after every pass of a history. -/
def WeeklyLaws : List (Event × State) → Prop :=
  Every fun past e t => ∀ now uid, e = .submit now uid true →
    ∃ st, t.stats uid = some st ∧ WeeklyLaw (daysPassed ((e, t) :: past) uid) (date now) st

/-- Every pass of a history from `s₀` meets the condition. -/
def OnWeeks (s₀ : State) : List (Event × State) → Prop :=
  Every fun past e _ => ∀ now uid, e = .submit now uid true →
    ∀ st, (endState s₀ past).stats uid = some st → OnWeek (daysPassed past uid) now st

/-! ## Weeks -/

theorem week_mono {d e : Day} (h : d ≤ e) : week d ≤ week e :=
  Int.ediv_le_ediv (by decide) (Int.add_le_add_right h 3)

theorem weeks_nil : weeks [] = ∅ := by
  ext k
  simp [weeks]

theorem weeks_cons (d : Day) (days : List Day) :
    weeks (d :: days) = insert (week d) (weeks days) := by
  ext k
  simp [weeks, eq_comm]

/-- A day in a week that has one already adds no week. -/
theorem weeks_cons_of_mem {d : Day} {days : List Day} (h : week d ∈ weeks days) :
    weeks (d :: days) = weeks days := by
  rw [weeks_cons]
  exact Set.insert_eq_of_mem h

/-! ## One submission -/

section CountWeek

variable {now t : Time} {st : DailyChallengeStats}

/-- The fields of the weekly streak. -/
def DailyChallengeStats.weekly (st : DailyChallengeStats) : Nat × Nat × Option Time :=
  (st.weeklyStreakCurrent, st.weeklyStreakBest, st.lastWeeklyStreak)

/-- The daily part leaves the weekly streak and the last update alone. -/
theorem countDay_weekly (now : Time) (st : DailyChallengeStats) :
    (st.countDay now).weekly = st.weekly ∧ (st.countDay now).lastUpdate = st.lastUpdate := by
  unfold countDay
  dsimp only
  split_ifs <;> exact ⟨rfl, rfl⟩

theorem countWeek_first (now : Time) (h : st.lastWeeklyStreak = none) :
    (st.countWeek now).weeklyStreakCurrent = 1 ∧ (st.countWeek now).weeklyStreakBest = 1 := by
  simp [countWeek, h]

/-- The last pass was in the week before. -/
theorem countWeek_next (h : st.lastWeeklyStreak = some t)
    (hweek : week (date t) + 1 = week (date now)) :
    (st.countWeek now).weeklyStreakCurrent = st.weeklyStreakCurrent + 1 ∧
      (st.countWeek now).weeklyStreakBest =
        max st.weeklyStreakBest (st.weeklyStreakCurrent + 1) := by
  have hadjacent : areAdjacentWeeks t now = true := areAdjacentWeeks_iff.mpr (.inl hweek.symm)
  simp only [countWeek, h, hadjacent, if_true]
  split
  · next hlt => exact ⟨rfl, (max_eq_right hlt.le).symm⟩
  · next hle => exact ⟨rfl, (max_eq_left (not_lt.mp hle)).symm⟩

/-- The last pass was in this week or long ago. -/
theorem countWeek_else (h : st.lastWeeklyStreak = some t)
    (hweek : week (date t) + 1 ≠ week (date now)) (hle : week (date t) ≤ week (date now)) :
    st.countWeek now =
      if date t = date now then st else { st with weeklyStreakCurrent := 1 } := by
  have hadjacent : areAdjacentWeeks t now = false := by
    rw [Bool.eq_false_iff, ne_eq, areAdjacentWeeks_iff]
    rintro (hnext | hback)
    · exact hweek hnext.symm
    · exact absurd hle (not_le.mpr (hback ▸ Int.lt_succ _))
  simp [countWeek, h, hadjacent]

end CountWeek

/-- What is known of the weekly streak of a user between events. -/
structure KeptWeekly (days : List Day) (lastJob : Day) (clock : Time) (st : DailyChallengeStats) :
    Prop where
  best : Longest (weeks days) st.weeklyStreakBest
  pos : days ≠ [] → 1 ≤ st.weeklyStreakBest
  /-- The newest day is that of `last_weekly_streak`, and the run of its week is the
  current streak unless a later job reset it. -/
  newest : ∀ d rest, days = d :: rest → (∃ t, st.lastWeeklyStreak = some t ∧ date t = d) ∧
    (IsRun (weeks days) (week d) st.weeklyStreakCurrent ∨
      st.weeklyStreakCurrent = 0 ∧ d < lastJob)
  fresh : days = [] → st.lastWeeklyStreak = none
  ordered : ∀ d rest, days = d :: rest → ∀ d' ∈ rest, d' ≤ d
  updated : ∀ t, st.lastWeeklyStreak = some t → t ≤ clock ∧
    ∃ u, st.lastUpdate = some u ∧ date t ≤ date u ∧ u ≤ clock

namespace KeptWeekly

variable {days : List Day} {lastJob : Day} {clock now : Time} {st st' : DailyChallengeStats}

/-- The days, the newest first, when there is a pass. -/
theorem of_last (hk : KeptWeekly days lastJob clock st) {t : Time}
    (h : st.lastWeeklyStreak = some t) : ∃ rest, days = date t :: rest := by
  cases hdays : days with
  | nil => simp [hk.fresh hdays] at h
  | cons d rest =>
    obtain ⟨⟨u, hu, rfl⟩, -⟩ := hk.newest d rest hdays
    rw [Option.some.inj (hu.symm.trans h)]
    exact ⟨rest, rfl⟩

theorem eq_nil (hk : KeptWeekly days lastJob clock st) (h : st.lastWeeklyStreak = none) :
    days = [] := by
  cases hdays : days with
  | nil => rfl
  | cons d rest =>
    obtain ⟨⟨u, hu, -⟩, -⟩ := hk.newest d rest hdays
    simp [h] at hu

/-- No week is after that of the last pass. -/
theorem weeks_le (hk : KeptWeekly days lastJob clock st) {t : Time}
    (h : st.lastWeeklyStreak = some t) {k : Int} (hmem : k ∈ weeks days) : k ≤ week (date t) := by
  obtain ⟨rest, hdays⟩ := hk.of_last h
  obtain ⟨d, hd, rfl⟩ := hmem
  rw [hdays] at hd
  rcases List.mem_cons.mp hd with rfl | hrest
  · exact le_rfl
  · exact week_mono (hk.ordered _ _ hdays d hrest)

theorem mem_weeks (hk : KeptWeekly days lastJob clock st) {t : Time}
    (h : st.lastWeeklyStreak = some t) : week (date t) ∈ weeks days := by
  obtain ⟨rest, hdays⟩ := hk.of_last h
  exact ⟨date t, by simp [hdays], rfl⟩

theorem congr (hk : KeptWeekly days lastJob clock st) (hsame : st'.weekly = st.weekly)
    (hupdate : st'.lastUpdate = st.lastUpdate) : KeptWeekly days lastJob clock st' := by
  simp only [weekly, Prod.mk.injEq] at hsame
  obtain ⟨hcurrent, hbest, hlast⟩ := hsame
  refine ⟨hbest ▸ hk.best, hbest ▸ hk.pos, ?_, hlast ▸ hk.fresh, hk.ordered, ?_⟩
  · rw [hcurrent, hlast]
    exact hk.newest
  · rw [hlast, hupdate]
    exact hk.updated

/-- **One submission.**  A pass leaves the weeks the law asks for exactly if it meets
the condition. -/
theorem law_iff (hk : KeptWeekly days lastJob clock st) (hclock : clock ≤ now)
    (hjob : lastJob ≤ date now) :
    WeeklyLaw (date now :: days) (date now) (st.countWeek now) ↔ OnWeek days now st := by
  cases hlast : st.lastWeeklyStreak with
  | none =>
    obtain rfl := hk.eq_nil hlast
    obtain ⟨hcurrent, hbest⟩ := countWeek_first now hlast
    have hrun : IsRun (weeks [date now]) (week (date now)) 1 := by
      rw [weeks_cons, weeks_nil]
      exact (IsRun.zero_iff.mpr (Set.notMem_empty _)).insert_succ
    refine iff_of_true ⟨hcurrent ▸ hrun, ?_⟩ ⟨fun t ht => ?_, fun t ht => ?_⟩
    · rw [hbest]
      have hempty : Longest (weeks []) 0 := weeks_nil ▸ longest_empty
      rw [weeks_cons] at hrun ⊢
      exact hempty.insert_above (by simp [weeks_nil]) hrun
    · simp [hlast] at ht
    · simp [hlast] at ht
  | some t =>
    have hle : week (date t) ≤ week (date now) :=
      week_mono (date_le ((hk.updated t hlast).1.trans hclock))
    obtain ⟨rest, hdays⟩ := hk.of_last hlast
    have hmem := hk.mem_weeks hlast
    have hsame : ∀ {u}, st.lastWeeklyStreak = some u → u = t := fun hu =>
      Option.some.inj (hu.symm.trans hlast)
    by_cases hnext : week (date t) + 1 = week (date now)
    · -- The streak goes on, unless a job has reset it.
      obtain ⟨hcurrent, hbest⟩ := countWeek_next hlast hnext
      have hprev : week (date now) - 1 = week (date t) := by rw [← hnext, Int.add_sub_cancel]
      constructor
      · intro hlaw
        refine ⟨fun u hu heq => ?_, fun u hu _ hzero => ?_⟩
        · rw [hsame hu, ← hnext] at heq
          exact absurd heq (Int.lt_succ _).ne
        · have hone := hlaw.current
          rw [hcurrent, hzero] at hone
          refine hone.2 ?_
          show week (date now) - 1 ∈ weeks (date now :: days)
          rw [hprev, weeks_cons]
          exact Set.mem_insert_of_mem _ hmem
      · intro hon
        have hrun : IsRun (weeks days) (week (date now) - 1) st.weeklyStreakCurrent := by
          rw [hprev]
          exact (hk.newest _ _ hdays).2.resolve_right fun h => hon.nextWeek t hlast hnext h.1
        have hlonger := hrun.insert_succ
        rw [← weeks_cons] at hlonger
        refine ⟨hcurrent ▸ hlonger, ?_⟩
        rw [hbest, weeks_cons]
        rw [weeks_cons] at hlonger
        exact hk.best.insert_above
          (fun k hmem' => (hk.weeks_le hlast hmem').trans_lt (hnext ▸ Int.lt_succ _)) hlonger
    · have heq := countWeek_else hlast hnext hle
      by_cases hweek : week (date t) = week (date now)
      · have hset : weeks (date now :: days) = weeks days := weeks_cons_of_mem (hweek ▸ hmem)
        by_cases hday : date t = date now
        · -- The second pass of a day changes nothing.
          rw [heq, if_pos hday]
          refine iff_of_true ⟨?_, by rw [hset]; exact hk.best⟩
            ⟨fun u hu _ => .inl (hsame hu ▸ hday), fun u hu h => absurd (hsame hu ▸ h) hnext⟩
          rw [hset, ← hweek]
          exact (hk.newest _ _ hdays).2.resolve_right fun h => absurd hjob (hday ▸ not_le.mpr h.2)
        · rw [heq, if_neg hday]
          have hone : IsRun (weeks days) (week (date now)) 1 ↔
              week (date now) - 1 ∉ weeks days := by
            refine ⟨fun h => h.2, fun h => ⟨fun i hi => ?_, h⟩⟩
            obtain rfl := Nat.lt_one_iff.mp hi
            simpa using hweek ▸ hmem
          constructor
          · intro hlaw
            have hrun : IsRun (weeks days) (week (date now)) 1 := hset ▸ hlaw.current
            exact ⟨fun u hu _ => .inr (hone.mp hrun), fun u hu h => absurd (hsame hu ▸ h) hnext⟩
          · intro hon
            refine ⟨?_, by rw [hset]; exact hk.best⟩
            rw [hset]
            exact hone.mpr ((hon.sameWeek t hlast hweek).resolve_left hday)
      · -- A week without a pass lies between.
        have hday : date t ≠ date now := fun h => hweek (h ▸ rfl)
        rw [heq, if_neg hday]
        have hgap : week (date t) < week (date now) - 1 :=
          lt_of_le_of_ne (Int.le_sub_one_of_lt (lt_of_le_of_ne hle hweek))
            fun h => hnext (by rw [h, Int.sub_add_cancel])
        have hout : week (date now) - 1 ∉ weeks days := fun h =>
          absurd (hk.weeks_le hlast h) (not_le.mpr hgap)
        have hrun : IsRun (weeks (date now :: days)) (week (date now)) 1 := by
          rw [weeks_cons]
          exact (IsRun.zero_iff.mpr hout).insert_succ
        refine iff_of_true ⟨hrun, ?_⟩
          ⟨fun u hu h => absurd (hsame hu ▸ h) hweek, fun u hu h => absurd (hsame hu ▸ h) hnext⟩
        have hpos : 1 ≤ st.weeklyStreakBest := hk.pos (by simp [hdays])
        rw [weeks_cons] at hrun ⊢
        have hlongest := hk.best.insert_above (fun k h => (hk.weeks_le hlast h).trans_lt
          (lt_of_le_of_ne hle hweek)) hrun
        rwa [max_eq_left hpos] at hlongest

theorem initial : KeptWeekly [] lastJob clock {} where
  best := weeks_nil ▸ longest_empty
  pos := by simp
  newest := by simp
  fresh := fun _ => rfl
  ordered := by simp
  updated := by simp

/-- Time passes. -/
theorem later (hk : KeptWeekly days lastJob clock st) (hclock : clock ≤ now) :
    KeptWeekly days lastJob now st := by
  refine { hk with updated := fun t ht => ?_ }
  obtain ⟨hle, u, hu, hdate, hule⟩ := hk.updated t ht
  exact ⟨hle.trans hclock, u, hu, hdate, hule.trans hclock⟩

theorem law_submitted (hk : KeptWeekly days lastJob clock st) (hclock : clock ≤ now)
    (hjob : lastJob ≤ date now) :
    WeeklyLaw (date now :: days) (date now) (st.submitted now) ↔ OnWeek days now st := by
  obtain ⟨hsame, hupdate⟩ := countDay_weekly now st
  have hiff := (hk.congr hsame hupdate).law_iff hclock hjob
  simp only [weekly, Prod.mk.injEq] at hsame
  obtain ⟨hcurrent, -, hlast⟩ := hsame
  have hon : OnWeek days now (st.countDay now) ↔ OnWeek days now st := by
    constructor <;> rintro ⟨hsame, hnext⟩ <;>
      exact ⟨by simpa [hlast] using hsame, by simpa [hlast, hcurrent] using hnext⟩
  rw [← hon, ← hiff]
  exact ⟨fun h => ⟨h.current, h.best⟩, fun h => ⟨h.current, h.best⟩⟩

/-- What a pass that meets the condition leaves. -/
theorem submitted (hk : KeptWeekly days lastJob clock st) (hclock : clock ≤ now)
    (hjob : lastJob ≤ date now) (hon : OnWeek days now st) :
    KeptWeekly (date now :: days) lastJob now (st.submitted now) := by
  have hlaw := (hk.law_submitted hclock hjob).mpr hon
  refine ⟨hlaw.best, fun _ => ?_, fun d rest hdays => ?_, by simp, fun d rest hdays => ?_,
    fun t ht => ?_⟩
  · -- The run of this week is not empty.
    have hlonger := hlaw.best.2 _ _ hlaw.current
    have hrun := hlaw.current
    refine (Nat.one_le_iff_ne_zero.mpr fun hzero => ?_).trans hlonger
    rw [hzero, IsRun.zero_iff, weeks_cons] at hrun
    exact hrun (Set.mem_insert _ _)
  · obtain ⟨rfl, rfl⟩ := List.cons.inj hdays
    exact ⟨⟨now, rfl, rfl⟩, .inl hlaw.current⟩
  · obtain ⟨rfl, rfl⟩ := List.cons.inj hdays
    intro d' hd'
    cases hlast : st.lastWeeklyStreak with
    | none => simp [hk.eq_nil hlast] at hd'
    | some t =>
      obtain ⟨rest, hrest⟩ := hk.of_last hlast
      have hle := date_le ((hk.updated t hlast).1.trans hclock)
      rw [hrest] at hd'
      rcases List.mem_cons.mp hd' with rfl | hmem
      · exact hle
      · exact (hk.ordered _ _ hrest d' hmem).trans hle
  · obtain rfl := Option.some.inj ht
    exact ⟨le_rfl, now, rfl, le_rfl, le_rfl⟩

/-- The job marks a user as updated on its day. -/
theorem mark (hk : KeptWeekly days lastJob clock st) (hclock : clock ≤ jobTime (lastJob + 1))
    (hplaced : Placed (jobTime (lastJob + 1)) st st') :
    KeptWeekly days (lastJob + 1) (jobTime (lastJob + 1)) st' := by
  obtain ⟨m, n, rfl⟩ := hplaced
  refine ⟨hk.best, hk.pos, fun d rest hdays => ?_, hk.fresh, hk.ordered, fun t ht => ?_⟩
  · obtain ⟨hlast, hrun⟩ := hk.newest d rest hdays
    exact ⟨hlast, hrun.imp_right fun ⟨hzero, hlt⟩ => ⟨hzero, Int.lt_add_one_of_le hlt.le⟩⟩
  · obtain ⟨hle, u, -, hdate, hule⟩ := hk.updated t ht
    exact ⟨hle.trans hclock, _, rfl, hdate.trans (date_le (hule.trans hclock)), le_rfl⟩

/-- The fields of the weekly streak after the job found no place. -/
theorem reset_weekly (now : Time) {st : DailyChallengeStats}
    (h : st.updatedOn (date now) = false) :
    ((st.reset now).weeklyStreakCurrent = st.weeklyStreakCurrent ∨
      (st.reset now).weeklyStreakCurrent = 0) ∧
      (st.reset now).weeklyStreakBest = st.weeklyStreakBest ∧
      (st.reset now).lastWeeklyStreak = st.lastWeeklyStreak := by
  unfold DailyChallengeStats.reset
  rw [if_neg (by simp [h])]
  dsimp only
  split_ifs
  · exact ⟨.inr rfl, rfl, rfl⟩
  · exact ⟨.inl rfl, rfl, rfl⟩

theorem reset (hk : KeptWeekly days lastJob clock st) (hclock : clock ≤ jobTime (lastJob + 1)) :
    KeptWeekly days (lastJob + 1) (jobTime (lastJob + 1)) (st.reset (jobTime (lastJob + 1))) := by
  by_cases hupdated : st.updatedOn (lastJob + 1) = true
  · have hsame : st.reset (jobTime (lastJob + 1)) = st := by
      rw [DailyChallengeStats.reset, if_pos (by rwa [date_jobTime])]
    rw [hsame]
    refine { hk.later hclock with newest := fun d rest hdays => ?_ }
    exact ⟨(hk.newest d rest hdays).1, (hk.newest d rest hdays).2.imp_right
      fun h => ⟨h.1, Int.lt_add_one_of_le h.2.le⟩⟩
  · have hother : st.updatedOn (date (jobTime (lastJob + 1))) = false := by
      rwa [date_jobTime, Bool.eq_false_iff]
    obtain ⟨hcurrent, hbest, hlast⟩ := reset_weekly _ hother
    obtain ⟨-, -, -, -, hupdate⟩ := reset_spec _ hother
    refine ⟨hbest ▸ hk.best, hbest ▸ hk.pos, fun d rest hdays => ?_, hlast ▸ hk.fresh, hk.ordered,
      fun t ht => ?_⟩
    · obtain ⟨⟨t, ht, rfl⟩, hrun⟩ := hk.newest d rest hdays
      have hlt : date t < lastJob + 1 := by
        obtain ⟨-, u, hu, hdate, hule⟩ := hk.updated t ht
        have hjob := date_le (hule.trans hclock)
        rw [date_jobTime] at hjob
        have hne : date u ≠ lastJob + 1 := fun h => hupdated (updatedOn_iff.mpr ⟨u, hu, h⟩)
        exact hdate.trans_lt (lt_of_le_of_ne hjob hne)
      refine ⟨⟨t, hlast.trans ht, rfl⟩, ?_⟩
      rcases hcurrent with hcurrent | hzero
      · rw [hcurrent]
        exact hrun.imp_right fun h => ⟨h.1, hlt⟩
      · exact .inr ⟨hzero, hlt⟩
    · obtain ⟨hle, u, -, hdate, hule⟩ := hk.updated t (hlast ▸ ht)
      exact ⟨hle.trans hclock, _, hupdate, hdate.trans (date_le (hule.trans hclock)), le_rfl⟩

theorem persists : Persists KeptWeekly :=
  ⟨initial, fun hk hclock => hk.later hclock, fun hk => hk.mark, fun hk => hk.reset⟩

end KeptWeekly

/-! ## Runs -/

/-- A pass leaves what the law asks for exactly if it meets the condition. -/
theorem Users.weekly_law {h : List (Event × State)} {s : State} {now : Time}
    (hinv : Users KeptWeekly h s) (hclock : s.clock ≤ now) (uid : UserId) :
    WeeklyLaw (date now :: daysPassed h uid) (date now) (((s.stats uid).getD {}).submitted now) ↔
      ∀ st, s.stats uid = some st → OnWeek (daysPassed h uid) now st := by
  rw [(hinv.before KeptWeekly.persists uid).law_submitted hclock (hinv.jobDone hclock)]
  cases hst : s.stats uid with
  | none => exact iff_of_true ⟨by simp, by simp⟩ (by simp)
  | some st => simp

/-- Along a run, the passes leave what the law asks for exactly as long as they meet
the condition. -/
theorem weekly_streak_law {s₀ s : State} {h : List (Event × State)} (h₀ : Initial s₀)
    (hrun : Trace Step (fun _ _ => True) s₀ h s) : WeeklyLaws h ↔ OnWeeks s₀ h := by
  refine hrun.every_iff (I := Users KeptWeekly) h₀.users fun past s e t hinv hend hstep => ⟨?_, ?_⟩
  · refine forall_congr' fun now => forall_congr' fun uid => imp_congr_right fun he => ?_
    subst he
    cases hstep with
    | submit hclock hjob =>
      have hpass := hinv.weekly_law hclock uid
      rw [hend, ← hpass, daysPassed_submit, if_pos ⟨rfl, rfl⟩]
      simp only [stats_pass, Option.some.injEq, exists_eq_left']
  · intro hon
    refine hstep.users KeptWeekly.persists hinv fun now uid he hclock => ?_
    refine (hinv.before KeptWeekly.persists uid).submitted hclock (hinv.jobDone hclock) ?_
    cases hst : s.stats uid with
    | none => exact ⟨by simp, by simp⟩
    | some st => exact hon now uid he st (hend ▸ hst)

/-- No statistics, right after the job of the first Sunday. -/
def firstSunday : State where
  stats := fun _ => none
  clock := jobTime 3
  lastJob := 3

theorem firstSunday_initial : Initial firstSunday := ⟨fun _ => rfl, by decide, by decide⟩

def noon (d : Day) : Time := d * dayLength + dayLength / 2

/-- The user 7 passes at noon and is placed by the next job. -/
def State.passAndPlace (s : State) (d : Day) : List (Event × State) :=
  let passed : State :=
    { s with stats := processDailyChallengeScore (noon d) 7 true s.stats, clock := noon d }
  [(.nightly [7], { stats := processDailyChallengeTop (jobTime (s.lastJob + 1)) [7] passed.stats
                    clock := jobTime (s.lastJob + 1), lastJob := s.lastJob + 1 }),
    (.submit (noon d) 7 true, passed)]

/-- The user 7 passes on Sunday and on Monday. -/
def sundayMonday : List (Event × State) :=
  let sunday := firstSunday.passAndPlace 3
  (endState firstSunday sunday).passAndPlace 4 ++ sunday

theorem trace_sundayMonday :
    Trace Step (fun _ _ => True) firstSunday sundayMonday (endState firstSunday sundayMonday) :=
  (((Trace.refl.tail trivial (.submit (by decide) (by decide))).tail trivial .nightly).tail
    trivial (.submit (by decide) (by decide))).tail trivial .nightly

/-- A pass in each of two weeks. -/
theorem weekly_streak_law_monday :
    WeeklyLaws sundayMonday ∧ ((endState firstSunday sundayMonday).stats 7).map
      (fun st => (st.weeklyStreakCurrent, st.weeklyStreakBest)) = some (2, 2) := by
  refine ⟨(weekly_streak_law firstSunday_initial trace_sundayMonday).mpr ?_, by decide⟩
  refine ⟨⟨⟨⟨trivial, fun now uid he st hst => ?_⟩, nofun⟩, fun now uid he st hst => ?_⟩, nofun⟩
  · simp [endState, firstSunday] at hst
  · obtain ⟨rfl, rfl, -⟩ := Event.submit.inj he
    obtain rfl := Option.some.inj hst
    refine ⟨fun t ht hweek => ?_, fun _ _ _ => by decide⟩
    obtain rfl := Option.some.inj ht
    exact absurd hweek (by decide)

/-- The pass on Tuesday starts the streak of three weekdays in two weeks anew. -/
theorem second_day_of_week :
    ¬ ∀ (s₀ s : State) (h : List (Event × State)), Initial s₀ →
      Trace Step (fun _ _ => True) s₀ h s → WeeklyLaws h := by
  intro hlaw
  have hrun := trace_sundayMonday.tail (e := .submit (noon 5) 7 true) trivial
    (.submit (by decide) (by decide))
  obtain ⟨st, hst, hcount⟩ := (hlaw _ _ _ firstSunday_initial hrun).2 _ _ rfl
  have hone : st.weeklyStreakCurrent = 1 := by
    rw [← Option.some.inj hst]
    decide
  have hcurrent := hcount.current
  rw [hone] at hcurrent
  exact hcurrent.2 ⟨3, by decide, by decide⟩

end Soms.Daily

import Mathlib.Tactic.Linarith
import Soms.Daily.Streak

/-!
# The placements of the day before

`process_daily_challenge_top` rounds the quotient of a position and the number of players up to a
whole number before it compares it with 0.1 and 0.5.  A position is never zero, so that the
quotient is always one, and from ten players on nobody is in the first tenth.
-/

namespace Soms.Daily

open DailyChallengeStats

/-! ## The law -/

/-- The position, counted from one, is in the first tenth of `n` players. -/
def InTop10p (position n : Nat) : Prop := n < 10 ∨ (position : ℚ) / n ≤ 1 / 10

def InTop50p (position n : Nat) : Prop := n < 2 ∨ (position : ℚ) / n ≤ 1 / 2

/-- The counter grows by one exactly if the condition holds. -/
def CreditedIf (p : Prop) (before after : Nat) : Prop :=
  (p → after = before + 1) ∧ (¬ p → after = before)

/-- The statistics with the day of the last update only. -/
def DailyChallengeStats.onDay (st : DailyChallengeStats) : DailyChallengeStats × Option Day :=
  ({ st with lastUpdate := none }, st.lastUpdate.map date)

/-- What the job has to do with the leaderboard of the day before. -/
structure PlacementLaw (now : Time) (scores : List UserId) (stats : Stats) : Prop where
  top10p : ∀ i uid st, scores[i]? = some uid → stats uid = some st →
    ∃ st', processDailyChallengeTop now scores stats uid = some st' ∧
      CreditedIf (InTop10p (i + 1) scores.length) st.top10pPlacements st'.top10pPlacements
  top50p : ∀ i uid st, scores[i]? = some uid → stats uid = some st →
    ∃ st', processDailyChallengeTop now scores stats uid = some st' ∧
      CreditedIf (InTop50p (i + 1) scores.length) st.top50pPlacements st'.top50pPlacements
  others : ∀ uid, uid ∉ scores →
    (processDailyChallengeTop now scores stats uid).map
        (fun st => (st.top10pPlacements, st.top50pPlacements)) =
      (stats uid).map fun st => (st.top10pPlacements, st.top50pPlacements)
  /-- A place in the first tenth is one in the first half. -/
  both : ∀ uid st st', stats uid = some st →
    processDailyChallengeTop now scores stats uid = some st' →
    st.top10pPlacements < st'.top10pPlacements → st.top50pPlacements < st'.top50pPlacements
  /-- Later that day the job only moves the time of the last update. -/
  again : ∀ later uid, date later = date now →
    (processDailyChallengeTop later scores (processDailyChallengeTop now scores stats) uid).map
        onDay =
      (processDailyChallengeTop now scores stats uid).map onDay

/-! ## One row -/

variable {now : Time} {scores : List UserId} {stats : Stats}

theorem placeAll_getElem {total i j : Nat} {uid : UserId} (hnodup : scores.Nodup)
    (hi : scores[i]? = some uid) :
    placeAll now total j scores stats uid = (stats uid).map (·.place now (j + i) total) := by
  induction scores generalizing i j stats with
  | nil => simp at hi
  | cons a rest ih =>
    obtain ⟨hout, hnodup⟩ := List.nodup_cons.mp hnodup
    cases i with
    | zero =>
      obtain rfl := Option.some.inj hi
      exact ((placeAll_spec now total (j + 1) rest _ a).1 hout).trans (Function.update_self ..)
    | succ i =>
      have hmem : uid ∈ rest := List.mem_of_getElem? hi
      have hne : uid ≠ a := fun h => hout (h ▸ hmem)
      refine (ih hnodup hi).trans ?_
      rw [Function.update_of_ne hne, Nat.add_right_comm, Nat.add_assoc]

theorem processDailyChallengeTop_getElem {i : Nat} {uid : UserId} (hnodup : scores.Nodup)
    (hi : scores[i]? = some uid) :
    processDailyChallengeTop now scores stats uid =
      (stats uid).map (·.place now i scores.length) := by
  have hmem : uid ∈ scores := List.mem_of_getElem? hi
  unfold processDailyChallengeTop
  rw [if_pos hmem, placeAll_getElem hnodup hi, Nat.zero_add]

theorem processDailyChallengeTop_of_notMem {uid : UserId} (huid : uid ∉ scores) :
    processDailyChallengeTop now scores stats uid = (stats uid).map (·.reset now) := by
  unfold processDailyChallengeTop
  rw [if_neg huid, (placeAll_spec now _ 0 scores stats uid).1 huid]

/-- A quotient that is rounded up is one for every position. -/
theorem ceil_eq_one {i n : Nat} (hi : i < n) : (i + 1 + n - 1) / n = 1 := by
  rw [show i + 1 + n - 1 = i + n by omega, Nat.add_div_right i (by omega),
    Nat.div_eq_of_lt hi]

theorem place_top10p {st : DailyChallengeStats} {i n : Nat} (hi : i < n)
    (hst : st.updatedOn (date now) = false) :
    (st.place now i n).top10pPlacements = st.top10pPlacements + if n < 10 then 1 else 0 := by
  unfold place
  rw [ceil_eq_one hi, hst]
  by_cases h10 : n < 10 <;> by_cases h2 : n < 2 <;> simp [h10, h2]

theorem place_top50p {st : DailyChallengeStats} {i n : Nat} (hi : i < n)
    (hst : st.updatedOn (date now) = false) :
    (st.place now i n).top50pPlacements = st.top50pPlacements + if n < 2 then 1 else 0 := by
  unfold place
  rw [ceil_eq_one hi, hst]
  by_cases h10 : n < 10 <;> by_cases h2 : n < 2 <;> simp [h10, h2]

theorem reset_placements (st : DailyChallengeStats) :
    ((st.reset now).top10pPlacements, (st.reset now).top50pPlacements) =
      (st.top10pPlacements, st.top50pPlacements) := by
  unfold DailyChallengeStats.reset
  dsimp only
  split_ifs <;> rfl

theorem updatedOn_reset (st : DailyChallengeStats) :
    (st.reset now).updatedOn (date now) = true := by
  by_cases h : st.updatedOn (date now) = true
  · rwa [DailyChallengeStats.reset, if_pos h]
  · exact updatedOn_iff.mpr ⟨now, (reset_spec now (by simpa using h)).2.2.2.2, rfl⟩

/-- A row that was updated today keeps all but the time. -/
theorem onDay_place {st : DailyChallengeStats} {i n : Nat} (hst : st.updatedOn (date now) = true) :
    (st.place now i n).onDay = st.onDay := by
  obtain ⟨t, ht, hdate⟩ := updatedOn_iff.mp hst
  unfold place onDay
  simp [hst, ht, hdate]

theorem reset_of_updatedOn {st : DailyChallengeStats} (hst : st.updatedOn (date now) = true) :
    st.reset now = st := by
  rw [DailyChallengeStats.reset, if_pos hst]

/-- After the job every row was updated today. -/
theorem updatedOn_processDailyChallengeTop {uid : UserId} {st' : DailyChallengeStats}
    (h : processDailyChallengeTop now scores stats uid = some st') :
    st'.updatedOn (date now) = true := by
  by_cases huid : uid ∈ scores
  · obtain ⟨-, hnone, hsome⟩ := placeAll_spec now scores.length 0 scores stats uid
    unfold processDailyChallengeTop at h
    rw [if_pos huid] at h
    cases hst : stats uid with
    | none =>
      rw [hnone hst] at h
      cases h
    | some st =>
      obtain ⟨st'', hplaced, m, n, rfl⟩ := hsome st hst huid
      obtain rfl := Option.some.inj (hplaced.symm.trans h)
      exact updatedOn_iff.mpr ⟨now, rfl, rfl⟩
  · rw [processDailyChallengeTop_of_notMem huid] at h
    obtain ⟨st, -, rfl⟩ := Option.map_eq_some_iff.mp h
    exact updatedOn_reset st

/-- The job runs again on the same day. -/
theorem processDailyChallengeTop_again {later : Time} (hnodup : scores.Nodup)
    (hday : date later = date now) (uid : UserId) :
    (processDailyChallengeTop later scores (processDailyChallengeTop now scores stats) uid).map
        onDay =
      (processDailyChallengeTop now scores stats uid).map onDay := by
  cases hst : processDailyChallengeTop now scores stats uid with
  | none =>
    by_cases huid : uid ∈ scores
    · obtain ⟨i, hi⟩ := List.mem_iff_getElem?.mp huid
      rw [processDailyChallengeTop_getElem hnodup hi, hst]
      rfl
    · rw [processDailyChallengeTop_of_notMem huid, hst]
      rfl
  | some st =>
    have hupdated : st.updatedOn (date later) = true := by
      rw [hday]
      exact updatedOn_processDailyChallengeTop hst
    by_cases huid : uid ∈ scores
    · obtain ⟨i, hi⟩ := List.mem_iff_getElem?.mp huid
      rw [processDailyChallengeTop_getElem hnodup hi, hst]
      exact congrArg some (onDay_place hupdated)
    · rw [processDailyChallengeTop_of_notMem huid, hst]
      exact congrArg (fun st => some st.onDay) (reset_of_updatedOn hupdated)

/-! ## Small leaderboards -/

/-- The first of two or more players is in the first half. -/
theorem inTop50p_first {n : Nat} (hn : 2 ≤ n) : InTop50p 1 n := by
  have hn' : (2 : ℚ) ≤ n := by exact_mod_cast hn
  right
  rw [div_le_div_iff₀ (by linarith) (by norm_num)]
  push_cast
  linarith

/-- **Daily challenge placements.**  The job gives the placements that are due if at most one
player is placed, and otherwise it never does. -/
theorem daily_placements_iff (hnodup : scores.Nodup)
    (hstats : ∀ uid ∈ scores, ∃ st, stats uid = some st ∧ st.updatedOn (date now) = false) :
    PlacementLaw now scores stats ↔ scores.length < 2 := by
  constructor
  · intro hlaw
    by_contra hn
    obtain ⟨uid, hfirst⟩ : ∃ uid, scores[0]? = some uid :=
      ⟨scores[0], List.getElem?_eq_getElem (by omega)⟩
    obtain ⟨st, hst, hfresh⟩ := hstats uid (List.mem_of_getElem? hfirst)
    obtain ⟨st', hst', hcredited, -⟩ := hlaw.top50p 0 uid st hfirst hst
    have hmore := hcredited (inTop50p_first (by omega))
    rw [processDailyChallengeTop_getElem hnodup hfirst, hst] at hst'
    obtain rfl := Option.some.inj hst'
    rw [place_top50p (by omega) hfresh, if_neg hn] at hmore
    omega
  · intro hn
    have hrow : ∀ i uid st, scores[i]? = some uid → stats uid = some st →
        processDailyChallengeTop now scores stats uid = some (st.place now i scores.length) ∧
          i < scores.length ∧ st.updatedOn (date now) = false := by
      intro i uid st hi hst
      obtain ⟨st', hst', hfresh⟩ := hstats uid (List.mem_of_getElem? hi)
      obtain rfl := Option.some.inj (hst.symm.trans hst')
      refine ⟨?_, (List.getElem?_eq_some_iff.mp hi).1, hfresh⟩
      rw [processDailyChallengeTop_getElem hnodup hi, hst]
      rfl
    have hothers : ∀ uid, uid ∉ scores →
        (processDailyChallengeTop now scores stats uid).map
            (fun st => (st.top10pPlacements, st.top50pPlacements)) =
          (stats uid).map fun st => (st.top10pPlacements, st.top50pPlacements) := by
      intro uid huid
      rw [processDailyChallengeTop_of_notMem huid, Option.map_map]
      exact congrArg (fun f => (stats uid).map f) (funext reset_placements)
    have h10 : scores.length < 10 := by omega
    refine ⟨fun i uid st hi hst => ?_, fun i uid st hi hst => ?_, hothers,
      fun uid st st' hst hst' hmore => ?_,
      fun later uid hday => processDailyChallengeTop_again hnodup hday uid⟩
    · obtain ⟨hplaced, hlt, hfresh⟩ := hrow i uid st hi hst
      refine ⟨_, hplaced, fun _ => ?_, fun h => absurd (.inl h10) h⟩
      rw [place_top10p hlt hfresh, if_pos h10]
    · obtain ⟨hplaced, hlt, hfresh⟩ := hrow i uid st hi hst
      refine ⟨_, hplaced, fun _ => ?_, fun h => absurd (.inl hn) h⟩
      rw [place_top50p hlt hfresh, if_pos hn]
    · by_cases huid : uid ∈ scores
      · obtain ⟨i, hi⟩ := List.mem_iff_getElem?.mp huid
        obtain ⟨hplaced, hlt, hfresh⟩ := hrow i uid st hi hst
        obtain rfl := Option.some.inj (hplaced.symm.trans hst')
        rw [place_top50p hlt hfresh, if_pos hn]
        omega
      · have hsame := hothers uid huid
        rw [hst, hst'] at hsame
        have hsame := congrArg Prod.fst (Option.some.inj hsame)
        exact absurd hsame hmore.ne'

/-- The statistics of users who were last updated on the day 4. -/
def updatedYesterday : Stats := fun _ => some { lastUpdate := some (jobTime 4) }

theorem daily_placements_iff_alone : PlacementLaw (jobTime 5) [7] updatedYesterday :=
  (daily_placements_iff (List.nodup_singleton 7) fun _ _ => ⟨_, rfl, by decide⟩).mpr (by decide)

/-- The first of ten players is in the first tenth. -/
theorem first_of_ten_not_placed : ¬ ∀ (now : Time) (scores : List UserId) (stats : Stats),
    scores.Nodup →
    (∀ uid ∈ scores, ∃ st t, stats uid = some st ∧ st.lastUpdate = some t ∧ date t < date now) →
    PlacementLaw now scores stats := by
  intro hlaw
  obtain ⟨st', hst', hcredited, -⟩ := (hlaw (jobTime 5) (List.range 10) updatedYesterday
    List.nodup_range fun _ _ => ⟨_, _, rfl, rfl, by decide⟩).top10p 0 0 _ rfl rfl
  have hmore := hcredited (.inr (by norm_num))
  have hplaced : processDailyChallengeTop (jobTime 5) (List.range 10) updatedYesterday 0 =
      some { lastUpdate := some (jobTime 5) } := by decide +kernel
  obtain rfl := Option.some.inj (hplaced.symm.trans hst')
  exact absurd hmore (by decide)

end Soms.Daily

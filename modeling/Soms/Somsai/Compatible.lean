import Mathlib.Tactic.Linarith
import Soms.Somsai.Queue

/-!
# Compatible queue entries

The search radius grows with the time an entry has waited, from 150 to 500.  Two entries are
compatible when both radii reach across their ratings, or through the fallback of a 3500+ player,
which opens after ten minutes and reaches down to 2900.
-/

namespace Soms.Somsai

/-- The 3500+ player of the first entry has searched through the whole expansion and may meet
the second. -/
def EliteFallback (high low : QueueEntry) (now : Time) : Prop :=
  low.rating ≤ high.rating ∧ EXTREME_ARCHSOM_RATING ≤ high.rating ∧
    SEARCH_RADIUS_HOLD_SECONDS + SEARCH_RADIUS_RAMP_SECONDS ≤ high.waited now ∧
    DIAMOND_V_MIN ≤ low.rating

/-- Both radii reach across the ratings. -/
def Near (left right : QueueEntry) (now : Time) : Prop :=
  |left.rating - right.rating| ≤
    min (searchRadius (left.waited now)) (searchRadius (right.waited now))

variable {a b : QueueEntry} {t t' : Time} {x y : ℚ}

/-! ## The search radius -/

theorem searchRadius_eq (x : ℚ) :
    searchRadius x = 150 + max 0 (min 1 ((x - 300) / 300)) * 350 := by
  unfold searchRadius SEARCH_RADIUS_HOLD_SECONDS SEARCH_RADIUS_BASE SEARCH_RADIUS_RAMP_SECONDS
    SEARCH_RADIUS_CAP
  by_cases hx : x ≤ 300
  · have hwait : max 0 x ≤ 300 := max_le (by norm_num) hx
    have hnone : min 1 ((x - 300) / 300) ≤ 0 :=
      (min_le_right _ _).trans (div_nonpos_of_nonpos_of_nonneg (by linarith) (by norm_num))
    rw [if_pos hwait, max_eq_left hnone]
    norm_num
  · have hpos : 300 < x := not_le.mp hx
    have hwait : max 0 x = x := max_eq_right (by linarith)
    have hsome : 0 ≤ min 1 ((x - 300) / 300) :=
      le_min (by norm_num) (div_nonneg (by linarith) (by norm_num))
    rw [hwait, if_neg hx, max_eq_right hsome]
    norm_num

theorem searchRadius_mono (h : x ≤ y) : searchRadius x ≤ searchRadius y := by
  have hprogress : (x - 300) / 300 ≤ (y - 300) / 300 := by linarith
  have hclamp : max 0 (min 1 ((x - 300) / 300)) ≤ max 0 (min 1 ((y - 300) / 300)) :=
    max_le_max le_rfl (min_le_min le_rfl hprogress)
  rw [searchRadius_eq, searchRadius_eq]
  linarith

theorem base_le_searchRadius (x : ℚ) : 150 ≤ searchRadius x := by
  rw [searchRadius_eq]
  have hclamp : 0 ≤ max 0 (min 1 ((x - 300) / 300)) := le_max_left _ _
  linarith

theorem searchRadius_le_cap (x : ℚ) : searchRadius x ≤ 500 := by
  rw [searchRadius_eq]
  have hclamp : max 0 (min 1 ((x - 300) / 300)) ≤ 1 := max_le (by norm_num) (min_le_left _ _)
  linarith

theorem waited_mono (e : QueueEntry) (h : t ≤ t') : e.waited t ≤ e.waited t' := by
  have hcast : ((t - e.joinedAt : Int) : ℚ) ≤ ((t' - e.joinedAt : Int) : ℚ) := by
    exact_mod_cast Int.sub_le_sub_right h e.joinedAt
  unfold QueueEntry.waited
  linarith

/-! ## Near entries and the fallback -/

theorem Near.symm (h : Near a b t) : Near b a t := by
  unfold Near at *
  rwa [abs_sub_comm, min_comm]

theorem Near.mono (h : Near a b t) (htime : t ≤ t') : Near a b t' :=
  h.trans (min_le_min (searchRadius_mono (waited_mono a htime))
    (searchRadius_mono (waited_mono b htime)))

theorem near_of_close (h : |a.rating - b.rating| ≤ 150) : Near a b t :=
  h.trans (le_min (base_le_searchRadius _) (base_le_searchRadius _))

theorem Near.le_cap (h : Near a b t) : |a.rating - b.rating| ≤ 500 :=
  h.trans ((min_le_left _ _).trans (searchRadius_le_cap _))

/-- Equal ratings are near, so that the fallback never has to choose between them. -/
theorem near_of_eq (h : a.rating = b.rating) : Near a b t := near_of_close (by simp [h])

theorem EliteFallback.mono (h : EliteFallback a b t) (htime : t ≤ t') : EliteFallback a b t' :=
  ⟨h.1, h.2.1, h.2.2.1.trans (waited_mono a htime), h.2.2.2⟩

/-- **When two entries are compatible.** -/
theorem queueEntriesCompatible_iff : queueEntriesCompatible a b t = true ↔
    Near a b t ∨ EliteFallback a b t ∨ EliteFallback b a t := by
  unfold queueEntriesCompatible
  by_cases hnear : Near a b t
  · have hnear' : |a.rating - b.rating| ≤
        min (searchRadius (a.waited t)) (searchRadius (b.waited t)) := hnear
    simp [hnear, hnear']
  · have hfar : ¬ |a.rating - b.rating| ≤
        min (searchRadius (a.waited t)) (searchRadius (b.waited t)) := hnear
    have hne : a.rating ≠ b.rating := fun heq => hnear (near_of_eq heq)
    simp only [hfar, if_false, hnear, false_or, EliteFallback]
    by_cases hle : b.rating ≤ a.rating
    · have hlt : ¬ a.rating ≤ b.rating := fun h => hne (le_antisymm h hle)
      simp [hle, hlt, and_assoc]
    · have hle' : a.rating ≤ b.rating := (not_le.mp hle).le
      simp [hle, hle', and_assoc]

theorem queueEntriesCompatible_comm (a b : QueueEntry) (t : Time) :
    queueEntriesCompatible a b t = queueEntriesCompatible b a t := by
  rw [Bool.eq_iff_iff, queueEntriesCompatible_iff, queueEntriesCompatible_iff]
  have hnear : Near a b t ↔ Near b a t := ⟨Near.symm, Near.symm⟩
  rw [hnear, or_comm (a := EliteFallback a b t)]

/-- Which of two entries comes first does not matter, entries stay compatible, close entries are
compatible at once and distant ones through the fallback alone. -/
theorem queueEntriesCompatible_laws (a b : QueueEntry) {t t' : Time} (h : t ≤ t') :
    queueEntriesCompatible a b t = queueEntriesCompatible b a t ∧
      (queueEntriesCompatible a b t = true → queueEntriesCompatible a b t' = true) ∧
      (|a.rating - b.rating| ≤ 150 → queueEntriesCompatible a b t = true) ∧
      (500 < |a.rating - b.rating| → (queueEntriesCompatible a b t = true ↔
        EliteFallback a b t ∨ EliteFallback b a t)) := by
  refine ⟨queueEntriesCompatible_comm a b t, fun hcompatible => ?_, fun hclose => ?_,
    fun hdistant => ?_⟩
  · rw [queueEntriesCompatible_iff] at hcompatible ⊢
    rcases hcompatible with hnear | helite | helite
    · exact .inl (hnear.mono h)
    · exact .inr (.inl (helite.mono h))
    · exact .inr (.inr (helite.mono h))
  · exact queueEntriesCompatible_iff.mpr (.inl (near_of_close hclose))
  · rw [queueEntriesCompatible_iff]
    have hfar : ¬ Near a b t := fun hnear => absurd hnear.le_cap (not_le.mpr hdistant)
    simp only [hfar, false_or]

/-- An entry that joined at the given time. -/
def soloEntry (uid : UserId) (rating : ℚ) (joinedAt : Time) : QueueEntry where
  reservationId := uid
  captainId := uid
  members := [uid]
  format := .one
  rulesetId := 0
  variantId := 0
  rating := rating
  joinedAt := joinedAt
  expiresAt := joinedAt + seconds 90

/-- A 3600 player meets a 2900 one once ten minutes have passed. -/
theorem queueEntriesCompatible_laws_elite :
    queueEntriesCompatible (soloEntry 1 3600 0) (soloEntry 2 2900 0) (seconds 599) = false ∧
      queueEntriesCompatible (soloEntry 2 2900 0) (soloEntry 1 3600 0) (seconds 700) = true := by
  obtain ⟨-, hmono, -, hdistant⟩ := queueEntriesCompatible_laws (soloEntry 2 2900 0)
    (soloEntry 1 3600 0) (show seconds 600 ≤ seconds 700 by decide)
  refine ⟨by decide +kernel, hmono ((hdistant (by norm_num [soloEntry])).mpr (.inr ?_))⟩
  unfold EliteFallback soloEntry
  decide +kernel

end Soms.Somsai

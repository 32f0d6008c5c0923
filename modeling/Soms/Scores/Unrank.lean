import Soms.Scores.LocalRank

/-!
# The unrank of a set

`apply_local_unrank` for a whole set takes the local ranks of its difficulties away.  Those that had
none keep the policy that is in effect for them, unless their override is taken away on request.
-/

namespace Soms.Scores

open Txn

/-- A policy of staff that gives a leaderboard or PP. -/
def EffectivePolicy.grantsLocally (p : EffectivePolicy) : Bool :=
  p.source != .upstream && (p.leaderboardEnabled || p.ppEnabled)

/-- The policies as staff can write them: Ranked and Loved, or a forced unrank. -/
structure State.PoliciesSound (s : State) : Prop where
  mapPp : ∀ b p, s.mapPolicy b = some p → p.ppEnabled = true → p.leaderboardEnabled = true
  mapSet : ∀ b p, s.mapPolicy b = some p → ∃ bm, s.beatmaps.row b = some bm ∧ p.setId = bm.setId
  setPp : ∀ setId p, s.setPolicy setId = some p → p.ppEnabled = true → p.leaderboardEnabled = true
  setForced : ∀ setId p, s.setPolicy setId = some p → p.leaderboardEnabled = !p.forceUnranked

namespace State

variable {s t : State} {setId : SetId} {b : BeatmapId} {bm : Beatmap}

/-- The override that is in effect for a difficulty. -/
def override (s : State) (b : BeatmapId) (bm : Beatmap) : Option MapPolicy :=
  (s.mapPolicy b).filter (·.applies bm.checksum)

/-- The default of the set that is in effect for a difficulty without an override. -/
def default (s : State) (b : BeatmapId) (bm : Beatmap) : Option SetPolicy :=
  (s.setPolicy bm.setId).filter (·.applies b bm.checksum (s.pendingReview b bm.setId))

theorem policyOf_eq (hbm : s.beatmaps.row b = some bm) : s.policyOf b = s.effectivePolicy b bm := by
  unfold policyOf
  rw [hbm]

/-- With the same rows in effect the policy is the same. -/
theorem effectivePolicy_congr (hmap : t.override b bm = s.override b bm)
    (hset : s.override b bm = none → t.default b bm = s.default b bm) :
    t.effectivePolicy b bm = s.effectivePolicy b bm := by
  unfold override at hmap hset
  unfold default at hset
  unfold effectivePolicy
  rw [hmap]
  cases hp : (s.mapPolicy b).filter (·.applies bm.checksum) with
  | some p => rfl
  | none => rw [hset hp]

theorem effectivePolicy_deleted (h : bm.deleted = true) :
    s.effectivePolicy b bm = statusPolicy .graveyard .upstream := by
  unfold effectivePolicy
  rw [if_pos h]

theorem effectivePolicy_default {p : SetPolicy} (halive : bm.deleted = false)
    (hmap : s.override b bm = none) (hset : s.default b bm = some p) :
    s.effectivePolicy b bm = ⟨p.status, p.leaderboardEnabled, p.ppEnabled, .beatmapset⟩ := by
  unfold override at hmap
  unfold default at hset
  unfold effectivePolicy
  rw [hmap, hset, halive, if_neg Bool.false_ne_true]

theorem effectivePolicy_upstream (halive : bm.deleted = false) (hmap : s.override b bm = none)
    (hset : s.default b bm = none) : s.effectivePolicy b bm = statusPolicy bm.status .upstream := by
  unfold override at hmap
  unfold default at hset
  unfold effectivePolicy
  rw [hmap, hset, halive, if_neg Bool.false_ne_true]

/-- With sound policies what grants PP grants the leaderboard. -/
theorem grantsLocally_iff (hsound : s.PoliciesSound) (b : BeatmapId) (bm : Beatmap) :
    (s.effectivePolicy b bm).grantsLocally = (s.effectivePolicy b bm).isLocalRank := by
  have hflags : ∀ lb pp : Bool, (pp = true → lb = true) → (lb || pp) = lb := by decide
  unfold effectivePolicy
  split
  · rfl
  · split
    · next p hp =>
      have hpp := hsound.mapPp b p (Option.filter_eq_some_iff.mp hp).1
      split
      · exact hflags _ _ hpp
      · split
        · rfl
        · exact hflags _ _ hpp
    · split
      · next p hp =>
        exact hflags _ _ (hsound.setPp bm.setId p (Option.filter_eq_some_iff.mp hp).1)
      · rfl

theorem effectivePolicy_policies (h : t.policies = s.policies) :
    t.effectivePolicy b bm = s.effectivePolicy b bm :=
  policies_effectivePolicy h b bm

end State

/-! ## What is written -/

section Written

variable {s : State} {setId : SetId} {b : BeatmapId} {bm : Beatmap} {selected : BeatmapId → Bool}

/-- The rows that the set's unrank takes away. -/
def unrankChange (setId : SetId) (selected : BeatmapId → Bool) (s : State) : State :=
  resolveEvents setId none (clearOverrides setId selected (clearSetRank setId s))

/-- The default stays only if it is a forced unrank. -/
theorem default_unrankChange (s : State) (b : BeatmapId) (selected : BeatmapId → Bool)
    (hset : bm.setId = setId) :
    (unrankChange setId selected s).default b bm =
      (s.default b bm).filter (·.forceUnranked) := by
  have hrow : (unrankChange setId selected s).setPolicy bm.setId =
      (s.setPolicy bm.setId).map fun p =>
        if p.isActive && !p.forceUnranked then { p with isActive := false } else p := by
    rw [hset]
    exact Function.update_self ..
  unfold State.default
  rw [hrow]
  cases s.setPolicy bm.setId with
  | none => rfl
  | some p =>
    generalize s.pendingReview b bm.setId = pending
    generalize (unrankChange setId selected s).pendingReview b bm.setId = pending'
    cases hactive : p.isActive with
    | false => simp [SetPolicy.applies, hactive, Option.filter]
    | true =>
      cases hforced : p.forceUnranked with
      | true => simp [SetPolicy.applies, hactive, hforced, Option.filter]
      | false =>
        cases hpin : p.revisionManifest b == some bm.checksum && !pending <;>
          simp [SetPolicy.applies, hactive, hforced, hpin, Option.filter]

/-- The override of a difficulty goes if it is selected. -/
theorem override_unrankChange (selected : BeatmapId → Bool) (hsound : s.PoliciesSound)
    (hbm : s.beatmaps.row b = some bm) (hset : bm.setId = setId) : (unrankChange setId selected s).override b bm =
      if selected b then none else s.override b bm := by
  have hrow : (unrankChange setId selected s).mapPolicy b = (s.mapPolicy b).map fun p =>
      if p.setId = setId ∧ p.isActive ∧ selected b then { p with isActive := false } else p := rfl
  unfold State.override
  rw [hrow]
  cases hp : s.mapPolicy b with
  | none => simp
  | some p =>
    obtain ⟨bm', hbm', hpset⟩ := hsound.mapSet b p hp
    obtain rfl := Option.some.inj (hbm.symm.trans hbm')
    rw [hset] at hpset
    cases hactive : p.isActive with
    | false => simp [hactive, MapPolicy.applies]
    | true => cases selected b <;> simp [hpset, hactive, MapPolicy.applies, Option.filter]

/-- A forced unrank of the set is the default of every difficulty. -/
theorem default_forced (replace : Bool) (hset : bm.setId = setId) :
    ∃ p, (applySetPolicy setId .graveyard true replace s).default b bm = some p ∧
      p.leaderboardEnabled = false ∧ p.ppEnabled = false := by
  have hrow : (applySetPolicy setId .graveyard true replace s).setPolicy bm.setId = some
      { status := .graveyard, leaderboardEnabled := false, ppEnabled := false, forceUnranked := true
        revisionManifest := fun b => (s.beatmaps.row b).bind fun bm =>
          if bm.setId = setId ∧ bm.deleted = false then some bm.checksum else none } := by
    rw [hset]
    cases replace <;> exact Function.update_self ..
  unfold State.default
  rw [hrow]
  exact ⟨_, rfl, rfl, rfl⟩

theorem override_forced (hsound : s.PoliciesSound) (replace : Bool)
    (hbm : s.beatmaps.row b = some bm) (hset : bm.setId = setId) :
    (applySetPolicy setId .graveyard true replace s).override b bm =
      if replace then none else s.override b bm := by
  cases replace with
  | false => rfl
  | true =>
    have hcleared := override_unrankChange (fun _ => true) hsound hbm hset
    exact hcleared

end Written

/-! ## The unrank of a set -/

/-- The difficulties whose overrides go. -/
def State.selects (s : State) (setId : SetId) (replace : Bool) (b : BeatmapId) : Bool :=
  replace || ((s.activeMaps setId).filter fun b => (s.policyOf b).isLocalRank).contains b

section Unrank

variable {srv : Server} {s t : State} {setId : SetId} {replace : Bool} {u : Unit} {b : BeatmapId}
  {bm : Beatmap}

/-- Without a local rank the set is forced down, otherwise the local ranks are taken away. -/
theorem applyLocalUnrank_set (h : applyLocalUnrank srv setId none replace s = (.ok u, t)) :
    (∀ b ∈ s.activeMaps setId, (s.policyOf b).isLocalRank = false) ∧
        t.policies = (applySetPolicy setId .graveyard true replace s).policies ∨
      (∃ b ∈ s.activeMaps setId, (s.policyOf b).isLocalRank = true) ∧
        t.policies = (unrankChange setId (s.selects setId replace) s).policies := by
  simp only [applyLocalUnrank, bind_ok, refuse_ok, read_ok] at h
  obtain ⟨_, _, ⟨-, rfl⟩, _, _, ⟨rfl, rfl⟩, _, _, ⟨-, rfl⟩, _, _, ⟨rfl, rfl⟩, h⟩ := h
  split at h
  · next hnone =>
    refine Or.inl ⟨fun b hb => ?_, ?_⟩
    · simpa using List.filter_eq_nil_iff.mp hnone b hb
    · simp only [applyLocalRank, bind_ok, require_ok, refuse_ok, read_ok, write_ok] at h
      obtain ⟨_, _, ⟨-, rfl⟩, _, _, ⟨-, rfl⟩, _, _, ⟨-, rfl⟩, _, _, ⟨rfl, rfl⟩, _, _, ⟨-, rfl⟩,
        rfl⟩ := h
      rfl
  · next hsome =>
    simp only [bind_ok, refuse_ok, write_ok] at h
    obtain ⟨_, _, ⟨-, rfl⟩, rfl⟩ := h
    refine Or.inr ⟨?_, rfl⟩
    obtain ⟨b, hb⟩ := List.exists_mem_of_ne_nil _ hsome
    exact ⟨b, List.mem_filter.mp hb⟩

/-- A difficulty of the set is selected for its local rank or on request. -/
theorem selects_iff (hbm : s.beatmaps.row b = some bm) (hset : bm.setId = setId)
    (halive : bm.deleted = false) : s.selects setId replace b = true ↔
      replace = true ∨ (s.effectivePolicy b bm).isLocalRank = true := by
  have hactive : b ∈ s.activeMaps setId := by
    have hids : b ∈ s.beatmaps.ids := (s.beatmaps.mem_ids b).mpr (by simp [hbm])
    exact List.mem_filter.mpr ⟨hids, by simp [hbm, hset, halive]⟩
  simp [State.selects, hactive, State.policyOf_eq hbm]

/-- A difficulty without a local rank keeps its policy. -/
theorem effectivePolicy_kept (hsound : s.PoliciesSound) (hbm : s.beatmaps.row b = some bm)
    (hset : bm.setId = setId) (hlocal : (s.effectivePolicy b bm).isLocalRank = false)
    (hkept : replace = true → s.override b bm = none) :
    (unrankChange setId (s.selects setId replace) s).effectivePolicy b bm =
      s.effectivePolicy b bm := by
  by_cases hdeleted : bm.deleted = true
  · rw [State.effectivePolicy_deleted hdeleted, State.effectivePolicy_deleted hdeleted]
  have halive : bm.deleted = false := by simpa using hdeleted
  have hoverride : (unrankChange setId (s.selects setId replace) s).override b bm =
      s.override b bm := by
    rw [override_unrankChange _ hsound hbm hset]
    split
    · next hselected =>
      cases (selects_iff hbm hset halive).mp hselected with
      | inl hreplace => exact (hkept hreplace).symm
      | inr hrank => simp [hlocal] at hrank
    · rfl
  refine State.effectivePolicy_congr hoverride fun hnone => ?_
  rw [default_unrankChange _ _ _ hset]
  cases hdefault : s.default b bm with
  | none => rfl
  | some p =>
    -- a default that is not forced gives a local rank
    have hrow : s.setPolicy bm.setId = some p := (Option.filter_eq_some_iff.mp hdefault).1
    have hflags := hsound.setForced bm.setId p hrow
    rw [State.effectivePolicy_default halive hnone hdefault] at hlocal
    have hforced : p.forceUnranked = true := by
      simpa [EffectivePolicy.isLocalRank, hflags] using hlocal
    simp [Option.filter, hforced]

/-- No local rank is left. -/
theorem not_grantsLocally_cleared (hsound : s.PoliciesSound) (hbm : s.beatmaps.row b = some bm)
    (hset : bm.setId = setId) :
    ((unrankChange setId (s.selects setId replace) s).effectivePolicy b bm).grantsLocally =
      false := by
  by_cases hdeleted : bm.deleted = true
  · rw [State.effectivePolicy_deleted hdeleted]
    rfl
  have halive : bm.deleted = false := by simpa using hdeleted
  have hoverride := override_unrankChange (s.selects setId replace) hsound hbm hset
  have hdefault := default_unrankChange s b (s.selects setId replace) hset
  by_cases hselected : s.selects setId replace b = true
  · rw [if_pos hselected] at hoverride
    cases hrow : (unrankChange setId (s.selects setId replace) s).default b bm with
    | none =>
      rw [State.effectivePolicy_upstream halive hoverride hrow]
      rfl
    | some p =>
      rw [hdefault] at hrow
      obtain ⟨hold, hforced⟩ := Option.filter_eq_some_iff.mp hrow
      have hsetRow : s.setPolicy bm.setId = some p := (Option.filter_eq_some_iff.mp hold).1
      have hoff : p.leaderboardEnabled = false := by
        simpa [hforced] using hsound.setForced bm.setId p hsetRow
      have hpp : p.ppEnabled = false := by
        by_contra hpp
        simp [hsound.setPp bm.setId p hsetRow (by simpa using hpp)] at hoff
      rw [State.effectivePolicy_default halive hoverride (hdefault.trans hrow)]
      simp [EffectivePolicy.grantsLocally, hoff, hpp]
  · have hout := (selects_iff hbm hset halive).not.mp hselected
    have hreplace : replace = false := by simpa using fun h => hout (Or.inl h)
    have hlocal : (s.effectivePolicy b bm).isLocalRank = false := by
      simpa using fun h => hout (Or.inr h)
    rw [effectivePolicy_kept hsound hbm hset hlocal (by simp [hreplace]),
      State.grantsLocally_iff hsound, hlocal]

theorem not_grantsLocally_forced (hsound : s.PoliciesSound) (hbm : s.beatmaps.row b = some bm)
    (hset : bm.setId = setId)
    (hnone : bm.deleted = false → (s.effectivePolicy b bm).isLocalRank = false) :
    ((applySetPolicy setId .graveyard true replace s).effectivePolicy b bm).grantsLocally =
      false := by
  by_cases hdeleted : bm.deleted = true
  · rw [State.effectivePolicy_deleted hdeleted]
    rfl
  have halive : bm.deleted = false := by simpa using hdeleted
  obtain ⟨p, hdefault, hoff, hpp⟩ := default_forced (s := s) (b := b) replace hset
  have hoverride := override_forced hsound replace hbm hset
  cases hrow : (applySetPolicy setId .graveyard true replace s).override b bm with
  | none =>
    rw [State.effectivePolicy_default halive hrow hdefault]
    simp [EffectivePolicy.grantsLocally, hoff, hpp]
  | some q =>
    -- an override that stays gave no local rank before
    have hsame : (applySetPolicy setId .graveyard true replace s).override b bm =
        s.override b bm := by
      rw [hoverride]
      split
      · next hreplace =>
        rw [hoverride, if_pos hreplace] at hrow
        exact absurd hrow (by simp)
      · rfl
    have hpolicy := State.effectivePolicy_congr hsame fun h => absurd (hsame.symm.trans hrow) (by
      simp [h])
    rw [hpolicy, State.grantsLocally_iff hsound, hnone halive]

/-- **The unrank of a set** leaves no local rank, and where there was one the other difficulties
keep their policies, unless their overrides are taken away on request. -/
theorem applyLocalUnrank_neutral (hsound : s.PoliciesSound)
    (h : applyLocalUnrank srv setId none replace s = (.ok u, t)) :
    (∀ b bm, s.beatmaps.row b = some bm → bm.setId = setId →
      (t.policyOf b).grantsLocally = false) ∧
    ((∃ b ∈ s.activeMaps setId, (s.policyOf b).isLocalRank = true) →
      ∀ b bm, s.beatmaps.row b = some bm → bm.setId = setId →
        (s.policyOf b).isLocalRank = false → (replace = true → s.override b bm = none) →
        t.policyOf b = s.policyOf b) := by
  have hrow : ∀ {v : State}, t.policies = v.policies → v.beatmaps = s.beatmaps →
      ∀ b bm, s.beatmaps.row b = some bm → t.policyOf b = v.effectivePolicy b bm := by
    intro v hpolicies hmaps b bm hbm
    have hmapsT : t.beatmaps = v.beatmaps := congrArg (·.2.1) hpolicies
    have hbm' : t.beatmaps.row b = some bm := by rw [hmapsT, hmaps, hbm]
    rw [State.policyOf_eq hbm', State.effectivePolicy_policies hpolicies]
  cases applyLocalUnrank_set h with
  | inl hforced =>
    obtain ⟨hnone, hpolicies⟩ := hforced
    have hmaps : (applySetPolicy setId .graveyard true replace s).beatmaps = s.beatmaps := by
      cases replace <;> rfl
    refine ⟨fun b bm hbm hset => ?_, fun hsome => ?_⟩
    · rw [hrow hpolicies hmaps b bm hbm]
      refine not_grantsLocally_forced hsound hbm hset fun halive => ?_
      rw [← State.policyOf_eq hbm]
      exact hnone b (List.mem_filter.mpr ⟨(s.beatmaps.mem_ids b).mpr (by simp [hbm]), by
        simp [hbm, hset, halive]⟩)
    · obtain ⟨b, hb, hlocal⟩ := hsome
      simp [hnone b hb] at hlocal
  | inr hcleared =>
    obtain ⟨-, hpolicies⟩ := hcleared
    refine ⟨fun b bm hbm hset => ?_, fun _ b bm hbm hset hlocal hkept => ?_⟩
    · rw [hrow hpolicies rfl b bm hbm]
      exact not_grantsLocally_cleared hsound hbm hset
    · rw [State.policyOf_eq hbm] at hlocal
      rw [hrow hpolicies rfl b bm hbm, State.policyOf_eq hbm]
      exact effectivePolicy_kept hsound hbm hset hlocal hkept

end Unrank

/-! ## Sound policies -/

/-- What the callers of `apply_local_rank` apply: Ranked or Loved, and nothing forced. -/
def Event.RanksOnly : Event → Prop
  | .applyRank _ _ status _ _ forceUnranked _ =>
    (status = .ranked ∨ status = .loved) ∧ forceUnranked = false
  | _ => True

theorem pp_of_status (status : BeatmapRankStatus) (h : status.hasPp = true) :
    status.hasLeaderboard = true := by
  cases status <;> first | rfl | exact absurd h (by decide)

section Sound

variable {srv : Deployment} {s t : State} {e : Event}

/-- Rows that come from sound ones, on difficulties that stay in their sets. -/
theorem State.PoliciesSound.of_from (hs : s.PoliciesSound)
    (hmap : ∀ b p, t.mapPolicy b = some p → ∃ p', s.mapPolicy b = some p' ∧ p.From p')
    (hset : ∀ setId p, t.setPolicy setId = some p → ∃ p', s.setPolicy setId = some p' ∧ p.From p')
    (hrow : ∀ b bm, s.beatmaps.row b = some bm → ∃ bm', t.beatmaps.row b = some bm' ∧
      bm'.setId = bm.setId) : t.PoliciesSound where
  mapPp := by
    intro b p hp
    obtain ⟨p', hp', ⟨active, rfl, -⟩⟩ := hmap b p hp
    exact hs.mapPp b p' hp'
  mapSet := by
    intro b p hp
    obtain ⟨p', hp', ⟨active, rfl, -⟩⟩ := hmap b p hp
    obtain ⟨bm, hbm, hpset⟩ := hs.mapSet b p' hp'
    obtain ⟨bm', hbm', hsame⟩ := hrow b bm hbm
    exact ⟨bm', hbm', hpset.trans hsame.symm⟩
  setPp := by
    intro setId p hp
    obtain ⟨p', hp', ⟨active, manifest, rfl, -⟩⟩ := hset setId p hp
    exact hs.setPp setId p' hp'
  setForced := by
    intro setId p hp
    obtain ⟨p', hp', ⟨active, manifest, rfl, -⟩⟩ := hset setId p hp
    exact hs.setForced setId p' hp'

theorem rows_put {b : BeatmapId} (bm : Beatmap) (hmaps : t.beatmaps = s.beatmaps.put b bm)
    (hset : ∀ old, s.beatmaps.row b = some old → bm.setId = old.setId) (b' : BeatmapId)
    (old : Beatmap) (hold : s.beatmaps.row b' = some old) :
    ∃ bm', t.beatmaps.row b' = some bm' ∧ bm'.setId = old.setId := by
  rw [hmaps, Catalog.row_put]
  by_cases hb : b' = b
  · subst hb
    exact ⟨bm, if_pos rfl, hset old hold⟩
  · exact ⟨old, by rw [if_neg hb, hold], rfl⟩

theorem State.PoliciesSound.manual (hs : s.PoliciesSound) (hranks : e.RanksOnly)
    {affected : List BeatmapId} {change : State → State} (hmanual : Manual s e affected change) :
    (change s).PoliciesSound := by
  have hmapSame : ∀ b p, s.mapPolicy b = some p → ∃ p', s.mapPolicy b = some p' ∧ p.From p' :=
    fun _ p hp => ⟨p, hp, p.from_refl⟩
  have hsetSame : ∀ setId p, s.setPolicy setId = some p →
      ∃ p', s.setPolicy setId = some p' ∧ p.From p' := fun _ p hp => ⟨p, hp, p.from_refl⟩
  have hrowSame : ∀ b bm, s.beatmaps.row b = some bm → ∃ bm', s.beatmaps.row b = some bm' ∧
      bm'.setId = bm.setId := fun _ bm hbm => ⟨bm, hbm, rfl⟩
  cases hmanual with
  | @override _ setId b bm status forceUnranked blocksSetPolicy hbm hset halive hforced hrank =>
    refine ⟨fun b' p hp => ?_, fun b' p hp => ?_, hs.setPp, hs.setForced⟩
    · have hp : Function.update s.mapPolicy b _ b' = some p := hp
      by_cases hb : b' = b
      · rw [hb, Function.update_self] at hp
        obtain rfl := Option.some.inj hp
        exact pp_of_status status
      · rw [Function.update_of_ne hb] at hp
        exact hs.mapPp b' p hp
    · have hp : Function.update s.mapPolicy b _ b' = some p := hp
      by_cases hb : b' = b
      · rw [hb, Function.update_self] at hp
        obtain rfl := Option.some.inj hp
        refine ⟨bm, hb ▸ hbm, ?_⟩
        cases hold : s.mapPolicy b with
        | none => exact hset.symm
        | some old =>
          obtain ⟨bm', hbm', hpset⟩ := hs.mapSet b old hold
          obtain rfl := Option.some.inj (hbm.symm.trans hbm')
          exact hpset
      · rw [Function.update_of_ne hb] at hp
        exact hs.mapSet b' p hp
  | @setDefault _ setId status forceUnranked replace hforced hrank =>
    have hcleared : (if replace then clearOverrides setId (fun _ => true) s else s).PoliciesSound := by
      split
      · exact hs.of_from (fun b p hp => mapPolicy_clearOverrides hp) hsetSame hrowSame
      · exact hs
    have hflags : status.hasLeaderboard = !forceUnranked := by
      cases hoff : forceUnranked with
      | true => exact (hforced hoff).1
      | false =>
        obtain ⟨leaderboard, pp, rfl⟩ := hrank hoff
        rcases hranks.1 with rfl | rfl <;> rfl
    refine ⟨fun b p hp => hcleared.mapPp b p hp, fun b p hp => hcleared.mapSet b p hp, ?_, ?_⟩
    · intro setId' p hp
      have hp : Function.update (if replace then clearOverrides setId (fun _ => true) s
        else s).setPolicy setId _ setId' = some p := hp
      by_cases hset : setId' = setId
      · rw [hset, Function.update_self] at hp
        obtain rfl := Option.some.inj hp
        exact pp_of_status status
      · rw [Function.update_of_ne hset] at hp
        exact hcleared.setPp setId' p hp
    · intro setId' p hp
      have hp : Function.update (if replace then clearOverrides setId (fun _ => true) s
        else s).setPolicy setId _ setId' = some p := hp
      by_cases hset : setId' = setId
      · rw [hset, Function.update_self] at hp
        obtain rfl := Option.some.inj hp
        exact hflags
      · rw [Function.update_of_ne hset] at hp
        exact hcleared.setForced setId' p hp
  | unrankSet _ =>
    exact hs.of_from (fun b p hp => mapPolicy_clearOverrides hp)
      (fun setId p hp => setPolicy_update (fun p => p.from_ite _) hp) hrowSame
  | clearSet =>
    exact hs.of_from hmapSame (fun setId p hp => setPolicy_update SetPolicy.from_deactivated hp)
      hrowSame
  | clearMap _ _ _ =>
    refine hs.of_from (fun b p hp => ?_) hsetSame hrowSame
    obtain ⟨p', hp', hfrom, -⟩ := mapPolicy_update MapPolicy.from_deactivated hp
    exact ⟨p', hp', hfrom⟩

theorem State.PoliciesSound.synced (hs : s.PoliciesSound) {srv : Server} {setId : SetId}
    {b : BeatmapId} {u : Option Upstream} (hsync : Synced srv s setId b u t) : t.PoliciesSound := by
  have hmapSame : ∀ b p, s.mapPolicy b = some p → ∃ p', s.mapPolicy b = some p' ∧ p.From p' :=
    fun _ p hp => ⟨p, hp, p.from_refl⟩
  have hsetSame : ∀ setId p, s.setPolicy setId = some p →
      ∃ p', s.setPolicy setId = some p' ∧ p.From p' := fun _ p hp => ⟨p, hp, p.from_refl⟩
  have hput : ∀ {bm old : Beatmap}, s.beatmaps.row b = some old → bm.setId = old.setId →
      ∀ old', s.beatmaps.row b = some old' → bm.setId = old'.setId := by
    intro bm old hold hsame old' hold'
    rw [Option.some.inj (hold'.symm.trans hold)]
    exact hsame
  cases hsync with
  | idle => exact hs
  | @added u hset hu hnew =>
    obtain ⟨-, hmaps, hmap, hsetp, -⟩ := invalidateForUpstreamChange_spec (s.putBeatmap b u.row)
      setId b none (some u.checksum) none u.lastUpdated
    exact hs.of_from hmap hsetp (rows_put _ hmaps fun old hold => by simp [hnew] at hold)
  | @readded u bm hset hu hbm hbmSet hgone =>
    obtain ⟨-, hmaps, hmap, hsetp, -⟩ := invalidateForUpstreamChange_spec (s.putBeatmap b u.row)
      setId b (some bm.checksum) (some u.checksum) bm.lastUpdated u.lastUpdated
    exact hs.of_from hmap hsetp (rows_put _ hmaps (hput hbm (hu.trans hbmSet.symm)))
  | @deleted bm hset hbm hbmSet halive =>
    obtain ⟨-, hmaps, hmap, hsetp, -⟩ := invalidateForUpstreamChange_spec s setId b
      (some bm.checksum) none bm.lastUpdated none
    refine hs.of_from hmap hsetp (rows_put { bm with deleted := true } ?_ (hput hbm rfl))
    show (State.withdraw s setId b bm).beatmaps.put b _ = _
    rw [State.withdraw, hmaps]
  | @updated u bm hset hu hbm hbmSet halive hrevised =>
    obtain ⟨-, hmaps, hmap, hsetp, -⟩ := invalidateForUpstreamChange_spec s setId b
      (some bm.checksum) (some u.checksum) bm.lastUpdated u.lastUpdated
    refine hs.of_from hmap hsetp (rows_put u.row ?_ (hput hbm (hu.trans hbmSet.symm)))
    show (State.revise s setId b bm u).beatmaps.put b _ = _
    rw [State.revise, hmaps]
  | @statusChanged u bm hset hu hbm hbmSet halive hsame =>
    exact hs.of_from hmapSame hsetSame (rows_put _ rfl (hput hbm (hu.trans hbmSet.symm)))
  | @unchanged u bm hset hu hbm hbmSet halive hsame =>
    exact hs.of_from hmapSame hsetSame (rows_put _ rfl (hput hbm (hu.trans hbmSet.symm)))

theorem PolicyStep.policiesSound (hstep : PolicyStep srv s e t) (hranks : e.RanksOnly)
    (hs : s.PoliciesSound) : t.PoliciesSound := by
  cases hstep with
  | play _ hsame =>
    have hmaps : t.beatmaps = s.beatmaps := congrArg (·.2.1) hsame
    have hmap : t.mapPolicy = s.mapPolicy := congrArg (·.2.2.1) hsame
    have hset : t.setPolicy = s.setPolicy := congrArg (·.2.2.2.1) hsame
    exact hs.of_from (fun b p hp => ⟨p, hmap ▸ hp, p.from_refl⟩)
      (fun setId p hp => ⟨p, hset ▸ hp, p.from_refl⟩) fun b bm hbm => ⟨bm, hmaps ▸ hbm, rfl⟩
  | @fetched b u hnew =>
    exact hs.of_from (fun b p hp => ⟨p, hp, p.from_refl⟩) (fun setId p hp => ⟨p, hp, p.from_refl⟩)
      (rows_put u.row rfl fun old hold => by simp [hnew] at hold)
  | manual hmanual =>
    have hchange := hs.manual hranks hmanual
    exact ⟨hchange.mapPp, hchange.mapSet, hchange.setPp, hchange.setForced⟩
  | resolved => exact ⟨hs.mapPp, hs.mapSet, hs.setPp, hs.setForced⟩
  | synced hsync => exact hs.synced hsync

/-- Whatever the staff and upstream do, the policies are sound. -/
theorem Runs.policiesSound {h : List (Event × State)}
    (hrun : Runs srv (fun _ e => e.RanksOnly) h s) : s.PoliciesSound :=
  hrun.invariant (I := fun _ s => s.PoliciesSound)
    (fun _ _ _ _ hinv hranks hstep => hstep.policies.policiesSound hranks hinv)
    ⟨by simp [State.empty], by simp [State.empty], by simp [State.empty], by simp [State.empty]⟩

end Sound

/-! ## Overrides that are taken away -/

/-- The difficulty 1 is Loved by staff, and the difficulty 2, Ranked upstream, is forced down. -/
def mixedSet : State :=
  let s := State.empty.after plainServer (.fetch 1 firstChart)
  let s := s.after plainServer (.fetch 2 { firstChart with checksum := 5, status := .ranked })
  let s := s.after plainServer (.applyRank 1 (some 1) .loved none none false false)
  s.after plainServer (.unrank 1 (some 2) false)

theorem mixedSet_sound : mixedSet.PoliciesSound := by
  have hrun : Runs plainServer (fun _ e => e.RanksOnly) _ mixedSet :=
    (((Runs.start (.fetch 1 firstChart) trivial (by decide +kernel)).after
      (.fetch 2 { firstChart with checksum := 5, status := .ranked }) trivial
        (by decide +kernel)).after
      (.applyRank 1 (some 1) .loved none none false false) ⟨Or.inr rfl, rfl⟩
        (by decide +kernel)).after
      (.unrank 1 (some 2) false) trivial (by decide +kernel)
  exact hrun.policiesSound

/-- The unrank of the set with `replace_difficulty_overrides` ranks the second difficulty again. -/
theorem replace_restores : mixedSet.PoliciesSound ∧
    (applyLocalUnrank plainServer.toServer 1 none true mixedSet).1.toBool = true ∧
    (mixedSet.policyOf 1).isLocalRank = true ∧ (mixedSet.policyOf 2).isLocalRank = false ∧
    mixedSet.policyOf 2 = ⟨.graveyard, false, false, .beatmap⟩ ∧
    (applyLocalUnrank plainServer.toServer 1 none true mixedSet).2.policyOf 2 =
      ⟨.ranked, true, true, .upstream⟩ :=
  ⟨mixedSet_sound, by decide +kernel, by decide +kernel, by decide +kernel, by decide +kernel,
    by decide +kernel⟩

theorem mixedSet_neutral :
    (∀ b bm, mixedSet.beatmaps.row b = some bm → bm.setId = 1 →
      ((mixedSet.after plainServer (.unrank 1 none false)).policyOf b).grantsLocally = false) ∧
    (mixedSet.after plainServer (.unrank 1 none false)).policyOf 2 = mixedSet.policyOf 2 := by
  have hok : (applyLocalUnrank plainServer.toServer 1 none false mixedSet).1.toBool = true := by
    decide +kernel
  have hserve : ∃ u, applyLocalUnrank plainServer.toServer 1 none false mixedSet =
      (.ok u, mixedSet.after plainServer (.unrank 1 none false)) := by
    cases hresult : applyLocalUnrank plainServer.toServer 1 none false mixedSet with
    | mk result t =>
      cases result with
      | ok u => exact ⟨u, congrArg (Prod.mk _) (congrArg Prod.snd hresult).symm⟩
      | error e => simp [hresult, Except.toBool] at hok
  obtain ⟨u, hserve⟩ := hserve
  obtain ⟨hnone, hkept⟩ := applyLocalUnrank_neutral mixedSet_sound hserve
  refine ⟨hnone, ?_⟩
  have hbm : ∃ bm, mixedSet.beatmaps.row 2 = some bm ∧ bm.setId = 1 :=
    ⟨{ setId := 1, checksum := 5, status := .ranked }, by decide +kernel, rfl⟩
  obtain ⟨bm, hbm, hset⟩ := hbm
  exact hkept ⟨1, by decide +kernel, by decide +kernel⟩ 2 bm hbm hset (by decide +kernel)
    fun h => absurd h (by decide)

end Soms.Scores

import Soms.Scores.PolicyStep

/-!
# Local ranks and revisions

A local rank is pinned to the checksum it was given for.  What keeps it from
coming back with an old checksum is that a revision takes the pin away, and not
only that the checksums differ: a policy that could grant anything always pins the
chart that the table has, and has done so since staff wrote it.
-/

namespace Soms.Scores

open Txn

/-- Staff give the status to the set, or to the difficulty. -/
def GivesStatus (source : PolicySource) (setId : SetId) (b : BeatmapId)
    (status : BeatmapRankStatus) : Event → Prop
  | .applyRank setId' b' status' _ _ forceUnranked _ =>
    setId' = setId ∧ status' = status ∧ forceUnranked = false ∧
      match source with
      | .upstream => False
      | .beatmapset => b' = none
      | .beatmap => b' = some b
  | _ => False

namespace State

/-- The difficulty is in the set with this chart. -/
def HasChart (b : BeatmapId) (setId : SetId) (checksum : Checksum) (s : State) : Prop :=
  ∃ bm, s.beatmaps.row b = some bm ∧ bm.setId = setId ∧ bm.checksum = checksum ∧
    bm.deleted = false

/-- The checksum that the policies of the source pin for the difficulty. -/
def pinned (s : State) (source : PolicySource) (setId : SetId) (b : BeatmapId) :
    Option Checksum :=
  match source with
  | .upstream => none
  | .beatmapset => (s.setPolicy setId).bind (·.revisionManifest b)
  | .beatmap => (s.mapPolicy b).map (·.rankedChecksum)

end State

/-- The override may grant something on the chart it pins. -/
def MapPolicy.regular (p : MapPolicy) : Prop :=
  p.isActive = true ∧ p.forceUnranked = false ∧ p.blocksSetPolicy = false

def SetPolicy.regular (p : SetPolicy) : Prop := p.isActive = true ∧ p.forceUnranked = false

/-- The row of `p'`, unless it was deactivated. -/
def MapPolicy.From (p p' : MapPolicy) : Prop :=
  ∃ active, p = { p' with isActive := active } ∧ (active = true → p'.isActive = true)

/-- The row of `p'`, unless it was deactivated or lost difficulties. -/
def SetPolicy.From (p p' : SetPolicy) : Prop :=
  ∃ active manifest, p = { p' with isActive := active, revisionManifest := manifest } ∧
    (active = true → p'.isActive = true) ∧
    ∀ b checksum, manifest b = some checksum → p'.revisionManifest b = some checksum

theorem MapPolicy.from_refl (p : MapPolicy) : p.From p := ⟨p.isActive, rfl, id⟩

theorem MapPolicy.from_deactivated (p : MapPolicy) : MapPolicy.From { p with isActive := false } p :=
  ⟨false, rfl, by simp⟩

theorem MapPolicy.from_ite (c : Prop) [Decidable c] (p : MapPolicy) :
    (if c then { p with isActive := false } else p).From p := by
  split
  · exact p.from_deactivated
  · exact p.from_refl

theorem SetPolicy.from_refl (p : SetPolicy) : p.From p :=
  ⟨p.isActive, p.revisionManifest, rfl, id, fun _ _ => id⟩

theorem SetPolicy.from_deactivated (p : SetPolicy) : SetPolicy.From { p with isActive := false } p :=
  ⟨false, p.revisionManifest, rfl, by simp, fun _ _ => id⟩

theorem SetPolicy.from_ite (c : Prop) [Decidable c] (p : SetPolicy) :
    (if c then { p with isActive := false } else p).From p := by
  split
  · exact p.from_deactivated
  · exact p.from_refl

/-- The policies of a state that was reached. -/
structure PinsHold (h : List (Event × State)) (s : State) : Prop where
  map : ∀ b p, s.mapPolicy b = some p → p.regular → ∃ setId,
    s.HasChart b setId p.rankedChecksum ∧
    Since (GivesStatus .beatmap setId b p.status) (State.HasChart b setId p.rankedChecksum) h
  set : ∀ setId p b checksum, s.setPolicy setId = some p → p.regular →
    p.revisionManifest b = some checksum → s.HasChart b setId checksum ∧
    Since (GivesStatus .beatmapset setId b p.status) (State.HasChart b setId checksum) h
  mapForced : ∀ b p, s.mapPolicy b = some p → p.forceUnranked = true →
    p.leaderboardEnabled = false ∧ p.ppEnabled = false
  setForced : ∀ setId p, s.setPolicy setId = some p → p.forceUnranked = true →
    p.leaderboardEnabled = false ∧ p.ppEnabled = false

/-- The override of the difficulty after an event comes from the one before, on the
same chart, or the event has given it. -/
def MapExplained (s : State) (e : Event) (t : State) (b : BeatmapId) (p : MapPolicy) : Prop :=
  (∃ p', s.mapPolicy b = some p' ∧ p.From p' ∧ (p.regular → ∀ setId,
    s.HasChart b setId p.rankedChecksum → t.HasChart b setId p.rankedChecksum)) ∨
  (p.regular → ∃ setId, t.HasChart b setId p.rankedChecksum ∧
      GivesStatus .beatmap setId b p.status e) ∧
    (p.forceUnranked = true → p.leaderboardEnabled = false ∧ p.ppEnabled = false)

/-- The same of the default of a set. -/
def SetExplained (s : State) (e : Event) (t : State) (setId : SetId) (p : SetPolicy) : Prop :=
  (∃ p', s.setPolicy setId = some p' ∧ p.From p' ∧ (p.regular → ∀ b checksum,
    p.revisionManifest b = some checksum → s.HasChart b setId checksum →
      t.HasChart b setId checksum)) ∨
  (p.regular → ∀ b checksum, p.revisionManifest b = some checksum → t.HasChart b setId checksum ∧
      GivesStatus .beatmapset setId b p.status e) ∧
    (p.forceUnranked = true → p.leaderboardEnabled = false ∧ p.ppEnabled = false)

section Step

variable {h : List (Event × State)} {s t : State} {e : Event}

/-- A step that explains its policies keeps the pins. -/
theorem PinsHold.step (hinv : PinsHold h s)
    (hmap : ∀ b p, t.mapPolicy b = some p → MapExplained s e t b p)
    (hset : ∀ setId p, t.setPolicy setId = some p → SetExplained s e t setId p) :
    PinsHold ((e, t) :: h) t where
  map := by
    intro b p hp hregular
    rcases hmap b p hp with ⟨p', hp', ⟨active, rfl, hactive⟩, hchart⟩ | ⟨hgiven, -⟩
    · obtain ⟨setId, hold, hsince⟩ := hinv.map b p' hp' ⟨hactive hregular.1, hregular.2⟩
      have hnew := hchart hregular setId hold
      exact ⟨setId, hnew, hsince.still hnew⟩
    · obtain ⟨setId, hnew, hgives⟩ := hgiven hregular
      exact ⟨setId, hnew, .happened hgives hnew h⟩
  set := by
    intro setId p b checksum hp hregular hpin
    rcases hset setId p hp with ⟨p', hp', ⟨active, manifest, rfl, hactive, hpins⟩, hchart⟩ |
      ⟨hgiven, -⟩
    · obtain ⟨hold, hsince⟩ := hinv.set setId p' b checksum hp' ⟨hactive hregular.1, hregular.2⟩
        (hpins b checksum hpin)
      have hnew := hchart hregular b checksum hpin hold
      exact ⟨hnew, hsince.still hnew⟩
    · obtain ⟨hnew, hgives⟩ := hgiven hregular b checksum hpin
      exact ⟨hnew, .happened hgives hnew h⟩
  mapForced := by
    intro b p hp hforced
    rcases hmap b p hp with ⟨p', hp', ⟨active, rfl, -⟩, -⟩ | ⟨-, hoff⟩
    · exact hinv.mapForced b p' hp' hforced
    · exact hoff hforced
  setForced := by
    intro setId p hp hforced
    rcases hset setId p hp with ⟨p', hp', ⟨active, manifest, rfl, -⟩, -⟩ | ⟨-, hoff⟩
    · exact hinv.setForced setId p' hp' hforced
    · exact hoff hforced

/-- Policies that are the same on charts that stay. -/
theorem mapExplained_same (hsame : t.mapPolicy = s.mapPolicy)
    (hcharts : ∀ b setId checksum, s.HasChart b setId checksum → t.HasChart b setId checksum)
    (b : BeatmapId) (p : MapPolicy) (hp : t.mapPolicy b = some p) : MapExplained s e t b p :=
  .inl ⟨p, hsame ▸ hp, p.from_refl, fun _ setId => hcharts b setId _⟩

theorem setExplained_same (hsame : t.setPolicy = s.setPolicy)
    (hcharts : ∀ b setId checksum, s.HasChart b setId checksum → t.HasChart b setId checksum)
    (setId : SetId) (p : SetPolicy) (hp : t.setPolicy setId = some p) :
    SetExplained s e t setId p :=
  .inl ⟨p, hsame ▸ hp, p.from_refl, fun _ b checksum _ => hcharts b setId checksum⟩

/-! ## Charts -/

theorem hasChart_congr (hmaps : t.beatmaps = s.beatmaps) (b : BeatmapId) (setId : SetId)
    (checksum : Checksum) (hchart : s.HasChart b setId checksum) : t.HasChart b setId checksum := by
  unfold State.HasChart
  rw [hmaps]
  exact hchart

/-- A difficulty that is put in has to have the chart that its policies pin. -/
theorem hasChart_put {b : BeatmapId} {bm : Beatmap} (hmaps : t.beatmaps = s.beatmaps.put b bm)
    {b' : BeatmapId} {setId : SetId} {checksum : Checksum} (hchart : s.HasChart b' setId checksum)
    (hput : b' = b → bm.setId = setId ∧ bm.checksum = checksum ∧ bm.deleted = false) :
    t.HasChart b' setId checksum := by
  by_cases hb : b' = b
  · subst hb
    exact ⟨bm, by simp [hmaps, Catalog.row_put], hput rfl⟩
  · obtain ⟨bm', hbm', hrest⟩ := hchart
    exact ⟨bm', by simp [hmaps, Catalog.row_put, hb, hbm'], hrest⟩

/-! ## What happens to the policies -/

theorem mapPolicy_clearOverrides {setId : SetId} {selected : BeatmapId → Bool} {b : BeatmapId}
    {p : MapPolicy} (hp : (clearOverrides setId selected s).mapPolicy b = some p) :
    ∃ p', s.mapPolicy b = some p' ∧ p.From p' := by
  obtain ⟨p', hp', rfl⟩ := Option.map_eq_some_iff.mp hp
  exact ⟨p', hp', p'.from_ite _⟩

/-- A row that is rewritten to one that comes from it. -/
theorem mapPolicy_update {f : MapPolicy → MapPolicy} (hf : ∀ p, (f p).From p) {b b' : BeatmapId}
    {p : MapPolicy}
    (hp : Function.update s.mapPolicy b ((s.mapPolicy b).map f) b' = some p) :
    ∃ p', s.mapPolicy b' = some p' ∧ p.From p' ∧ (b' = b → p = f p') := by
  by_cases hb : b' = b
  · subst hb
    rw [Function.update_self] at hp
    obtain ⟨p', hp', rfl⟩ := Option.map_eq_some_iff.mp hp
    exact ⟨p', hp', hf p', fun _ => rfl⟩
  · rw [Function.update_of_ne hb] at hp
    exact ⟨p, hp, p.from_refl, fun h => absurd h hb⟩

theorem setPolicy_update {f : SetPolicy → SetPolicy} (hf : ∀ p, (f p).From p) {setId setId' : SetId}
    {p : SetPolicy}
    (hp : Function.update s.setPolicy setId ((s.setPolicy setId).map f) setId' = some p) :
    ∃ p', s.setPolicy setId' = some p' ∧ p.From p' := by
  by_cases hset : setId' = setId
  · subst hset
    rw [Function.update_self] at hp
    obtain ⟨p', hp', rfl⟩ := Option.map_eq_some_iff.mp hp
    exact ⟨p', hp', hf p'⟩
  · rw [Function.update_of_ne hset] at hp
    exact ⟨p, hp, p.from_refl⟩

theorem invalidateOverride_spec {b : BeatmapId} {new : Option Checksum} {b' : BeatmapId}
    {p : MapPolicy} (hp : (invalidateOverride b new s).mapPolicy b' = some p) :
    ∃ p', s.mapPolicy b' = some p' ∧ p.From p' ∧
      (b' = b → p.regular → some p.rankedChecksum = new) := by
  obtain ⟨p', hp', hfrom, hb⟩ := mapPolicy_update (fun p => p.from_ite _) hp
  refine ⟨p', hp', hfrom, fun heq hregular => ?_⟩
  have hp := hb heq
  split at hp
  · rw [hp] at hregular
    simp [MapPolicy.regular] at hregular
  · next hkept =>
    subst hp
    simpa [hregular.1, hregular.2.1, hregular.2.2] using hkept

theorem unpinDifficulty_spec (s : State) (b : BeatmapId) (setId : SetId)
    (new : Option Checksum) :
    let t := unpinDifficulty b setId new s
    t.sets = s.sets ∧ t.beatmaps = s.beatmaps ∧ t.mapPolicy = s.mapPolicy ∧
    ∀ setId' p, t.setPolicy setId' = some p → ∃ p', s.setPolicy setId' = some p' ∧ p.From p' ∧
      (setId' = setId → p.regular → ∀ checksum, p.revisionManifest b = some checksum →
        some checksum = new) := by
  unfold unpinDifficulty
  cases hold : s.setPolicy setId with
  | none =>
    refine ⟨rfl, rfl, rfl, fun setId' p hp => ⟨p, hp, p.from_refl, ?_⟩⟩
    rintro rfl
    simp [hold] at hp
  | some p₀ =>
    dsimp only
    split
    · refine ⟨rfl, rfl, rfl, fun setId' p hp => ?_⟩
      have hp : Function.update s.setPolicy setId _ setId' = some p := hp
      by_cases hset : setId' = setId
      · subst hset
        rw [Function.update_self] at hp
        obtain rfl := Option.some.inj hp
        refine ⟨p₀, hold, ⟨p₀.isActive, _, rfl, id, fun b' checksum hpin => ?_⟩, fun _ _ _ hpin => ?_⟩
        · by_cases hb : b' = b
          · simp [hb] at hpin
          · simpa [hb] using hpin
        · simp at hpin
      · rw [Function.update_of_ne hset] at hp
        exact ⟨p, hp, p.from_refl, fun h => absurd h hset⟩
    · next hkept =>
      refine ⟨rfl, rfl, rfl, fun setId' p hp => ⟨p, hp, p.from_refl, ?_⟩⟩
      rintro rfl hregular checksum hpin
      obtain rfl := Option.some.inj (hold.symm.trans hp)
      have hnew : p₀.revisionManifest b = new := by
        simpa [hregular.1, hregular.2] using hkept
      rw [← hnew, hpin]

/-- **An upstream revision** leaves the policies to which it may apply without the
chart that is gone. -/
theorem invalidateForUpstreamChange_spec (s : State) (setId : SetId) (b : BeatmapId)
    (old new : Option Checksum) (oldUpdated newUpdated : Option Time) :
    let t := invalidateForUpstreamChange setId b old new oldUpdated newUpdated s
    t.sets = s.sets ∧ t.beatmaps = s.beatmaps ∧
    (∀ b' p, t.mapPolicy b' = some p → ∃ p', s.mapPolicy b' = some p' ∧ p.From p') ∧
    (∀ setId' p, t.setPolicy setId' = some p → ∃ p', s.setPolicy setId' = some p' ∧ p.From p') ∧
    (old ≠ new → s.sets setId = true → ∀ bm, s.beatmaps.row b = some bm → bm.setId = setId →
      (∀ p, t.mapPolicy b = some p → p.regular → some p.rankedChecksum = new) ∧
      ∀ p checksum, t.setPolicy setId = some p → p.regular →
        p.revisionManifest b = some checksum → some checksum = new) := by
  have hsame : s.sets = s.sets ∧ s.beatmaps = s.beatmaps ∧
      (∀ b' p, s.mapPolicy b' = some p → ∃ p', s.mapPolicy b' = some p' ∧ p.From p') ∧
      ∀ setId' p, s.setPolicy setId' = some p → ∃ p', s.setPolicy setId' = some p' ∧ p.From p' :=
    ⟨rfl, rfl, fun _ p hp => ⟨p, hp, p.from_refl⟩, fun _ p hp => ⟨p, hp, p.from_refl⟩⟩
  obtain ⟨h₁, h₂, h₃, h₄⟩ := hsame
  unfold invalidateForUpstreamChange
  split
  · next hno => exact ⟨h₁, h₂, h₃, h₄, fun hchange => absurd hno.1 hchange⟩
  · split
    · next hset =>
      refine ⟨h₁, h₂, h₃, h₄, fun _ hset' => ?_⟩
      simp [hset] at hset'
    · split
      · next bm hbm =>
        split
        · next hother =>
          refine ⟨h₁, h₂, h₃, h₄, fun _ _ bm' hbm' hset => ?_⟩
          obtain rfl := Option.some.inj (hbm.symm.trans hbm')
          exact absurd hset hother
        · next hset =>
          have hset : bm.setId = setId := not_not.mp hset
          obtain ⟨hsets, hmaps, hmapPolicy, hunpin⟩ := unpinDifficulty_spec
            (invalidateOverride b new s) b bm.setId new
          refine ⟨hsets, hmaps, fun b' p hp => ?_, fun setId' p hp => ?_, fun _ _ _ _ _ =>
            ⟨fun p hp hregular => ?_, fun p checksum hp hregular hpin => ?_⟩⟩
          · rw [hmapPolicy] at hp
            obtain ⟨p', hp', hfrom, -⟩ := invalidateOverride_spec hp
            exact ⟨p', hp', hfrom⟩
          · obtain ⟨p', hp', hfrom, -⟩ := hunpin setId' p hp
            exact ⟨p', hp', hfrom⟩
          · rw [hmapPolicy] at hp
            obtain ⟨p', -, -, hpins⟩ := invalidateOverride_spec hp
            exact hpins rfl hregular
          · obtain ⟨p', -, -, hpins⟩ := hunpin setId p hp
            exact hpins hset.symm hregular checksum hpin
      · next hnone =>
        refine ⟨h₁, h₂, h₃, h₄, fun _ _ bm hbm => ?_⟩
        simp [hnone] at hbm

/-! ## Every step keeps the pins -/

theorem PinsHold.manual {srv : Server} {affected : List BeatmapId} {change : State → State}
    (hinv : PinsHold h s) (hmanual : Manual s e affected change) :
    PinsHold ((e, changePolicy srv affected change s) :: h) (changePolicy srv affected change s) := by
  have hcharts : ∀ {t : State}, t.beatmaps = s.beatmaps → ∀ b setId checksum,
      s.HasChart b setId checksum → t.HasChart b setId checksum := fun hmaps => hasChart_congr hmaps
  cases hmanual with
  | @override _ setId b bm status forceUnranked blocksSetPolicy hbm hset halive hforced hrank =>
    refine hinv.step (fun b' p hp => ?_) (setExplained_same rfl (hcharts rfl))
    have hp : Function.update s.mapPolicy b _ b' = some p := hp
    by_cases hb : b' = b
    · subst hb
      rw [Function.update_self] at hp
      obtain rfl := Option.some.inj hp
      refine .inr ⟨fun hregular => ⟨setId, ⟨bm, hbm, hset, rfl, halive⟩, ?_⟩, hforced⟩
      obtain ⟨leaderboard, pp, replace, rfl⟩ := hrank hregular.2.1 hregular.2.2
      exact ⟨rfl, rfl, rfl, rfl⟩
    · rw [Function.update_of_ne hb] at hp
      exact .inl ⟨p, hp, p.from_refl, fun _ setId => hcharts rfl b' setId _⟩
  | @setDefault _ setId status forceUnranked replace hforced hrank =>
    have hmaps : (changePolicy srv (s.activeMaps setId)
        (applySetPolicy setId status forceUnranked replace) s).beatmaps = s.beatmaps := by
      cases replace <;> rfl
    refine hinv.step (fun b p hp => ?_) (fun setId' p hp => ?_)
    · have hold : ∃ p', s.mapPolicy b = some p' ∧ p.From p' := by
        cases replace with
        | false => exact ⟨p, hp, p.from_refl⟩
        | true =>
          have hp : (clearOverrides setId (fun _ => true) s).mapPolicy b = some p := hp
          exact mapPolicy_clearOverrides hp
      obtain ⟨p', hp', hfrom⟩ := hold
      exact .inl ⟨p', hp', hfrom, fun _ setId => hcharts hmaps b setId _⟩
    · have hp : Function.update s.setPolicy setId (some
          { status, leaderboardEnabled := status.hasLeaderboard, ppEnabled := status.hasPp,
            forceUnranked
            revisionManifest := fun b => (s.beatmaps.row b).bind fun bm =>
              if bm.setId = setId ∧ bm.deleted = false then some bm.checksum else none })
          setId' = some p := by
        cases replace <;> exact hp
      by_cases hset : setId' = setId
      · subst hset
        rw [Function.update_self] at hp
        obtain rfl := Option.some.inj hp
        refine .inr ⟨fun hregular b checksum hpin => ⟨?_, ?_⟩, hforced⟩
        · obtain ⟨bm, hbm, hpin⟩ := Option.bind_eq_some_iff.mp hpin
          split at hpin
          · next halive =>
            obtain rfl := Option.some.inj hpin
            exact hcharts hmaps b _ _ ⟨bm, hbm, halive.1, rfl, halive.2⟩
          · simp at hpin
        · obtain ⟨leaderboard, pp, rfl⟩ := hrank hregular.2
          exact ⟨rfl, rfl, rfl, rfl⟩
      · rw [Function.update_of_ne hset] at hp
        exact .inl ⟨p, hp, p.from_refl, fun _ b checksum _ => hcharts hmaps b setId' checksum⟩
  | unrankSet _ =>
    refine hinv.step (fun b p hp => ?_) (fun setId p hp => ?_)
    · obtain ⟨p', hp', hfrom⟩ := mapPolicy_clearOverrides hp
      exact .inl ⟨p', hp', hfrom, fun _ setId => hcharts rfl b setId _⟩
    · obtain ⟨p', hp', hfrom⟩ := setPolicy_update (fun p => p.from_ite _) hp
      exact .inl ⟨p', hp', hfrom, fun _ b checksum _ => hcharts rfl b setId checksum⟩
  | clearSet =>
    refine hinv.step (mapExplained_same rfl (hcharts rfl)) (fun setId p hp => ?_)
    obtain ⟨p', hp', hfrom⟩ := setPolicy_update SetPolicy.from_deactivated hp
    exact .inl ⟨p', hp', hfrom, fun _ b checksum _ => hcharts rfl b setId checksum⟩
  | clearMap _ _ _ =>
    refine hinv.step (fun b p hp => ?_) (setExplained_same rfl (hcharts rfl))
    obtain ⟨p', hp', hfrom, -⟩ := mapPolicy_update MapPolicy.from_deactivated hp
    exact .inl ⟨p', hp', hfrom, fun _ setId => hcharts rfl b setId _⟩

theorem PinsHold.synced {srv : Server} {setId : SetId} {b : BeatmapId} {u : Option Upstream}
    (hinv : PinsHold h s) (hsync : Synced srv s setId b u t) : PinsHold ((e, t) :: h) t := by
  -- whatever is put in for the difficulty has the chart that its policies pin
  have hput : ∀ {v : State} (bm : Beatmap), t.beatmaps = s.beatmaps.put b bm →
      t.mapPolicy = v.mapPolicy → t.setPolicy = v.setPolicy →
      (∀ b' p, v.mapPolicy b' = some p → ∃ p', s.mapPolicy b' = some p' ∧ p.From p') →
      (∀ setId' p, v.setPolicy setId' = some p → ∃ p', s.setPolicy setId' = some p' ∧ p.From p') →
      (∀ setId' checksum, s.HasChart b setId' checksum →
        (∃ p, v.mapPolicy b = some p ∧ p.regular ∧ p.rankedChecksum = checksum) ∨
        (∃ p, v.setPolicy setId' = some p ∧ p.regular ∧ p.revisionManifest b = some checksum) →
          bm.setId = setId' ∧ bm.checksum = checksum ∧ bm.deleted = false) →
      PinsHold ((e, t) :: h) t := by
    intro v bm hmaps hmapPolicy hsetPolicy hmapFrom hsetFrom hchart
    refine hinv.step (fun b' p hp => ?_) (fun setId' p hp => ?_)
    · rw [hmapPolicy] at hp
      obtain ⟨p', hp', hfrom⟩ := hmapFrom b' p hp
      refine .inl ⟨p', hp', hfrom, fun hregular setId' hold => hasChart_put hmaps hold ?_⟩
      rintro rfl
      exact hchart setId' _ hold (.inl ⟨p, hp, hregular, rfl⟩)
    · rw [hsetPolicy] at hp
      obtain ⟨p', hp', hfrom⟩ := hsetFrom setId' p hp
      refine .inl ⟨p', hp', hfrom, fun hregular b' checksum hpin hold => hasChart_put hmaps hold ?_⟩
      rintro rfl
      exact hchart setId' checksum hold (.inr ⟨p, hp, hregular, hpin⟩)
  have hmapSame : ∀ b' p, s.mapPolicy b' = some p → ∃ p', s.mapPolicy b' = some p' ∧ p.From p' :=
    fun _ p hp => ⟨p, hp, p.from_refl⟩
  have hsetSame : ∀ setId' p, s.setPolicy setId' = some p →
      ∃ p', s.setPolicy setId' = some p' ∧ p.From p' := fun _ p hp => ⟨p, hp, p.from_refl⟩
  cases hsync with
  | idle =>
    exact hinv.step (mapExplained_same rfl fun _ _ _ h => h) (setExplained_same rfl fun _ _ _ h => h)
  | @added u hset hu hnew =>
    obtain ⟨-, hmaps, hmapFrom, hsetFrom, -⟩ := invalidateForUpstreamChange_spec
      (s.putBeatmap b u.row) setId b none (some u.checksum) none u.lastUpdated
    refine hput u.row hmaps rfl rfl hmapFrom hsetFrom ?_
    rintro setId' checksum ⟨bm, hbm, -⟩
    simp [hnew] at hbm
  | @readded u bm hset hu hbm hbmSet hgone =>
    obtain ⟨-, hmaps, hmapFrom, hsetFrom, -⟩ := invalidateForUpstreamChange_spec
      (s.putBeatmap b u.row) setId b (some bm.checksum) (some u.checksum) bm.lastUpdated
      u.lastUpdated
    refine hput u.row hmaps rfl rfl hmapFrom hsetFrom ?_
    rintro setId' checksum ⟨bm', hbm', -, -, halive⟩
    obtain rfl := Option.some.inj (hbm.symm.trans hbm')
    simp [hgone] at halive
  | @deleted bm hset hbm hbmSet halive =>
    obtain ⟨-, hmaps, hmapFrom, hsetFrom, hpins⟩ := invalidateForUpstreamChange_spec
      s setId b (some bm.checksum) none bm.lastUpdated none
    obtain ⟨hmapPins, hsetPins⟩ := hpins (by simp) hset bm hbm hbmSet
    refine hput { bm with deleted := true } ?_ rfl rfl hmapFrom hsetFrom ?_
    · show (State.withdraw s setId b bm).beatmaps.put b _ = _
      rw [State.withdraw, hmaps]
    · rintro setId' checksum ⟨bm', hbm', hset', -⟩ (⟨p, hp, hregular, -⟩ | ⟨p, hp, hregular, hpin⟩)
      · exact absurd (hmapPins p hp hregular) (by simp)
      · obtain rfl := Option.some.inj (hbm.symm.trans hbm')
        rw [← hset', hbmSet] at hp
        exact absurd (hsetPins p checksum hp hregular hpin) (by simp)
  | @updated u bm hset hu hbm hbmSet halive hrevised =>
    obtain ⟨-, hmaps, hmapFrom, hsetFrom, hpins⟩ := invalidateForUpstreamChange_spec
      s setId b (some bm.checksum) (some u.checksum) bm.lastUpdated u.lastUpdated
    obtain ⟨hmapPins, hsetPins⟩ := hpins (by simpa using hrevised) hset bm hbm hbmSet
    refine hput u.row ?_ rfl rfl hmapFrom hsetFrom ?_
    · show (State.revise s setId b bm u).beatmaps.put b _ = _
      rw [State.revise, hmaps]
    · rintro setId' checksum ⟨bm', hbm', hset', -⟩ hpolicy
      obtain rfl := Option.some.inj (hbm.symm.trans hbm')
      obtain rfl : setId' = setId := hset'.symm.trans hbmSet
      refine ⟨hu, ?_, rfl⟩
      rcases hpolicy with ⟨p, hp, hregular, rfl⟩ | ⟨p, hp, hregular, hpin⟩
      · exact (Option.some.inj (hmapPins p hp hregular)).symm
      · exact (Option.some.inj (hsetPins p checksum hp hregular hpin)).symm
  | @statusChanged u bm hset hu hbm hbmSet halive hsame =>
    refine hput u.row rfl rfl rfl hmapSame hsetSame ?_
    rintro setId' checksum ⟨bm', hbm', hset', rfl, -⟩ -
    obtain rfl := Option.some.inj (hbm.symm.trans hbm')
    exact ⟨hu.trans (hbmSet.symm.trans hset'), hsame.symm, rfl⟩
  | @unchanged u bm hset hu hbm hbmSet halive hsame =>
    refine hput u.row rfl rfl rfl hmapSame hsetSame ?_
    rintro setId' checksum ⟨bm', hbm', hset', rfl, -⟩ -
    obtain rfl := Option.some.inj (hbm.symm.trans hbm')
    exact ⟨hu.trans (hbmSet.symm.trans hset'), hsame.symm, rfl⟩

theorem PolicyStep.pinsHold {srv : Deployment} (hstep : PolicyStep srv s e t)
    (hinv : PinsHold h s) : PinsHold ((e, t) :: h) t := by
  cases hstep with
  | play _ hsame =>
    have hmaps : t.beatmaps = s.beatmaps := congrArg (·.2.1) hsame
    have hmap : t.mapPolicy = s.mapPolicy := congrArg (·.2.2.1) hsame
    have hset : t.setPolicy = s.setPolicy := congrArg (·.2.2.2.1) hsame
    exact hinv.step (mapExplained_same hmap (hasChart_congr hmaps))
      (setExplained_same hset (hasChart_congr hmaps))
  | @fetched b u hnew =>
    have hcharts : ∀ b' setId checksum, s.HasChart b' setId checksum →
        State.HasChart b' setId checksum
          (State.putBeatmap { s with sets := Function.update s.sets u.setId true } b u.row) := by
      rintro b' setId checksum ⟨bm, hbm, hrest⟩
      refine hasChart_put (s := s) rfl ⟨bm, hbm, hrest⟩ ?_
      rintro rfl
      simp [hnew] at hbm
    exact hinv.step (mapExplained_same rfl hcharts) (setExplained_same rfl hcharts)
  | manual hmanual => exact hinv.manual hmanual
  | resolved =>
    exact hinv.step (mapExplained_same rfl (hasChart_congr rfl))
      (setExplained_same rfl (hasChart_congr rfl))
  | synced hsync => exact hinv.synced hsync

end Step

/-! ## Local ranks -/

/-- **Local ranks do not survive a revision.**  A policy of staff that grants a
leaderboard or PP pins the current chart, and since staff gave its status the
difficulty has had no other chart. -/
theorem local_rank_pinned {srv : Deployment} {h : List (Event × State)} {s : State}
    (hrun : Runs srv (fun _ _ => True) h s) {b : BeatmapId} {bm : Beatmap}
    (hbm : s.beatmaps.row b = some bm) {p : EffectivePolicy} (hp : s.effectivePolicy b bm = p)
    (hlocal : p.source ≠ .upstream) (hgrants : p.leaderboardEnabled = true ∨ p.ppEnabled = true) :
    s.pinned p.source bm.setId b = some bm.checksum ∧
      Since (GivesStatus p.source bm.setId b p.status)
        (State.HasChart b bm.setId bm.checksum) h := by
  have hpins : PinsHold h s :=
    hrun.invariant (fun _ _ _ _ hinv _ hstep => hstep.policies.pinsHold hinv)
      ⟨by simp [State.empty], by simp [State.empty], by simp [State.empty], by simp [State.empty]⟩
  subst hp
  unfold State.effectivePolicy at hlocal hgrants ⊢
  split at hlocal
  · exact absurd rfl hlocal
  next halive =>
  rw [if_neg halive] at hgrants ⊢
  cases hmap : (s.mapPolicy b).filter (·.applies bm.checksum) with
  | some q =>
    obtain ⟨hq, happlies⟩ := Option.filter_eq_some_iff.mp hmap
    simp only [hmap] at hlocal hgrants ⊢
    cases hforced : q.forceUnranked with
    | true =>
      obtain ⟨hleaderboard, hpp⟩ := hpins.mapForced b q hq hforced
      simp [hforced, hleaderboard, hpp] at hgrants
    | false =>
      cases hblocks : q.blocksSetPolicy with
      | true => simp [hforced, hblocks, statusPolicy] at hlocal
      | false =>
        simp only [MapPolicy.applies, hforced, hblocks, Bool.or_self, Bool.false_or,
          Bool.and_eq_true, beq_iff_eq] at happlies
        obtain ⟨setId, ⟨bm', hbm', rfl, hchart⟩, hsince⟩ :=
          hpins.map b q hq ⟨happlies.1, hforced, hblocks⟩
        obtain rfl := Option.some.inj (hbm.symm.trans hbm')
        rw [happlies.2] at hsince
        simp only [Bool.false_eq_true, if_false]
        exact ⟨by simp [State.pinned, hq, happlies.2], hsince⟩
  | none =>
    simp only [hmap] at hlocal hgrants ⊢
    cases hset : (s.setPolicy bm.setId).filter
        (·.applies b bm.checksum (s.pendingReview b bm.setId)) with
    | none => simp [hset, statusPolicy] at hlocal
    | some q =>
      obtain ⟨hq, happlies⟩ := Option.filter_eq_some_iff.mp hset
      simp only [hset] at hgrants ⊢
      cases hforced : q.forceUnranked with
      | true =>
        obtain ⟨hleaderboard, hpp⟩ := hpins.setForced bm.setId q hq hforced
        simp [hleaderboard, hpp] at hgrants
      | false =>
        cases hactive : q.isActive with
        | false => simp [SetPolicy.applies, hactive] at happlies
        | true =>
          simp only [SetPolicy.applies, hactive, hforced, Bool.not_true, Bool.false_eq_true,
            if_false, Bool.and_eq_true, beq_iff_eq] at happlies
          obtain ⟨-, hsince⟩ := hpins.set bm.setId q b bm.checksum hq ⟨hactive, hforced⟩ happlies.1
          exact ⟨by simp [State.pinned, hq, happlies.1], hsince⟩

/-- The first chart of a difficulty of the set 1. -/
def firstChart : Upstream := { setId := 1, checksum := 4, status := .pending }

/-- The difficulty is ranked, revised, revised back to its first chart, and ranked again. -/
def rankedAgain : State :=
  let s := State.empty.after plainServer (.fetch 1 firstChart)
  let s := s.after plainServer (.applyRank 1 (some 1) .ranked none none false false)
  let s := s.after plainServer (.sync 1 1 (some { firstChart with checksum := 5 }))
  let s := s.after plainServer (.sync 1 1 (some firstChart))
  s.after plainServer (.applyRank 1 (some 1) .ranked none none false false)

theorem local_rank_pinned_again : ∃ h : List (Event × State), h.length = 5 ∧
    rankedAgain.pinned .beatmap 1 1 = some 4 ∧
    Since (GivesStatus .beatmap 1 1 .ranked) (State.HasChart 1 1 4) h := by
  have hrun : Runs plainServer (fun _ _ => True) _ rankedAgain :=
    ((((Runs.start (.fetch 1 firstChart) trivial (by decide +kernel)).after
      (.applyRank 1 (some 1) .ranked none none false false) trivial (by decide +kernel)).after
      (.sync 1 1 (some { firstChart with checksum := 5 })) trivial (by decide +kernel)).after
      (.sync 1 1 (some firstChart)) trivial (by decide +kernel)).after
      (.applyRank 1 (some 1) .ranked none none false false) trivial (by decide +kernel)
  have hbm : rankedAgain.beatmaps.row 1 = some firstChart.row := by decide +kernel
  have hpolicy : rankedAgain.effectivePolicy 1 firstChart.row = ⟨.ranked, true, true, .beatmap⟩ :=
    by decide +kernel
  exact ⟨_, rfl, local_rank_pinned hrun hbm hpolicy (by simp) (by simp)⟩

end Soms.Scores

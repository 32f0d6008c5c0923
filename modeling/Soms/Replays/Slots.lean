import Mathlib.Tactic.IntervalCases
import Soms.Replays.Upload

/-!
# The best score of a slot keeps its replay

What an upload does to the rows and the files, and by induction over the uploads
which scores have a replay.
-/

namespace Soms.Replays

open Txn Server

/-! ## Slots -/

/-- Two scores compete for one replay. -/
structure SameSlot (apiMods : ApiMods) (a b : Score) : Prop where
  left : replayRetentionEligible a
  right : replayRetentionEligible b
  user : a.userId = b.userId
  beatmap : a.beatmapId = b.beatmapId
  mode : a.gamemode = b.gamemode
  mods : replayModCombinationKey apiMods a.gamemode a.mods =
    replayModCombinationKey apiMods b.gamemode b.mods

theorem SameSlot.symm {apiMods : ApiMods} {a b : Score} (h : SameSlot apiMods a b) :
    SameSlot apiMods b a :=
  ⟨h.right, h.left, h.user.symm, h.beatmap.symm, h.mode.symm, h.mods.symm⟩

theorem SameSlot.trans {apiMods : ApiMods} {a b c : Score} (h : SameSlot apiMods a b)
    (h' : SameSlot apiMods b c) : SameSlot apiMods a c :=
  ⟨h.left, h'.right, h.user.trans h'.user, h.beatmap.trans h'.beatmap, h.mode.trans h'.mode,
    h.mods.trans h'.mods⟩

/-- What never changes of a score. -/
def Score.bare (score : Score) : Score := { score with hasReplay := false }

theorem Score.replayFilename_bare (score : Score) (k : ScoreId) :
    score.bare.replayFilename k = score.replayFilename k := rfl

namespace Server

variable (apiMods : ApiMods) (s : Server)

/-- The score, whether or not it has a replay. -/
def score (k : ScoreId) : Option Score := (s.scores.row k).map Score.bare

def Available (k : ScoreId) : Prop := ∃ a, s.scores.row k = some a ∧ a.hasReplay

/-- The file of the score exists. -/
def Filed (k : ScoreId) : Prop :=
  ∃ a, s.score k = some a ∧ (s.files (a.replayFilename k)).isSome

def Rivals (j k : ScoreId) : Prop :=
  ∃ a b, s.score j = some a ∧ s.score k = some b ∧ SameSlot apiMods a b

/-- The eligible score of its slot with the largest total and then the smallest id. -/
def Best (k : ScoreId) : Prop :=
  ∃ a, s.score k = some a ∧ replayRetentionEligible a ∧
    ∀ j b, s.score j = some b → SameSlot apiMods a b →
      b.totalScore < a.totalScore ∨ b.totalScore = a.totalScore ∧ k ≤ j

end Server

variable {apiMods : ApiMods} {s t : Server} {k : ScoreId} {a : Score}

theorem Server.Rivals.symm {j k : ScoreId} (h : s.Rivals apiMods j k) : s.Rivals apiMods k j := by
  obtain ⟨a, b, ha, hb, hslot⟩ := h
  exact ⟨b, a, hb, ha, hslot.symm⟩

theorem Server.Rivals.congr (h : t.score = s.score) {j k : ScoreId} :
    t.Rivals apiMods j k ↔ s.Rivals apiMods j k := by
  simp only [Rivals, h]

theorem Server.Best.congr (h : t.score = s.score) : t.Best apiMods k ↔ s.Best apiMods k := by
  simp only [Best, h]

theorem Server.Best.self (h : s.Best apiMods k) : s.Rivals apiMods k k := by
  obtain ⟨a, ha, helig, -⟩ := h
  exact ⟨a, a, ha, ha, helig, helig, rfl, rfl, rfl, rfl⟩

/-- A slot has one best score. -/
theorem Server.Best.unique {j k : ScoreId} (hj : s.Best apiMods j) (hk : s.Best apiMods k)
    (h : s.Rivals apiMods j k) : j = k := by
  obtain ⟨a, ha, -, hja⟩ := hj
  obtain ⟨b, hb, -, hkb⟩ := hk
  obtain ⟨a', b', ha', hb', hslot⟩ := h
  obtain rfl : a' = a := Option.some.inj (ha'.symm.trans ha)
  obtain rfl : b' = b := Option.some.inj (hb'.symm.trans hb)
  rcases hja k b' hb hslot with hlt | ⟨heq, hle⟩
  · rcases hkb j a' ha hslot.symm with hlt' | ⟨heq', -⟩
    · exact absurd hlt hlt'.le.not_gt
    · exact absurd heq' hlt.ne'
  · rcases hkb j a' ha hslot.symm with hlt' | ⟨-, hle'⟩
    · exact absurd heq hlt'.ne'
    · exact Nat.le_antisymm hle hle'

/-! ## The winner of an upload -/

theorem score_eq_some {b : Score} : s.score k = some b ↔ ∃ a, s.scores.row k = some a ∧ a.bare = b := by
  simp [score]

theorem mem_candidates {uid : UserId} {bid : BeatmapId} {x : Candidate} :
    x ∈ s.lockReplayCandidates uid bid ↔
      s.scores.row x.1 = some x.2 ∧ x.2.userId = uid ∧ x.2.beatmapId = bid := by
  obtain ⟨i, a⟩ := x
  simp [lockReplayCandidates, Table.mem_toList]

theorem mem_combination {uid : UserId} {bid : BeatmapId} (huser : a.userId = uid)
    (hmap : a.beatmapId = bid) {x : Candidate} :
    x ∈ replayCombinationScores apiMods (s.lockReplayCandidates uid bid) (k, a) ↔
      s.scores.row x.1 = some x.2 ∧ SameSlot apiMods x.2 a := by
  unfold replayCombinationScores
  split
  · next helig =>
    rw [List.mem_filter, mem_candidates]
    simp only [Bool.and_eq_true, decide_eq_true_eq]
    constructor
    · rintro ⟨⟨hx, hxuser, hxmap⟩, ⟨hxelig, hmode⟩, hmods⟩
      exact ⟨hx, hxelig, helig, hxuser.trans huser.symm, hxmap.trans hmap.symm, hmode, hmods⟩
    · rintro ⟨hx, hslot⟩
      exact ⟨⟨hx, hslot.user.trans huser, hslot.beatmap.trans hmap⟩, ⟨hslot.left, hslot.mode⟩,
        hslot.mods⟩
  · next helig =>
    exact iff_of_false List.not_mem_nil fun ⟨_, hslot⟩ => helig hslot.right

theorem replayOrder_le {x y : Candidate} :
    replayOrder x ≤ replayOrder y ↔
      x.2.totalScore < y.2.totalScore ∨ x.2.totalScore = y.2.totalScore ∧ y.1 ≤ x.1 := by
  have hle : replayOrder x ≤ replayOrder y ↔
      x.2.totalScore < y.2.totalScore ∨
        x.2.totalScore = y.2.totalScore ∧ -(x.1 : Int) ≤ -(y.1 : Int) :=
    Prod.Lex.toLex_le_toLex
  rw [hle, Int.neg_le_neg_iff, Int.ofNat_le]

theorem SameSlot.refl (h : replayRetentionEligible a) : SameSlot apiMods a a :=
  ⟨h, h, rfl, rfl, rfl, rfl⟩

theorem SameSlot.bare {b : Score} (h : SameSlot apiMods a b) : SameSlot apiMods a.bare b.bare :=
  ⟨h.left, h.right, h.user, h.beatmap, h.mode, h.mods⟩

theorem SameSlot.of_bare {b : Score} (h : SameSlot apiMods a.bare b.bare) : SameSlot apiMods a b :=
  ⟨h.left, h.right, h.user, h.beatmap, h.mode, h.mods⟩

theorem best_iff (hrow : s.scores.row k = some a) :
    s.Best apiMods k ↔ replayRetentionEligible a ∧ ∀ j b, s.scores.row j = some b →
      SameSlot apiMods b a → replayOrder (j, b) ≤ replayOrder (k, a) := by
  simp only [replayOrder_le]
  constructor
  · rintro ⟨a', ha', helig, hbest⟩
    obtain ⟨a'', hrow'', rfl⟩ := score_eq_some.mp ha'
    obtain rfl : a'' = a := Option.some.inj (hrow''.symm.trans hrow)
    exact ⟨helig, fun j b hb hslot =>
      hbest j b.bare (score_eq_some.mpr ⟨b, hb, rfl⟩) hslot.symm.bare⟩
  · rintro ⟨helig, hbest⟩
    refine ⟨a.bare, score_eq_some.mpr ⟨a, hrow, rfl⟩, helig, fun j b hb hslot => ?_⟩
    obtain ⟨b', hb', rfl⟩ := score_eq_some.mp hb
    exact hbest j b' hb' hslot.of_bare.symm

/-- The upload stores if its score is the best of its slot. -/
theorem bestReplayScore_iff {uid : UserId} {bid : BeatmapId} (hrow : s.scores.row k = some a)
    (huser : a.userId = uid) (hmap : a.beatmapId = bid) :
    (bestReplayScore apiMods (s.lockReplayCandidates uid bid) (k, a)).map Prod.fst = some k ↔
      s.Best apiMods k := by
  have hmem : ∀ {x : Candidate}, x ∈ replayCombinationScores apiMods
      (s.lockReplayCandidates uid bid) (k, a) ↔ s.scores.row x.1 = some x.2 ∧
        SameSlot apiMods x.2 a := mem_combination huser hmap
  rw [best_iff hrow]
  constructor
  · intro hwinner
    obtain ⟨⟨i, b⟩, hmax, rfl⟩ := Option.map_eq_some_iff.mp hwinner
    obtain ⟨hb, hslot⟩ := hmem.mp (List.argmax_mem hmax)
    obtain rfl : b = a := Option.some.inj (hb.symm.trans hrow)
    exact ⟨hslot.left, fun j b' hb' hslot' => List.le_of_mem_argmax (hmem.mpr ⟨hb', hslot'⟩) hmax⟩
  · rintro ⟨helig, hbest⟩
    have hself := hmem (x := (k, a)) |>.mpr ⟨hrow, SameSlot.refl helig⟩
    cases hmax : bestReplayScore apiMods (s.lockReplayCandidates uid bid) (k, a) with
    | none => exact absurd (List.argmax_eq_none.mp hmax ▸ hself) List.not_mem_nil
    | some x =>
      obtain ⟨hx, hslot⟩ := hmem.mp (List.argmax_mem hmax)
      have hle := replayOrder_le.mp (List.le_of_mem_argmax hself hmax)
      rcases replayOrder_le.mp (hbest x.1 x.2 hx hslot) with hlt | ⟨heq, hk⟩
      · rcases hle with hlt' | ⟨heq', -⟩
        · exact absurd hlt hlt'.le.not_gt
        · exact absurd heq' hlt.ne'
      · rcases hle with hlt' | ⟨-, hx'⟩
        · exact absurd heq hlt'.ne'
        · exact congrArg some (Nat.le_antisymm hx' hk)

/-! ## Single updates -/

section Updates

variable {i j : ScoreId} {b : Bool}

@[simp] theorem score_setReplay : (s.setReplay k b).score = s.score := by
  funext i
  unfold score setReplay
  rw [Table.row_modify]
  split
  · rw [Option.map_map]
    rfl
  · rfl

theorem available_setReplay :
    (s.setReplay k b).Available i ↔
      if i = k then b = true ∧ (s.score k).isSome else s.Available i := by
  unfold Available score setReplay
  rw [Table.row_modify]
  split
  · next hi =>
    subst hi
    cases s.scores.row i <;> simp [and_comm]
  · rfl

theorem files_dropFile_self (path : Path) : (s.dropFile path).files path = none :=
  Function.update_self ..

theorem files_dropFile_ne {path path' : Path} (h : path' ≠ path) :
    (s.dropFile path).files path' = s.files path' :=
  Function.update_of_ne h ..

theorem files_writeFile_self (path : Path) (bytes : List Nat) :
    (s.writeFile path bytes).files path = some bytes :=
  Function.update_self ..

theorem files_writeFile_ne {path path' : Path} (h : path' ≠ path) (bytes : List Nat) :
    (s.writeFile path bytes).files path' = s.files path' :=
  Function.update_of_ne h ..

theorem filed_congr (hscore : t.score = s.score)
    (hfiles : ∀ a, s.score i = some a →
      t.files (a.replayFilename i) = s.files (a.replayFilename i)) : t.Filed i ↔ s.Filed i := by
  unfold Filed
  rw [hscore]
  exact exists_congr fun a => and_congr_right fun ha => by rw [hfiles a ha]

/-- The files of other scores stay when the file of one changes. -/
theorem filed_of_ne (hscore : t.score = s.score)
    (hfiles : ∀ path, path ≠ a.replayFilename k → t.files path = s.files path) (hi : i ≠ k) :
    t.Filed i ↔ s.Filed i :=
  filed_congr hscore fun _ _ => hfiles _ fun hpath => hi (Score.replayFilename_inj hpath)

theorem not_filed (hrow : s.score k = some a) (hfile : s.files (a.replayFilename k) = none) :
    ¬ s.Filed k := by
  rintro ⟨b, hb, hsome⟩
  obtain rfl : b = a := Option.some.inj (hb.symm.trans hrow)
  rw [hfile] at hsome
  exact absurd hsome (by simp)

@[simp] theorem score_foldl (l : List ScoreId) :
    (l.foldl (fun s j => s.setReplay j false) s).score = s.score :=
  foldl_leaves score (fun _ _ => score_setReplay) l s

@[simp] theorem files_foldl (l : List ScoreId) :
    (l.foldl (fun s j => s.setReplay j false) s).files = s.files :=
  foldl_leaves (f := fun s j => s.setReplay j false) files (fun _ _ => rfl) l s

theorem available_foldl (l : List ScoreId) :
    (l.foldl (fun s j => s.setReplay j false) s).Available i ↔ i ∉ l ∧ s.Available i := by
  induction l generalizing s with
  | nil => simp
  | cons j rest ih =>
    rw [List.foldl_cons, ih, available_setReplay]
    by_cases hi : i = j <;> simp [hi]

end Updates

/-! ## Deletions -/

theorem ends_deleteFile (services : Services) (path : Path) :
    Ends (deleteFile services path) s fun r t =>
      (∃ e, r = .error e) ∧ t = s ∨ r = .ok () ∧ t = s.dropFile path :=
  ends_refuse_bind (fun _ => .inl ⟨⟨_, rfl⟩, rfl⟩) fun _ => ends_write (.inr ⟨rfl, rfl⟩)

theorem ends_deleteFiles (services : Services) (l : List Candidate) :
    Ends (l.forM fun x => deleteFile services (x.2.replayFilename x.1)) s fun r t =>
      t.scores = s.scores ∧
        (∀ path, t.files path = s.files path ∨
          t.files path = none ∧ ∃ x ∈ l, path = x.2.replayFilename x.1) ∧
        (r = .ok () → ∀ x ∈ l, t.files (x.2.replayFilename x.1) = none) := by
  induction l generalizing s with
  | nil => exact ends_pure ⟨rfl, fun _ => .inl rfl, fun _ x hx => absurd hx List.not_mem_nil⟩
  | cons x rest ih =>
    refine Ends.bind (ends_deleteFile services _) ?_ ?_
    · rintro _ t (⟨⟨e, he⟩, -⟩ | ⟨-, rfl⟩)
      · exact absurd he (by simp)
      refine ih.mono fun r t ⟨hscores, hfiles, hgone⟩ => ⟨hscores, fun path => ?_, fun hr y hy => ?_⟩
      · rcases hfiles path with hsame | ⟨hnone, y, hy, hpath⟩
        · by_cases hx : path = x.2.replayFilename x.1
          · right
            refine ⟨?_, x, List.mem_cons_self, hx⟩
            rw [hsame, hx, files_dropFile_self]
          · left
            rw [hsame, files_dropFile_ne hx]
        · exact .inr ⟨hnone, y, List.mem_cons_of_mem x hy, hpath⟩
      · rcases List.mem_cons.mp hy with rfl | hy
        · rcases hfiles (y.2.replayFilename y.1) with hsame | ⟨hnone, -⟩
          · rw [hsame, files_dropFile_self]
          · exact hnone
        · exact hgone hr y hy
    · rintro e t (⟨-, rfl⟩ | ⟨he, -⟩)
      · exact ⟨rfl, fun _ => .inl rfl, fun hr => absurd hr (by simp)⟩
      · exact absurd he (by simp)

/-! ## One upload -/

/-- What an upload does whose score is not the best of its slot. -/
structure Lost (apiMods : ApiMods) (s t : Server) (k : ScoreId) (r : Except ErrorType Bool) :
    Prop where
  row : (s.score k).isSome
  best : ¬ s.Best apiMods k
  score : t.score = s.score
  available : ∀ i, t.Available i → s.Available i
  filed : ∀ i, t.Filed i → s.Filed i
  other : ∀ i, i ≠ k → (s.Available i → t.Available i) ∧ (s.Filed i → t.Filed i)
  gone : ∀ stored, r = .ok stored → ¬ t.Available k ∧ ¬ t.Filed k
  files : ∀ path, (t.files path).isSome → (s.files path).isSome

/-- What an upload does whose score is the best of its slot. -/
structure Won (apiMods : ApiMods) (s t : Server) (k : ScoreId) (r : Except ErrorType Bool) :
    Prop where
  best : s.Best apiMods k
  score : t.score = s.score
  available : ∀ i, i ≠ k → t.Available i → s.Available i
  filed : ∀ i, i ≠ k → t.Filed i → s.Filed i
  other : ∀ i, ¬ s.Rivals apiMods i k →
    (s.Available i → t.Available i) ∧ (s.Filed i → t.Filed i)
  committed : (t.Available k ∧ t.Filed k ∧ ∀ i, i ≠ k → s.Rivals apiMods i k → ¬ t.Available i) ∨
    (∀ i, t.Available i ↔ s.Available i) ∧ (s.Available k → t.Filed k) ∧
      ∀ stored, r ≠ .ok stored
  gone : ∀ stored, r = .ok stored → ∀ i, i ≠ k → s.Rivals apiMods i k → ¬ t.Filed i
  files : ∀ path, (t.files path).isSome → (s.files path).isSome ∨
    ∃ a, s.score k = some a ∧ path = a.replayFilename k

theorem ends_discardReplay (services : Services) (hrow : s.scores.row k = some a) :
    Ends (discardReplay services (k, a)) s fun r t =>
      t.score = s.score ∧ (∀ i, t.Available i → s.Available i) ∧ (∀ i, t.Filed i → s.Filed i) ∧
        (∀ i, i ≠ k → (s.Available i → t.Available i) ∧ (s.Filed i → t.Filed i)) ∧
        (r = .ok () → ¬ t.Available k ∧ ¬ t.Filed k) ∧
        ∀ path, (t.files path).isSome → (s.files path).isSome := by
  have hscore : s.score k = some a.bare := score_eq_some.mpr ⟨a, hrow, rfl⟩
  refine Ends.bind (P := fun r u => u = s ∧ (r = .ok () → ¬ s.Available k) ∨
    r = .ok () ∧ u = s.setReplay k false) ?_ ?_ ?_
  · refine ends_when (fun _ => ends_refuse_bind (fun _ => ?_) fun _ => ends_write (.inr ⟨rfl, rfl⟩))
      fun hno => .inl ⟨rfl, fun _ => ?_⟩
    · exact .inl ⟨rfl, fun he => absurd he (by simp)⟩
    · rintro ⟨b, hb, hreplay⟩
      obtain rfl : b = a := Option.some.inj (hb.symm.trans hrow)
      exact absurd hreplay (by rw [show b.hasReplay = false from hno]; simp)
  · intro _ u hu
    have hu : u.score = s.score ∧ u.files = s.files ∧ (∀ i, u.Available i → s.Available i) ∧
        (∀ i, i ≠ k → s.Available i → u.Available i) ∧ ¬ u.Available k := by
      rcases hu with ⟨rfl, hnot⟩ | ⟨-, rfl⟩
      · exact ⟨rfl, rfl, fun _ => id, fun _ _ => id, hnot rfl⟩
      · refine ⟨score_setReplay, rfl, fun i hi => ?_, fun i hi => ?_, ?_⟩
        · rw [available_setReplay] at hi
          split at hi
          · simp at hi
          · exact hi
        · rw [available_setReplay, if_neg hi]
          exact id
        · rw [available_setReplay, if_pos rfl]
          simp
    obtain ⟨huscore, hufiles, hsub, hkeep, hnot⟩ := hu
    have hufiled : ∀ i, u.Filed i ↔ s.Filed i := fun i =>
      filed_congr huscore fun _ _ => by rw [hufiles]
    refine (ends_deleteFile services _).mono ?_
    rintro r t (⟨⟨e, rfl⟩, rfl⟩ | ⟨-, rfl⟩)
    · exact ⟨huscore, hsub, fun i => (hufiled i).mp, fun i hi =>
        ⟨hkeep i hi, (hufiled i).mpr⟩, fun hr => absurd hr (by simp), fun path => hufiles ▸ id⟩
    · have hgone : ¬ (u.dropFile (a.replayFilename k)).Filed k :=
        not_filed (a := a.bare) (huscore ▸ hscore)
          (by rw [Score.replayFilename_bare, files_dropFile_self])
      have hother : ∀ i, i ≠ k → ((u.dropFile (a.replayFilename k)).Filed i ↔ s.Filed i) :=
        fun i hi => Iff.trans
          (filed_of_ne (s := u) (t := u.dropFile (a.replayFilename k)) rfl
            (fun _ hpath => files_dropFile_ne hpath) hi) (hufiled i)
      refine ⟨huscore, hsub, fun i hfiled => ?_, fun i hi =>
        ⟨hkeep i hi, (hother i hi).mpr⟩, fun _ => ⟨hnot, hgone⟩, fun path hsome => ?_⟩
      by_cases hi : i = k
      · rw [hi] at hfiled
        exact absurd hfiled hgone
      · exact (hother i hi).mp hfiled
      · by_cases hpath : path = a.replayFilename k
        · rw [hpath, files_dropFile_self] at hsome
          exact absurd hsome (by simp)
        · rwa [files_dropFile_ne hpath, hufiles] at hsome
  · rintro e t (⟨rfl, -⟩ | ⟨he, -⟩)
    · exact ⟨rfl, fun _ => id, fun _ => id, fun _ _ => ⟨id, id⟩, fun hr => absurd hr (by simp),
        fun _ => id⟩
    · exact absurd he (by simp)

section Winner

variable {services : Services} {bytes : List Nat} {l : List Candidate}

/-- The file may change of a best score that is not committed. -/
theorem Won.uncommitted (hrow : s.scores.row k = some a) (hbest : s.Best apiMods k)
    (hscores : t.scores = s.scores)
    (hfiles : ∀ path, path ≠ a.replayFilename k → t.files path = s.files path)
    (hkept : s.Available k → t.Filed k) (e : ErrorType) : Won apiMods s t k (.error e) := by
  have hscore : t.score = s.score := by
    funext i
    show (t.scores.row i).map _ = (s.scores.row i).map _
    rw [hscores]
  have havailable : ∀ i, t.Available i ↔ s.Available i := fun i => by
    simp only [Available, hscores]
  have hfiled : ∀ i, i ≠ k → (t.Filed i ↔ s.Filed i) := fun i => filed_of_ne hscore hfiles
  refine ⟨hbest, hscore, fun i _ => (havailable i).mp, fun i hi => (hfiled i hi).mp, fun i hi => ?_,
    .inr ⟨havailable, hkept, by simp⟩, fun _ hr => absurd hr (by simp), fun path hsome => ?_⟩
  · refine ⟨(havailable i).mpr, (hfiled i ?_).mpr⟩
    rintro rfl
    exact hi hbest.self
  · by_cases hpath : path = a.replayFilename k
    · exact .inr ⟨a.bare, score_eq_some.mpr ⟨a, hrow, rfl⟩, hpath⟩
    · rw [hfiles path hpath] at hsome
      exact .inl hsome

/-- An upload of the best score whose commit fails. -/
theorem ends_uncommitted (hrow : s.scores.row k = some a) (hbest : s.Best apiMods k) :
    Ends (do
      Txn.when (!a.hasReplay) (deleteFile services (a.replayFilename k))
      raise .database : Txn Server ErrorType Bool)
      (s.writeFile (a.replayFilename k) bytes) fun r t => Won apiMods s t k r := by
  have hfiled : (s.writeFile (a.replayFilename k) bytes).Filed k :=
    ⟨a.bare, score_eq_some.mpr ⟨a, hrow, rfl⟩, by
      rw [Score.replayFilename_bare, files_writeFile_self]
      rfl⟩
  have hwritten : ∀ e, Won apiMods s (s.writeFile (a.replayFilename k) bytes) k (.error e) :=
    Won.uncommitted hrow hbest rfl (fun _ hpath => files_writeFile_ne hpath bytes) fun _ => hfiled
  refine Ends.bind (P := fun _ t => ∀ e, Won apiMods s t k (.error e)) ?_
    (fun _ t h => ends_raise (h .database)) fun e t h => h e
  refine ends_when (fun hreplay => (ends_deleteFile services _).mono ?_) fun _ => hwritten
  rintro _ t (⟨-, rfl⟩ | ⟨-, rfl⟩)
  · exact hwritten
  · refine Won.uncommitted hrow hbest rfl (fun path hpath => ?_) ?_
    · rw [files_dropFile_ne hpath, files_writeFile_ne hpath]
    · rintro ⟨b, hb, hb'⟩
      obtain rfl : b = a := Option.some.inj (hb.symm.trans hrow)
      simp [hb'] at hreplay

/-- The rows and files once the best score is committed and some of the files it
supersedes are gone. -/
theorem Won.stored (hrow : s.scores.row k = some a) (hbest : s.Best apiMods k)
    (hl : ∀ x, x ∈ l ↔ x.1 ≠ k ∧ s.scores.row x.1 = some x.2 ∧ SameSlot apiMods x.2 a)
    {u : Server} {r : Except ErrorType Bool}
    (hu : u = (s.writeFile (a.replayFilename k) bytes).replaceReplays k (l.map Prod.fst))
    (hscores : t.scores = u.scores)
    (hfiles : ∀ path, t.files path = u.files path ∨
      t.files path = none ∧ ∃ x ∈ l, path = x.2.replayFilename x.1)
    (hgone : ∀ stored, r = .ok stored → ∀ x ∈ l, t.files (x.2.replayFilename x.1) = none) :
    Won apiMods s t k r := by
  have hscore : t.score = s.score := by
    have hsame : t.score = u.score := by
      funext i
      show (t.scores.row i).map _ = (u.scores.row i).map _
      rw [hscores]
    rw [hsame, hu, replaceReplays, score_foldl, score_setReplay]
    rfl
  have hrival : ∀ i, i ∈ l.map Prod.fst ↔ i ≠ k ∧ s.Rivals apiMods i k := by
    intro i
    rw [List.mem_map]
    constructor
    · rintro ⟨x, hx, rfl⟩
      obtain ⟨hne, hx, hslot⟩ := (hl x).mp hx
      exact ⟨hne, _, _, score_eq_some.mpr ⟨x.2, hx, rfl⟩, score_eq_some.mpr ⟨a, hrow, rfl⟩,
        hslot.bare⟩
    · rintro ⟨hne, _, _, hb, ha, hslot⟩
      obtain ⟨b, hb', rfl⟩ := score_eq_some.mp hb
      obtain ⟨a', ha', rfl⟩ := score_eq_some.mp ha
      obtain rfl : a' = a := Option.some.inj (ha'.symm.trans hrow)
      exact ⟨(i, b), (hl (i, b)).mpr ⟨hne, hb', hslot.of_bare⟩, rfl⟩
  have havailable : ∀ i, t.Available i ↔
      ¬ (i ≠ k ∧ s.Rivals apiMods i k) ∧ (i = k ∨ s.Available i) := by
    intro i
    have hsame : t.Available i ↔ u.Available i := by simp only [Available, hscores]
    rw [hsame, hu, replaceReplays, available_foldl, available_setReplay, hrival]
    refine and_congr_right fun _ => ?_
    split
    · next hi =>
      have hthere : (s.score k).isSome := by simp [Server.score, hrow]
      exact iff_of_true ⟨rfl, hthere⟩ (.inl hi)
    · next hi => exact (or_iff_right hi).symm
  have hufiles : ∀ path, u.files path = (s.writeFile (a.replayFilename k) bytes).files path := by
    intro path
    rw [hu, replaceReplays, files_foldl]
    rfl
  have hself : t.Filed k := by
    refine ⟨a.bare, hscore ▸ score_eq_some.mpr ⟨a, hrow, rfl⟩, ?_⟩
    rw [Score.replayFilename_bare]
    rcases hfiles (a.replayFilename k) with hsame | ⟨-, x, hx, hpath⟩
    · rw [hsame, hufiles, files_writeFile_self]
      rfl
    · exact absurd (Score.replayFilename_inj hpath).symm ((hl x).mp hx).1
  have hothers : ∀ i, i ≠ k → t.Filed i → s.Filed i := by
    rintro i hi ⟨b, hb, hsome⟩
    refine ⟨b, hscore ▸ hb, ?_⟩
    rcases hfiles (b.replayFilename i) with hsame | ⟨hnone, -⟩
    · rwa [hsame, hufiles, files_writeFile_ne fun hpath => hi (Score.replayFilename_inj hpath)]
        at hsome
    · rw [hnone] at hsome
      exact absurd hsome (by simp)
  refine ⟨hbest, hscore, fun i hi h => (((havailable i).mp h).2.resolve_left hi), hothers,
    fun i hi => ⟨fun h => (havailable i).mpr ⟨fun hr => hi hr.2, .inr h⟩, ?_⟩,
    .inl ⟨(havailable k).mpr ⟨fun hr => hr.1 rfl, .inl rfl⟩, hself, fun i hne hr h =>
      ((havailable i).mp h).1 ⟨hne, hr⟩⟩, fun stored hr i hne hi => ?_, fun path hsome => ?_⟩
  · rintro ⟨b, hb, hsome⟩
    refine ⟨b, hscore ▸ hb, ?_⟩
    have hne : i ≠ k := by
      rintro rfl
      exact hi hbest.self
    rcases hfiles (b.replayFilename i) with hsame | ⟨-, x, hx, hpath⟩
    · rwa [hsame, hufiles, files_writeFile_ne fun hpath => hne (Score.replayFilename_inj hpath)]
    · have hx := (hrival x.1).mp (List.mem_map_of_mem hx)
      rw [← Score.replayFilename_inj hpath] at hx
      exact absurd hx.2 hi
  · obtain ⟨x, hx, rfl⟩ := List.mem_map.mp ((hrival i).mpr ⟨hne, hi⟩)
    refine not_filed (a := x.2.bare)
      (hscore ▸ score_eq_some.mpr ⟨x.2, ((hl x).mp hx).2.1, rfl⟩) ?_
    rw [Score.replayFilename_bare]
    exact hgone stored hr x hx
  · by_cases hpath : path = a.replayFilename k
    · exact .inr ⟨a.bare, score_eq_some.mpr ⟨a, hrow, rfl⟩, hpath⟩
    · rcases hfiles path with hsame | ⟨hnone, -⟩
      · rw [hsame, hufiles, files_writeFile_ne hpath] at hsome
        exact .inl hsome
      · rw [hnone] at hsome
        exact absurd hsome (by simp)

end Winner

/-- What the endpoint does: nothing, or discard or store the replay of the score it names. -/
theorem ends_saveReplay (apiMods : ApiMods) (services : Services) (req : ReplayDataRequest) :
    Ends (saveReplay apiMods services req) s fun r t =>
      ((∃ e, r = .error e) ∧ t = s) ∨ Lost apiMods s t req.scoreId r ∨
        Won apiMods s t req.scoreId r := by
  refine ends_read_bind (ends_require_bind (fun _ => .inl ⟨⟨_, rfl⟩, rfl⟩) ?_)
  rintro ⟨k, a⟩ hfind
  obtain ⟨hrow, huser, hmap⟩ := mem_candidates.mp (List.mem_of_find?_eq_some hfind)
  obtain rfl : k = req.scoreId := by simpa using List.find?_some hfind
  have hwinner : (bestReplayScore apiMods (s.lockReplayCandidates req.userId req.beatmapId)
      (req.scoreId, a)).map Prod.fst = some req.scoreId ↔ s.Best apiMods req.scoreId :=
    bestReplayScore_iff hrow huser hmap
  have hcombination : ∀ {x : Candidate}, x ∈ replayCombinationScores apiMods
      (s.lockReplayCandidates req.userId req.beatmapId) (req.scoreId, a) ↔
        s.scores.row x.1 = some x.2 ∧ SameSlot apiMods x.2 a := mem_combination huser hmap
  show Ends (if _ then _ else _) s _
  split
  · next hlost =>
    have hthere : (s.score req.scoreId).isSome := by simp [Server.score, hrow]
    refine Ends.bind (ends_discardReplay services hrow) ?_ ?_
    · rintro ⟨⟩ t ⟨hscore, havailable, hfiled, hother, hgone, hfiles⟩
      exact .inr (.inl ⟨hthere, fun hbest => hlost (hwinner.mpr hbest), hscore, havailable, hfiled,
        hother, fun _ _ => hgone rfl, hfiles⟩)
    · rintro e t ⟨hscore, havailable, hfiled, hother, -, hfiles⟩
      exact .inr (.inl ⟨hthere, fun hbest => hlost (hwinner.mpr hbest), hscore, havailable, hfiled,
        hother, fun _ hr => absurd hr (by simp), hfiles⟩)
  · next hwon =>
    have hbest := hwinner.mp (not_not.mp hwon)
    refine ends_require_bind (fun _ => .inl ⟨⟨_, rfl⟩, rfl⟩) fun bytes _ => ?_
    refine ends_refuse_bind (fun _ => .inl ⟨⟨_, rfl⟩, rfl⟩) fun _ => ends_write_bind ?_
    split
    · refine ends_write_bind (Ends.bind (ends_deleteFiles services _) ?_ ?_)
      · rintro _ t ⟨hscores, hfiles, hgone⟩
        refine ends_pure (.inr (.inr (Won.stored hrow hbest (fun x => ?_) rfl hscores hfiles
          fun _ _ => hgone rfl)))
        rw [List.mem_filter, hcombination, and_comm]
        simp
      · rintro e t ⟨hscores, hfiles, -⟩
        refine .inr (.inr (Won.stored hrow hbest (fun x => ?_) rfl hscores hfiles
          fun _ hr => absurd hr (by simp)))
        rw [List.mem_filter, hcombination, and_comm]
        simp
    · exact (ends_uncommitted hrow hbest).mono fun _ _ h => .inr (.inr h)

/-! ## Runs -/

/-- A replay of the score was uploaded: the request was answered. -/
def Uploaded (apiMods : ApiMods) (k : ScoreId) : List (Event × Server) → Prop
  | [] => False
  | (e, _) :: past => Uploaded apiMods k past ∨ ∃ services req, e = .upload services req ∧
      req.scoreId = k ∧
      ∃ stored, (saveReplay apiMods services req (endState Server.empty past)).1 = .ok stored

/-- What holds between the events. -/
structure Kept (apiMods : ApiMods) (h : List (Event × Server)) (s : Server) : Prop where
  one : ∀ i j, s.Available i → s.Available j → s.Rivals apiMods i j → i = j
  available : ∀ i, s.Available i → s.Rivals apiMods i i
  filed : ∀ i, s.Filed i → s.Rivals apiMods i i
  files : ∀ path, (s.files path).isSome → ∃ i a, s.score i = some a ∧ path = a.replayFilename i
  known : ∀ i, Uploaded apiMods i h → (s.score i).isSome
  settled : ∀ i, Uploaded apiMods i h → s.Best apiMods i →
    s.Available i ∧ s.Filed i ∧ ∀ j, j ≠ i → s.Rivals apiMods j i → ¬ s.Filed j

section Kept

variable {h : List (Event × Server)}

variable {services : Services} {req : ReplayDataRequest} {r : Except ErrorType Bool}

theorem Lost.kept (hs : Kept apiMods h s) (hlost : Lost apiMods s t req.scoreId r)
    (huploaded : ∀ i, Uploaded apiMods i ((.upload services req, t) :: h) →
      Uploaded apiMods i h ∨ i = req.scoreId ∧ ∃ stored, r = .ok stored) :
    Kept apiMods ((.upload services req, t) :: h) t where
  one i j hi hj hrival :=
    hs.one i j (hlost.available i hi) (hlost.available j hj) ((Rivals.congr hlost.score).mp hrival)
  available i hi := (Rivals.congr hlost.score).mpr (hs.available i (hlost.available i hi))
  filed i hi := (Rivals.congr hlost.score).mpr (hs.filed i (hlost.filed i hi))
  files path hpath := hlost.score ▸ hs.files path (hlost.files path hpath)
  known i hi := by
    rw [hlost.score]
    rcases huploaded i hi with hi | ⟨rfl, -⟩
    · exact hs.known i hi
    · exact hlost.row
  settled i hi hbest := by
    rw [Best.congr hlost.score] at hbest
    have hne : i ≠ req.scoreId := fun heq => hlost.best (heq ▸ hbest)
    have hi := (huploaded i hi).resolve_right fun hi => hne hi.1
    obtain ⟨havailable, hfiled, hrivals⟩ := hs.settled i hi hbest
    refine ⟨(hlost.other i hne).1 havailable, (hlost.other i hne).2 hfiled, fun j hj hrival hf => ?_⟩
    exact hrivals j hj ((Rivals.congr hlost.score).mp hrival) (hlost.filed j hf)

theorem Won.kept (hs : Kept apiMods h s) (hwon : Won apiMods s t req.scoreId r)
    (huploaded : ∀ i, Uploaded apiMods i ((.upload services req, t) :: h) →
      Uploaded apiMods i h ∨ i = req.scoreId ∧ ∃ stored, r = .ok stored) :
    Kept apiMods ((.upload services req, t) :: h) t where
  one i j hi hj hrival := by
    rw [Rivals.congr hwon.score] at hrival
    rcases hwon.committed with ⟨-, -, hothers⟩ | ⟨hsame, -, -⟩
    · by_cases hik : i = req.scoreId
      · by_cases hjk : j = req.scoreId
        · exact hik.trans hjk.symm
        · exact absurd hj (hothers j hjk (hik ▸ hrival.symm))
      · by_cases hjk : j = req.scoreId
        · exact absurd hi (hothers i hik (hjk ▸ hrival))
        · exact hs.one i j (hwon.available i hik hi) (hwon.available j hjk hj) hrival
    · exact hs.one i j ((hsame i).mp hi) ((hsame j).mp hj) hrival
  available i hi := by
    rw [Rivals.congr hwon.score]
    by_cases hik : i = req.scoreId
    · exact hik ▸ hwon.best.self
    · exact hs.available i (hwon.available i hik hi)
  filed i hi := by
    rw [Rivals.congr hwon.score]
    by_cases hik : i = req.scoreId
    · exact hik ▸ hwon.best.self
    · exact hs.filed i (hwon.filed i hik hi)
  files path hpath := by
    rw [hwon.score]
    rcases hwon.files path hpath with hpath | ⟨a, ha, hpath⟩
    · exact hs.files path hpath
    · exact ⟨_, a, ha, hpath⟩
  known i hi := by
    rw [hwon.score]
    rcases huploaded i hi with hi | ⟨rfl, -⟩
    · exact hs.known i hi
    · obtain ⟨a, ha, -⟩ := hwon.best
      rw [ha]
      rfl
  settled i hi hbest := by
    rw [Best.congr hwon.score] at hbest
    simp only [Rivals.congr hwon.score]
    by_cases hik : i = req.scoreId
    · subst hik
      rcases huploaded _ hi with hi | ⟨-, stored, hok⟩
      · obtain ⟨havailable, hfiled, hrivals⟩ := hs.settled _ hi hbest
        have hgone : ∀ j, j ≠ req.scoreId → s.Rivals apiMods j req.scoreId → ¬ t.Filed j :=
          fun j hj hrival hf => hrivals j hj hrival (hwon.filed j hj hf)
        rcases hwon.committed with ⟨ha, hf, -⟩ | ⟨hsame, hkept, -⟩
        · exact ⟨ha, hf, hgone⟩
        · exact ⟨(hsame _).mpr havailable, hkept havailable, hgone⟩
      · rcases hwon.committed with ⟨ha, hf, -⟩ | ⟨-, -, hno⟩
        · exact ⟨ha, hf, hwon.gone stored hok⟩
        · exact absurd hok (hno stored)
    · -- the best score of another slot
      have hother : ¬ s.Rivals apiMods i req.scoreId := fun hrival =>
        hik (hbest.unique hwon.best hrival)
      have hi := (huploaded i hi).resolve_right fun hi => hik hi.1
      obtain ⟨havailable, hfiled, hrivals⟩ := hs.settled i hi hbest
      refine ⟨(hwon.other i hother).1 havailable, (hwon.other i hother).2 hfiled,
        fun j hj hrival hf => hrivals j hj hrival (hwon.filed j (fun hjk => ?_) hf)⟩
      exact hother (hjk ▸ hrival.symm)

theorem score_submit {score : Score} {i : ScoreId} (h : s.score i = some a) :
    (s.after apiMods (.submit score)).score i = some a := by
  obtain ⟨b, hrow, rfl⟩ := score_eq_some.mp h
  exact score_eq_some.mpr ⟨b, Table.row_insert_of_some hrow, rfl⟩

theorem available_submit {score : Score} {i : ScoreId} :
    (s.after apiMods (.submit score)).Available i ↔ s.Available i := by
  constructor
  · rintro ⟨b, hrow, hreplay⟩
    have hrow : (s.scores.insert { score with hasReplay := false }).row i = some b := hrow
    rw [Table.row_insert] at hrow
    split at hrow
    · obtain rfl := Option.some.inj hrow
      exact absurd hreplay (by simp)
    · exact ⟨b, hrow, hreplay⟩
  · rintro ⟨b, hrow, hreplay⟩
    exact ⟨b, Table.row_insert_of_some hrow, hreplay⟩

/-- A submitted score has no file: the file of another score has another name. -/
theorem filed_submit (hs : Kept apiMods h s) {score : Score} {i : ScoreId} :
    (s.after apiMods (.submit score)).Filed i ↔ s.Filed i := by
  constructor
  · rintro ⟨b, -, hfile⟩
    have hfile : (s.files (b.replayFilename i)).isSome := hfile
    obtain ⟨j, a, ha, hpath⟩ := hs.files _ hfile
    obtain rfl := Score.replayFilename_inj hpath
    exact ⟨a, ha, hpath ▸ hfile⟩
  · rintro ⟨b, hb, hfile⟩
    exact ⟨b, score_submit hb, hfile⟩

theorem rivals_submit {score : Score} {i j : ScoreId} (h : s.Rivals apiMods i j) :
    (s.after apiMods (.submit score)).Rivals apiMods i j := by
  obtain ⟨a, b, ha, hb, hslot⟩ := h
  exact ⟨a, b, score_submit ha, score_submit hb, hslot⟩

theorem rivals_of_submit {score : Score} {i j : ScoreId} (hi : (s.score i).isSome)
    (hj : (s.score j).isSome) (h : (s.after apiMods (.submit score)).Rivals apiMods i j) :
    s.Rivals apiMods i j := by
  obtain ⟨a, ha⟩ := Option.isSome_iff_exists.mp hi
  obtain ⟨b, hb⟩ := Option.isSome_iff_exists.mp hj
  obtain ⟨a', b', ha', hb', hslot⟩ := h
  obtain rfl := Option.some.inj ((score_submit ha).symm.trans ha')
  obtain rfl := Option.some.inj ((score_submit hb).symm.trans hb')
  exact ⟨a, b, ha, hb, hslot⟩

theorem best_of_submit {score : Score} {i : ScoreId} (hi : (s.score i).isSome)
    (h : (s.after apiMods (.submit score)).Best apiMods i) : s.Best apiMods i := by
  obtain ⟨a, ha⟩ := Option.isSome_iff_exists.mp hi
  obtain ⟨a', ha', helig, hbest⟩ := h
  obtain rfl := Option.some.inj ((score_submit ha).symm.trans ha')
  exact ⟨a, ha, helig, fun j b hb => hbest j b (score_submit hb)⟩

theorem Server.Available.isSome {i : ScoreId} (h : s.Available i) : (s.score i).isSome := by
  obtain ⟨b, hrow, -⟩ := h
  simp [score, hrow]

theorem Server.Filed.isSome {i : ScoreId} (h : s.Filed i) : (s.score i).isSome := by
  obtain ⟨b, hb, -⟩ := h
  simp [hb]

/-- A refused upload changes nothing. -/
theorem Kept.refused (hs : Kept apiMods h s)
    (huploaded : ∀ i, Uploaded apiMods i ((.upload services req, s) :: h) → Uploaded apiMods i h) :
    Kept apiMods ((.upload services req, s) :: h) s where
  one := hs.one
  available := hs.available
  filed := hs.filed
  files := hs.files
  known i hi := hs.known i (huploaded i hi)
  settled i hi := hs.settled i (huploaded i hi)

theorem kept_submit (hs : Kept apiMods h s) (score : Score) :
    Kept apiMods ((.submit score, s.after apiMods (.submit score)) :: h)
      (s.after apiMods (.submit score)) where
  one i j hi hj hrival := by
    rw [available_submit] at hi hj
    exact hs.one i j hi hj (rivals_of_submit hi.isSome hj.isSome hrival)
  available i hi := rivals_submit (hs.available i (available_submit.mp hi))
  filed i hi := rivals_submit (hs.filed i ((filed_submit hs).mp hi))
  files path hpath := by
    obtain ⟨i, a, ha, rfl⟩ := hs.files path hpath
    exact ⟨i, a, score_submit ha, rfl⟩
  known i hi := by
    obtain ⟨a, ha⟩ := Option.isSome_iff_exists.mp (hs.known i (hi.resolve_right (by simp)))
    rw [score_submit ha]
    rfl
  settled i hi hbest := by
    have hi : Uploaded apiMods i h := hi.resolve_right (by simp)
    have hthere := hs.known i hi
    obtain ⟨havailable, hfiled, hrivals⟩ := hs.settled i hi (best_of_submit hthere hbest)
    refine ⟨available_submit.mpr havailable, (filed_submit hs).mpr hfiled, fun j hj hrival hf => ?_⟩
    have hf := (filed_submit hs).mp hf
    exact hrivals j hj (rivals_of_submit hf.isSome hthere hrival) hf

end Kept

theorem kept_empty : Kept apiMods [] Server.empty where
  one := fun i _ ⟨_, hrow, _⟩ => by simp [Server.empty] at hrow
  available := fun i ⟨_, hrow, _⟩ => by simp [Server.empty] at hrow
  filed := fun i ⟨_, hb, _⟩ => by simp [Server.empty, score] at hb
  files := fun path hpath => by simp [Server.empty] at hpath
  known := fun _ => False.elim
  settled := fun _ => False.elim

theorem kept_run {h : List (Event × Server)}
    (hrun : Trace (Step apiMods) (fun _ _ => True) Server.empty h s) : Kept apiMods h s := by
  suffices hboth : Kept apiMods h s ∧ endState Server.empty h = s from hboth.1
  refine hrun.invariant (I := fun h s => Kept apiMods h s ∧ endState Server.empty h = s) ?_
    ⟨kept_empty, rfl⟩
  rintro h s e t ⟨hs, hend⟩ - ⟨-, -⟩
  refine ⟨?_, rfl⟩
  cases e with
  | submit score => exact kept_submit hs score
  | upload services req =>
    have hends := ends_saveReplay (s := s) apiMods services req
    have huploaded : ∀ i, Uploaded apiMods i
        ((.upload services req, s.after apiMods (.upload services req)) :: h) →
        Uploaded apiMods i h ∨ i = req.scoreId ∧
          ∃ stored, (saveReplay apiMods services req s).1 = .ok stored := by
      rintro i (hi | ⟨services', req', he, rfl, hok⟩)
      · exact .inl hi
      · cases he
        exact .inr ⟨rfl, hend ▸ hok⟩
    rcases hends with ⟨⟨e, he⟩, hsame⟩ | hlost | hwon
    · have hsame : s.after apiMods (.upload services req) = s := hsame
      rw [hsame] at huploaded ⊢
      refine hs.refused fun i hi => (huploaded i hi).resolve_right ?_
      rintro ⟨-, stored, hok⟩
      exact absurd (hok.symm.trans he) (by simp)
    · exact hlost.kept hs huploaded
    · exact hwon.kept hs huploaded

/-- An eligible score competes with the best of its slot. -/
theorem exists_best {k : ScoreId} (h : s.Rivals apiMods k k) :
    ∃ j, s.Best apiMods j ∧ s.Rivals apiMods j k := by
  obtain ⟨_, _, ha, hb, hslot⟩ := h
  obtain ⟨a, hrow, rfl⟩ := score_eq_some.mp ha
  have hself : SameSlot apiMods a a := .refl hslot.left
  have hmem : ∀ {x : Candidate}, x ∈ replayCombinationScores apiMods
      (s.lockReplayCandidates a.userId a.beatmapId) (k, a) ↔ s.scores.row x.1 = some x.2 ∧
        SameSlot apiMods x.2 a := mem_combination rfl rfl
  cases hmax : bestReplayScore apiMods (s.lockReplayCandidates a.userId a.beatmapId) (k, a) with
  | none =>
    exact absurd (List.argmax_eq_none.mp hmax ▸ (hmem (x := (k, a))).mpr ⟨hrow, hself⟩) List.not_mem_nil
  | some x =>
    obtain ⟨hx, hslotx⟩ := hmem.mp (List.argmax_mem hmax)
    refine ⟨x.1, (best_iff hx).mpr ⟨hslotx.left, fun j b hb hslotb => ?_⟩, _, _,
      score_eq_some.mpr ⟨x.2, hx, rfl⟩, ha, hslotx.bare⟩
    exact List.le_of_mem_argmax (hmem.mpr ⟨hb, hslotb.trans hslotx⟩) hmax

/-- Scores of one slot are by one user on one beatmap. -/
theorem Server.Rivals.of_user {j k : ScoreId} (h : s.Rivals apiMods j k) {b : Score}
    (hk : s.score k = some b) :
    ∃ c, s.score j = some c ∧ c.userId = b.userId ∧ c.beatmapId = b.beatmapId := by
  obtain ⟨c, b', hc, hb', hslot⟩ := h
  obtain rfl := Option.some.inj (hb'.symm.trans hk)
  exact ⟨c, hc, hslot.user, hslot.beatmap⟩

/-- The mods of the worked run have no settings. -/
def noSettings : ApiMods := fun _ _ => none

/-- A passed play of beatmap 7 by user 1. -/
def soloPlay (total : Int) : Score where
  userId := 1
  beatmapId := 7
  gamemode := .osu
  mods := []
  totalScore := total
  passed := true
  leaderboardEligible := true

def replayOf (k : ScoreId) : Event := .upload {} ⟨k, 1, "QUJD", 7⟩

/-- A play with its replay, and then a better one with its own. -/
def betterPlay : List Event :=
  [replayOf 2, .submit (soloPlay 900), replayOf 1, .submit (soloPlay 500)]

def betterPlays : List (Event × Server) :=
  historyOf (Server.after noSettings) Server.empty betterPlay

theorem trace_betterPlays :
    Trace (Step noSettings) (fun _ _ => True) Server.empty betterPlays
      (endState Server.empty betterPlays) :=
  trace_historyOf Server.empty betterPlay fun e _ s => .mk s e

theorem rows_betterPlays {i : ScoreId} {a : Score}
    (h : (endState Server.empty betterPlays).score i = some a) :
    (i = 1 ∧ a = soloPlay 500) ∨ (i = 2 ∧ a = soloPlay 900) := by
  have hnext : (endState Server.empty betterPlays).scores.next = 3 := by decide +kernel
  obtain ⟨b, hrow, rfl⟩ := score_eq_some.mp h
  have hlt : i < 3 := hnext ▸ Table.lt_next hrow
  interval_cases i
  · rw [show (endState Server.empty betterPlays).scores.row 0 = none by decide +kernel] at hrow
    simp at hrow
  · rw [show (endState Server.empty betterPlays).scores.row 1 = some (soloPlay 500) by
      decide +kernel] at hrow
    exact .inl ⟨rfl, congrArg Score.bare (Option.some.inj hrow).symm⟩
  · rw [show (endState Server.empty betterPlays).scores.row 2 =
      some { soloPlay 900 with hasReplay := true } by decide +kernel] at hrow
    exact .inr ⟨rfl, congrArg Score.bare (Option.some.inj hrow).symm⟩

end Soms.Replays

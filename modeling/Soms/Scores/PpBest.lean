import Soms.Library.Weighted
import Soms.Scores.Accounting

/-!
# The PP bests and the total PP

`best_scores` as its rows: what `_process_score_pp` of `database/score.py` writes there, and what
`calculate_user_pp` adds up from them.
-/

namespace Soms.Scores

/-- `BestScore` -/
structure BestScore where
  userId : UserId
  scoreId : ScoreId
  beatmapId : BeatmapId
  gamemode : GameMode
  pp : ℚ
  acc : ℚ
  deriving DecidableEq, Repr

def BestScore.key (row : BestScore) : MapKey := ⟨row.userId, row.beatmapId, row.gamemode⟩

/-- The row of a score. -/
def BestScore.ofScore (sid : ScoreId) (sc : Score) (pp : ℚ) : BestScore :=
  ⟨sc.userId, sid, sc.beatmapId, sc.mode, pp, sc.accuracy⟩

@[simp] theorem BestScore.key_ofScore (sid : ScoreId) (sc : Score) (pp : ℚ) :
    (BestScore.ofScore sid sc pp).key = sc.key := rfl

/-- The rows of a user on a map in a mode. -/
def rowsOf (k : MapKey) (rows : List BestScore) : List BestScore :=
  rows.filter fun row => decide (row.key = k)

/-- `get_user_best_pp_in_beatmap` -/
def getUserBestPpInBeatmap (k : MapKey) (rows : List BestScore) : Option BestScore :=
  (rowsOf k rows).head?

/-- The rows after a score has its PP.  A row that gives way is deleted by its primary key, the
score, and a new row of the same score takes its place. -/
def updatePpBest (new : BestScore) (rows : List BestScore) : List BestScore :=
  match getUserBestPpInBeatmap new.key rows with
  | none => rows ++ [new]
  | some previous =>
    if previous.pp < new.pp then
      rows.filter (fun row => decide (row.scoreId ≠ previous.scoreId)) ++ [new]
    else rows

/-- The tables that `_process_score_pp` writes. -/
structure PpTables where
  scores : Table Score
  bestScores : List BestScore

variable (srv : Server)

/-- `can_get_pp` -/
def canGetPp (sc : Score) : Bool := sc.passed && sc.ranked && srv.modsCanGetPp sc.mode.toInt sc.mods

/-- The row for which the PP of an eligible score stands.  `calculated` is what the calculation
returns if it is run, `none` if it fails. -/
def awardedRow (calculated : Option ℚ) (sid : ScoreId) (sc : Score) : Option BestScore :=
  (if sc.pp ≠ 0 then some sc.pp else calculated).map (BestScore.ofScore sid sc)

namespace PpTables

/-- `_process_score_pp`, on the rows of the table. -/
def processScorePp (calculated : Option ℚ) (sid : ScoreId) (sc : Score) (t : PpTables) :
    Option PpTables :=
  if canGetPp srv sc = false then
    some { t with scores := t.scores.modify sid fun sc => { sc with pp := 0 } }
  else
    (awardedRow calculated sid sc).map fun new =>
      { scores := t.scores.modify sid fun sc => { sc with pp := new.pp }
        bestScores := updatePpBest new t.bestScores }

/-- A call for a stored score.  One that fails leaves the tables as they are. -/
def process (t : PpTables) (call : ScoreId × Option ℚ) : PpTables :=
  ((t.scores.row call.1).bind fun sc => t.processScorePp srv call.2 call.1 sc).getD t

/-- The row of an eligible score that the call has processed. -/
def awarded (t : PpTables) (call : ScoreId × Option ℚ) : Option BestScore :=
  (t.scores.row call.1).bind fun sc =>
    if canGetPp srv sc then awardedRow call.2 call.1 sc else none

/-- One call after another. -/
def processAll (calls : List (ScoreId × Option ℚ)) (t : PpTables) : PpTables :=
  calls.foldl (fun t call => t.process srv call) t

/-- The rows of the eligible scores that the calls have processed. -/
def awards : List (ScoreId × Option ℚ) → PpTables → List BestScore
  | [], _ => []
  | call :: calls, t => (t.awarded srv call).toList ++ awards calls (t.process srv call)

/-- The row of a score is a row of its user, its map and its mode. -/
def Keyed (t : PpTables) : Prop :=
  ∀ row ∈ t.bestScores, ∃ sc, t.scores.row row.scoreId = some sc ∧ sc.key = row.key

end PpTables

/-- There is one row if there is a processed score.  It is of such a score, and none has more
PP. -/
def HoldsMax (processed rows : List BestScore) : Prop :=
  processed = [] ∧ rows = [] ∨
    ∃ best, rows = [best] ∧ best ∈ processed ∧ ∀ row ∈ processed, row.pp ≤ best.pp

/-! ## The total -/

/-- `calculate_pp_weight` -/
def calculatePpWeight (index : Nat) : ℚ := (95 / 100) ^ index

/-- `calculate_weighted_pp` -/
def calculateWeightedPp (pp : ℚ) (index : Nat) : ℚ :=
  if 0 < pp then calculatePpWeight index * pp else 0

/-- `calculate_weighted_acc` -/
def calculateWeightedAcc (acc : ℚ) (index : Nat) : ℚ :=
  if 0 < acc then calculatePpWeight index * acc else 0

/-- `ORDER BY pp DESC, score_id DESC` -/
def BestScore.Before (a b : BestScore) : Prop :=
  b.pp < a.pp ∨ a.pp = b.pp ∧ b.scoreId ≤ a.scoreId

instance (a b : BestScore) : Decidable (a.Before b) :=
  inferInstanceAs (Decidable (b.pp < a.pp ∨ a.pp = b.pp ∧ b.scoreId ≤ a.scoreId))

/-- The rows of a user in a mode. -/
def rowsIn (um : UserMode) (rows : List BestScore) : List BestScore :=
  rows.filter fun row => decide (row.key.userMode = um)

/-- `get_user_best_pp` -/
def getUserBestPp (rows : List BestScore) (um : UserMode) (limit : Nat := 1000) : List BestScore :=
  ((rowsIn um rows).insertionSort BestScore.Before).take limit

/-- `pp_sum` over rows in some order, where `negativeMaps` is what `negative_map_ids` returns. -/
def ppSum (negativeMaps : BeatmapId → Bool) (bps : List BestScore) : ℚ :=
  (bps.zipIdx.map fun x =>
    calculateWeightedPp x.1.pp x.2 * if negativeMaps x.1.beatmapId then -1 else 1).sum

/-- `acc_sum`, before it is clamped. -/
def accSum (bps : List BestScore) : ℚ :=
  let sum := (bps.zipIdx.map fun x => calculateWeightedAcc x.1.acc x.2).sum
  if bps.length ≠ 0 then sum * (100 / (20 * (1 - (95 / 100) ^ bps.length))) else sum

/-- `clamp` -/
def clamp (n minValue maxValue : ℚ) : ℚ :=
  if n < minValue then minValue else if maxValue < n then maxValue else n

/-- `calculate_user_pp` -/
def calculateUserPp (negativeMaps : BeatmapId → Bool) (rows : List BestScore) (um : UserMode) :
    ℚ × ℚ :=
  let bps := getUserBestPp rows um
  (ppSum negativeMaps bps, clamp (accSum bps) 0 100)

/-! ## The rows of the table -/

section Rows

variable {k : MapKey} {new : BestScore} {rows : List BestScore}

@[simp] theorem rowsOf_append (k : MapKey) (rows rows' : List BestScore) :
    rowsOf k (rows ++ rows') = rowsOf k rows ++ rowsOf k rows' := List.filter_append _ _

theorem rowsOf_single (k : MapKey) (row : BestScore) :
    rowsOf k [row] = if row.key = k then [row] else [] := by
  simp [rowsOf, List.filter_cons]

theorem mem_rowsOf {row : BestScore} : row ∈ rowsOf k rows ↔ row ∈ rows ∧ row.key = k := by
  simp [rowsOf]

theorem rowsOf_filter (k : MapKey) (p : BestScore → Bool) (rows : List BestScore) :
    rowsOf k (rows.filter p) = (rowsOf k rows).filter p := by
  rw [rowsOf, rowsOf, List.filter_filter, List.filter_filter]
  exact List.filter_congr fun row _ => Bool.and_comm _ _

/-- A row of another key stays. -/
theorem rowsOf_updatePpBest_of_ne (hk : new.key ≠ k)
    (hkeyed : ∀ a ∈ rows, ∀ b ∈ rows, a.scoreId = b.scoreId → a.key = b.key) :
    rowsOf k (updatePpBest new rows) = rowsOf k rows := by
  have hnew : rowsOf k [new] = [] := by rw [rowsOf_single, if_neg hk]
  unfold updatePpBest
  split
  · rw [rowsOf_append, hnew, List.append_nil]
  · next previous hprevious =>
    split
    · rw [rowsOf_append, hnew, List.append_nil, rowsOf_filter, List.filter_eq_self]
      intro row hrow
      obtain ⟨hmem, hrowk⟩ := mem_rowsOf.mp hrow
      obtain ⟨hpmem, hpk⟩ := mem_rowsOf.mp (List.mem_of_mem_head? hprevious)
      have hne : row.scoreId ≠ previous.scoreId := fun h =>
        hk (hpk.symm.trans ((hkeyed row hmem previous hpmem h).symm.trans hrowk))
      exact decide_eq_true hne
    · rfl

/-- The new row is added, or replaces the one of its key if it has more PP. -/
theorem rowsOf_updatePpBest (new : BestScore) {best : Option BestScore}
    (hrows : rowsOf new.key rows = best.toList) :
    rowsOf new.key (updatePpBest new rows) =
      if best.all fun previous => decide (previous.pp < new.pp) then [new] else best.toList := by
  have hnew : rowsOf new.key [new] = [new] := by rw [rowsOf_single, if_pos rfl]
  unfold updatePpBest getUserBestPpInBeatmap
  rw [hrows]
  cases best with
  | none => simp [hnew, hrows]
  | some previous =>
    by_cases hpp : previous.pp < new.pp
    · simp [hpp, hnew, rowsOf_filter, hrows]
    · simp [hpp, hrows]

/-- A row of the table after is the new one or was there before. -/
theorem mem_updatePpBest {row : BestScore} (h : row ∈ updatePpBest new rows) :
    row = new ∨ row ∈ rows := by
  unfold updatePpBest at h
  split at h
  · rcases List.mem_append.mp h with h | h
    · exact .inr h
    · exact .inl (List.mem_singleton.mp h)
  · split at h
    · rcases List.mem_append.mp h with h | h
      · exact .inr (List.mem_of_mem_filter h)
      · exact .inl (List.mem_singleton.mp h)
    · exact .inr h

theorem HoldsMax.toList {processed : List BestScore} (h : HoldsMax processed rows) :
    ∃ best : Option BestScore, rows = best.toList := by
  rcases h with ⟨-, rfl⟩ | ⟨best, rfl, -⟩
  · exact ⟨none, rfl⟩
  · exact ⟨some best, rfl⟩

/-- One more processed score. -/
theorem HoldsMax.update {processed : List BestScore}
    (h : HoldsMax (rowsOf new.key processed) (rowsOf new.key rows)) :
    HoldsMax (rowsOf new.key (processed ++ [new])) (rowsOf new.key (updatePpBest new rows)) := by
  have hnew : rowsOf new.key [new] = [new] := by rw [rowsOf_single, if_pos rfl]
  rw [rowsOf_append, hnew]
  rcases h with ⟨hpast, hrows⟩ | ⟨best, hrows, hbest, hmax⟩
  · rw [rowsOf_updatePpBest new (show _ = (none : Option BestScore).toList from hrows), hpast]
    exact .inr ⟨new, rfl, by simp, by simp⟩
  · rw [rowsOf_updatePpBest new (show _ = (some best).toList from hrows)]
    refine .inr ?_
    by_cases hpp : best.pp < new.pp
    · refine ⟨new, by simp [hpp], by simp, ?_⟩
      intro row hrow
      rcases List.mem_append.mp hrow with hrow | hrow
      · exact (hmax row hrow).trans hpp.le
      · rw [List.mem_singleton.mp hrow]
    · refine ⟨best, by simp [hpp], List.mem_append_left _ hbest, ?_⟩
      intro row hrow
      rcases List.mem_append.mp hrow with hrow | hrow
      · exact hmax row hrow
      · rw [List.mem_singleton.mp hrow]
        exact not_lt.mp hpp

end Rows

namespace PpTables

variable {t : PpTables}

/-- What a call does: the tables keep their keys, and the row of the score is placed if its PP is
awarded. -/
theorem process_cases (t : PpTables) (call : ScoreId × Option ℚ) :
    (∀ i, ((t.process srv call).scores.row i).map Score.key = (t.scores.row i).map Score.key) ∧
      (t.process srv call).bestScores =
        (t.awarded srv call).elim t.bestScores fun new => updatePpBest new t.bestScores := by
  have hmodify : ∀ (f : Score → Score), (∀ sc, (f sc).key = sc.key) → ∀ i,
      ((t.scores.modify call.1 f).row i).map Score.key = (t.scores.row i).map Score.key := by
    intro f hf i
    rw [Table.row_modify]
    split
    · rw [Option.map_map]
      exact Option.map_congr fun sc _ => hf sc
    · rfl
  unfold process awarded processScorePp
  cases t.scores.row call.1 with
  | none => exact ⟨fun _ => rfl, rfl⟩
  | some sc =>
    cases hcan : canGetPp srv sc with
    | false =>
      refine ⟨?_, by simp [hcan]⟩
      simpa [hcan] using hmodify (fun sc => { sc with pp := 0 }) fun _ => rfl
    | true =>
      cases hnew : awardedRow call.2 call.1 sc with
      | none => exact ⟨by simp [hcan, hnew], by simp [hcan, hnew]⟩
      | some new =>
        refine ⟨?_, by simp [hcan, hnew]⟩
        simpa [hcan, hnew] using hmodify (fun sc => { sc with pp := new.pp }) fun _ => rfl

/-- The row of a processed score has the key of the score. -/
theorem key_awarded {call : ScoreId × Option ℚ} {new : BestScore}
    (h : t.awarded srv call = some new) :
    (t.scores.row new.scoreId).map Score.key = some new.key := by
  obtain ⟨sc, hsc, h⟩ := Option.bind_eq_some_iff.mp h
  split at h
  · obtain ⟨pp, -, rfl⟩ := Option.map_eq_some_iff.mp h
    exact congrArg (Option.map Score.key) hsc
  · cases h

theorem Keyed.process (h : t.Keyed) (call : ScoreId × Option ℚ) :
    (t.process srv call).Keyed := by
  obtain ⟨hkeys, hbest⟩ := process_cases srv t call
  intro row hrow
  rw [hbest] at hrow
  have hrowKey : (t.scores.row row.scoreId).map Score.key = some row.key := by
    cases hnew : t.awarded srv call with
    | none =>
      rw [hnew] at hrow
      exact Option.map_eq_some_iff.mpr (h row hrow)
    | some new =>
      rw [hnew] at hrow
      rcases mem_updatePpBest hrow with rfl | hrow
      · exact key_awarded srv hnew
      · exact Option.map_eq_some_iff.mpr (h row hrow)
  rw [← hkeys] at hrowKey
  exact Option.map_eq_some_iff.mp hrowKey

theorem Keyed.key_eq (h : t.Keyed) :
    ∀ a ∈ t.bestScores, ∀ b ∈ t.bestScores, a.scoreId = b.scoreId → a.key = b.key := by
  intro a ha b hb hab
  obtain ⟨sc, hsc, hsca⟩ := h a ha
  obtain ⟨sc', hsc', hscb⟩ := h b hb
  rw [hab, hsc'] at hsc
  rw [← hsca, ← hscb, Option.some.inj hsc]

/-- The table holds the best of the processed scores of every key. -/
def HoldsBests (processed : List BestScore) (t : PpTables) : Prop :=
  ∀ k, HoldsMax (rowsOf k processed) (rowsOf k t.bestScores)

theorem HoldsBests.process {processed : List BestScore} (hkeyed : t.Keyed)
    (h : HoldsBests processed t) (call : ScoreId × Option ℚ) :
    HoldsBests (processed ++ (t.awarded srv call).toList) (t.process srv call) := by
  intro k
  rw [(process_cases srv t call).2]
  cases hnew : t.awarded srv call with
  | none => simpa using h k
  | some new =>
    show HoldsMax (rowsOf k (processed ++ [new])) (rowsOf k (updatePpBest new t.bestScores))
    by_cases hk : new.key = k
    · subst hk
      exact (h new.key).update
    · rw [rowsOf_updatePpBest_of_ne hk hkeyed.key_eq, rowsOf_append, rowsOf_single, if_neg hk,
        List.append_nil]
      exact h k

theorem HoldsBests.processAll {processed : List BestScore} (hkeyed : t.Keyed)
    (h : HoldsBests processed t) (calls : List (ScoreId × Option ℚ)) :
    HoldsBests (processed ++ awards srv calls t) (processAll srv calls t) := by
  induction calls generalizing processed t with
  | nil => simpa [awards, PpTables.processAll] using h
  | cons call calls ih =>
    have hrest := ih (hkeyed.process srv call) (h.process srv hkeyed call)
    rwa [List.append_assoc] at hrest

/-! ## The bests as a function of the key -/

/-- The row of the table for the best of a key. -/
def bestRow (k : MapKey) (row : PpRow) : BestScore :=
  ⟨k.userId, row.scoreId, k.beatmapId, k.mode, row.pp, row.acc⟩

/-- The table holds the row that `ppBest` has of each key. -/
def Represents (rows : List BestScore) (ppBest : MapKey → Option PpRow) : Prop :=
  ∀ k, rowsOf k rows = ((ppBest k).map (bestRow k)).toList

@[simp] theorem scores_placePpBest (sid : ScoreId) (sc : Score) (pp : ℚ) (s : State) :
    (placePpBest sid sc pp s).scores = s.scores := by
  unfold placePpBest
  split <;> rfl

theorem Represents.updatePpBest {s : State} {sid : ScoreId} {sc : Score} {pp : ℚ}
    {scores : Table Score} (hkeyed : t.Keyed) (h : Represents t.bestScores s.ppBest) :
    Represents (updatePpBest (BestScore.ofScore sid sc pp) t.bestScores)
      (placePpBest sid sc pp { s with scores := scores }).ppBest := by
  intro k
  unfold placePpBest
  by_cases hk : sc.key = k
  · subst hk
    have hbetter : ((s.ppBest sc.key).map (bestRow sc.key)).all
        (fun previous => decide (previous.pp < pp)) =
          (s.ppBest sc.key).all fun previous => decide (previous.pp < pp) := by
      cases s.ppBest sc.key <;> rfl
    refine (rowsOf_updatePpBest (BestScore.ofScore sid sc pp) (h sc.key)).trans ?_
    rw [show ((s.ppBest sc.key).map (bestRow sc.key)).all
      (fun previous => decide (previous.pp < (BestScore.ofScore sid sc pp).pp)) = _ from hbetter]
    split
    · simp [bestRow, BestScore.ofScore, Score.key]
    · rfl
  · have hk' : (BestScore.ofScore sid sc pp).key ≠ k := hk
    refine (rowsOf_updatePpBest_of_ne hk' hkeyed.key_eq).trans ((h k).trans ?_)
    split
    · simp [Function.update_of_ne (Ne.symm hk)]
    · rfl

/-- A call on the rows is the call on the state whose bests they are. -/
theorem processScorePp_refines {s : State} {calculated : Option ℚ} {sid : ScoreId} {sc : Score}
    {t' : PpTables} (hscores : t.scores = s.scores) (hkeyed : t.Keyed)
    (h : Represents t.bestScores s.ppBest)
    (hcall : t.processScorePp srv calculated sid sc = some t') :
    ∃ s', Scores.processScorePp srv calculated sid sc s = some s' ∧ t'.scores = s'.scores ∧
      Represents t'.bestScores s'.ppBest := by
  unfold processScorePp canGetPp at hcall
  unfold Scores.processScorePp
  split at hcall
  · next hcan =>
    obtain rfl := Option.some.inj hcall
    rw [if_pos hcan]
    exact ⟨_, rfl, by rw [hscores], h⟩
  · next hcan =>
    obtain ⟨new, hnew, rfl⟩ := Option.map_eq_some_iff.mp hcall
    obtain ⟨pp, hpp, rfl⟩ := Option.map_eq_some_iff.mp hnew
    rw [if_neg hcan, hpp]
    refine ⟨_, rfl, ?_, h.updatePpBest hkeyed⟩
    rw [scores_placePpBest, hscores]
    rfl

end PpTables

/-! ## The total -/

section Total

variable {negativeMaps : BeatmapId → Bool} {um : UserMode} {rows order : List BestScore}

theorem calculatePpWeight_nonneg (index : Nat) : 0 ≤ calculatePpWeight index := by
  unfold calculatePpWeight
  positivity

theorem calculateWeightedPp_nonneg (index : Nat) (pp : ℚ) : 0 ≤ calculateWeightedPp pp index := by
  unfold calculateWeightedPp
  split
  · next hpp => exact mul_nonneg (calculatePpWeight_nonneg index) hpp.le
  · exact le_rfl

theorem calculateWeightedPp_mono (index : Nat) (a b : ℚ) (hab : a ≤ b) :
    calculateWeightedPp a index ≤ calculateWeightedPp b index := by
  by_cases ha : 0 < a
  · rw [calculateWeightedPp, calculateWeightedPp, if_pos ha, if_pos (ha.trans_le hab)]
    exact mul_le_mul_of_nonneg_left hab (calculatePpWeight_nonneg index)
  · rw [calculateWeightedPp, if_neg ha]
    exact calculateWeightedPp_nonneg index b

/-- None of the rows of the user in the mode is on a penalised map. -/
def Unpenalised (negativeMaps : BeatmapId → Bool) (um : UserMode) (rows : List BestScore) : Prop :=
  ∀ row ∈ rowsIn um rows, negativeMaps row.beatmapId = false

/-- The sum reads the PP of the rows alone. -/
theorem ppSum_eq (h : ∀ row ∈ order, negativeMaps row.beatmapId = false) :
    ppSum negativeMaps order =
      positionSum (fun index pp => calculateWeightedPp pp index) (order.map (·.pp)) := by
  rw [← positionSum_eq, ppSum, List.zipIdx_map, List.map_map]
  refine congrArg List.sum (List.map_congr_left fun x hx => ?_)
  rw [h x.1 (List.fst_mem_of_mem_zipIdx hx)]
  simp

theorem before_total (a b : BestScore) : a.Before b ∨ b.Before a := by
  rcases lt_trichotomy a.pp b.pp with h | h | h
  · exact .inr (.inl h)
  · rcases Nat.le_total a.scoreId b.scoreId with hid | hid
    · exact .inr (.inr ⟨h.symm, hid⟩)
    · exact .inl (.inr ⟨h, hid⟩)
  · exact .inl (.inl h)

theorem before_trans (a b c : BestScore) (hab : a.Before b) (hbc : b.Before c) : a.Before c := by
  rcases hab with hab | ⟨hab, hid⟩
  · rcases hbc with hbc | ⟨hbc, -⟩
    · exact .inl (hbc.trans hab)
    · exact .inl (hbc ▸ hab)
  · rcases hbc with hbc | ⟨hbc, hid'⟩
    · exact .inl (hab ▸ hbc)
    · exact .inr ⟨hab.trans hbc, hid'.trans hid⟩

instance : Std.Total BestScore.Before := ⟨before_total⟩

instance : IsTrans BestScore BestScore.Before := ⟨before_trans⟩

theorem BestScore.Before.pp_le {a b : BestScore} (h : a.Before b) : b.pp ≤ a.pp := by
  rcases h with h | ⟨h, -⟩
  · exact h.le
  · exact h.ge

/-- All rows of the user in the mode, in the order of the query. -/
theorem getUserBestPp_pp (rows : List BestScore) (um : UserMode) (limit : Nat) :
    ∃ pps : List ℚ, pps.Pairwise (· ≥ ·) ∧ pps.Perm ((rowsIn um rows).map (·.pp)) ∧
      (getUserBestPp rows um limit).map (·.pp) = pps.take limit := by
  refine ⟨((rowsIn um rows).insertionSort BestScore.Before).map (·.pp), ?_, ?_, ?_⟩
  · refine List.pairwise_map.mpr ?_
    exact (List.pairwise_insertionSort BestScore.Before (rowsIn um rows)).imp fun h => h.pp_le
  · exact (List.perm_insertionSort _ _).map _
  · rw [getUserBestPp, List.map_take]

theorem mem_getUserBestPp {row : BestScore} {limit : Nat} (h : row ∈ getUserBestPp rows um limit) :
    row ∈ rowsIn um rows :=
  (List.mem_insertionSort _).mp (List.mem_of_mem_take h)

/-- The total is the sum over the PP of the user's rows in falling order. -/
theorem calculateUserPp_eq (hrows : Unpenalised negativeMaps um rows) {pps : List ℚ}
    (hfalling : pps.Pairwise (· ≥ ·)) (hperm : pps.Perm ((rowsIn um rows).map (·.pp))) :
    (calculateUserPp negativeMaps rows um).1 =
      positionSum (fun index pp => calculateWeightedPp pp index) (pps.take 1000) := by
  obtain ⟨sorted, hsorted, hsortedPerm, htake⟩ := getUserBestPp_pp rows um 1000
  have heq : sorted = pps :=
    (hsortedPerm.trans hperm.symm).eq_of_pairwise' hsorted hfalling
  rw [calculateUserPp, ppSum_eq fun row hrow => hrows row (mem_getUserBestPp hrow), htake, heq]

/-- Rows of equal PP may stand in any order. -/
theorem calculateUserPp_order (hrows : Unpenalised negativeMaps um rows)
    (hperm : order.Perm (rowsIn um rows)) (hfalling : order.Pairwise fun a b => b.pp ≤ a.pp) :
    ppSum negativeMaps (order.take 1000) = (calculateUserPp negativeMaps rows um).1 := by
  rw [calculateUserPp_eq hrows (List.pairwise_map.mpr hfalling) (hperm.map _), ppSum_eq,
    List.map_take]
  exact fun row hrow => hrows row (hperm.mem_iff.mp (List.mem_of_mem_take hrow))

/-- The total follows the counts. -/
theorem calculateUserPp_mono {rows' : List BestScore} (hrows : Unpenalised negativeMaps um rows)
    (hrows' : Unpenalised negativeMaps um rows')
    (h : CountsBelow ((rowsIn um rows).map (·.pp)) ((rowsIn um rows').map (·.pp))) :
    (calculateUserPp negativeMaps rows um).1 ≤ (calculateUserPp negativeMaps rows' um).1 := by
  obtain ⟨pps, hfalling, hperm, -⟩ := getUserBestPp_pp rows um 1000
  obtain ⟨pps', hfalling', hperm', -⟩ := getUserBestPp_pp rows' um 1000
  rw [calculateUserPp_eq hrows hfalling hperm, calculateUserPp_eq hrows' hfalling' hperm']
  exact positionSum_le calculateWeightedPp_nonneg calculateWeightedPp_mono hfalling hfalling'
    ((h.perm_left hperm).perm_right hperm') 1000

/-- One row more. -/
theorem calculateUserPp_add (row : BestScore) (h : Unpenalised negativeMaps um (row :: rows)) :
    (calculateUserPp negativeMaps rows um).1 ≤
      (calculateUserPp negativeMaps (row :: rows) um).1 := by
  have hsub : List.Sublist (rowsIn um rows) (rowsIn um (row :: rows)) :=
    (List.sublist_cons_self row rows).filter _
  refine calculateUserPp_mono (fun row' hrow' => h row' (hsub.subset hrow')) h ?_
  intro t
  exact (hsub.map _).countP_le

/-- More PP in place of a row. -/
theorem calculateUserPp_raise {before after : List BestScore} {row row' : BestScore}
    (h : Unpenalised negativeMaps um (before ++ row :: after)) (hkey : row'.key = row.key)
    (hpp : row.pp ≤ row'.pp) :
    (calculateUserPp negativeMaps (before ++ row :: after) um).1 ≤
      (calculateUserPp negativeMaps (before ++ row' :: after) um).1 := by
  by_cases hum : row.key.userMode = um
  · have hum' : row'.key.userMode = um := hkey ▸ hum
    have hsplit : ∀ r : BestScore, r.key.userMode = um →
        rowsIn um (before ++ r :: after) = rowsIn um before ++ r :: rowsIn um after := by
      intro r hr
      simp [rowsIn, List.filter_append, hr]
    have hmap : row'.beatmapId = row.beatmapId := congrArg MapKey.beatmapId hkey
    refine calculateUserPp_mono h ?_ ?_
    · intro r hr
      rw [hsplit row' hum'] at hr
      rw [Unpenalised, hsplit row hum] at h
      rcases List.mem_append.mp hr with hr | hr
      · exact h r (List.mem_append_left _ hr)
      · rcases List.mem_cons.mp hr with rfl | hr
        · rw [hmap]
          exact h row (by simp)
        · exact h r (by simp [hr])
    · rw [hsplit row hum, hsplit row' hum', List.map_append, List.map_append, List.map_cons,
        List.map_cons]
      exact CountsBelow.replace _ _ hpp
  · have hum' : row'.key.userMode ≠ um := hkey ▸ hum
    have hsame : rowsIn um (before ++ row' :: after) = rowsIn um (before ++ row :: after) := by
      simp [rowsIn, List.filter_append, hum, hum']
    rw [calculateUserPp, calculateUserPp, getUserBestPp, getUserBestPp, hsame]

theorem clamp_mem (n : ℚ) : 0 ≤ clamp n 0 100 ∧ clamp n 0 100 ≤ 100 := by
  unfold clamp
  split
  · norm_num
  · next h =>
    split
    · norm_num
    · next h' => exact ⟨not_lt.mp h, not_lt.mp h'⟩

end Total

/-- The scores that `_process_score_pp` has processed leave one row of each user, map and mode,
with the greatest PP, and the total over rows on maps without a penalty does not depend on the
order of equal PP and does not fall. -/
theorem total_pp_sound (scores : Table Score) (calls : List (ScoreId × Option ℚ)) :
    (∀ k, HoldsMax (rowsOf k (PpTables.awards srv calls ⟨scores, []⟩))
      (rowsOf k (PpTables.processAll srv calls ⟨scores, []⟩).bestScores)) ∧
    ∀ (negativeMaps : BeatmapId → Bool) (um : UserMode) (rows : List BestScore),
      (Unpenalised negativeMaps um rows → ∀ order : List BestScore, order.Perm (rowsIn um rows) →
        order.Pairwise (fun a b => b.pp ≤ a.pp) →
          ppSum negativeMaps (order.take 1000) = (calculateUserPp negativeMaps rows um).1) ∧
      (∀ row, Unpenalised negativeMaps um (row :: rows) →
        (calculateUserPp negativeMaps rows um).1 ≤
          (calculateUserPp negativeMaps (row :: rows) um).1) ∧
      (∀ before row row' after, rows = before ++ row :: after → row'.key = row.key →
        row.pp ≤ row'.pp → Unpenalised negativeMaps um rows →
          (calculateUserPp negativeMaps rows um).1 ≤
            (calculateUserPp negativeMaps (before ++ row' :: after) um).1) ∧
      0 ≤ (calculateUserPp negativeMaps rows um).2 ∧
      (calculateUserPp negativeMaps rows um).2 ≤ 100 := by
  refine ⟨?_, fun negativeMaps um rows => ⟨?_, ?_, ?_, clamp_mem _⟩⟩
  · have hkeyed : PpTables.Keyed ⟨scores, []⟩ := fun row hrow => absurd hrow List.not_mem_nil
    have hempty : PpTables.HoldsBests [] ⟨scores, []⟩ := fun k => .inl ⟨rfl, rfl⟩
    exact hempty.processAll srv hkeyed calls
  · intro hrows order hperm hfalling
    exact calculateUserPp_order hrows hperm hfalling
  · intro row hrows
    exact calculateUserPp_add row hrows
  · rintro before row row' after rfl hkey hpp hrows
    exact calculateUserPp_raise hrows hkey hpp

end Soms.Scores

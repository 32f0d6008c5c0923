import Mathlib.Algebra.Order.Field.Rat
import Mathlib.Tactic.Linarith
import Soms.Rankings.Refresh

/-!
# The pages of the top scores

`refresh_top_scores_cache`.  In which order the database returns scores of equal pp is not known and
may differ from query to query.
-/

namespace Soms.Rankings.TopScores

open Scores (GameMode)
open Refresh (ScoreRow)

/-- `sys.maxsize` -/
def maxsize : ℚ := 9223372036854775807

structure Tables where
  scores : List ScoreRow
  primaryKey : (scores.map ScoreRow.id).Nodup
  /-- `score_id` and `gamemode` of the rows of `best_scores`. -/
  best : List (Nat × GameMode)

/-- `wheres` -/
def Tables.bestScores (t : Tables) (ruleset : GameMode) : List ScoreRow :=
  t.scores.filter fun score => score.gamemode == ruleset && t.best.contains (score.id, ruleset)

/-- How the queries of a call order their rows by falling pp. -/
structure Orders where
  byPp : Nat → List ScoreRow → List ScoreRow
  perm : ∀ query rows, (byPp query rows).Perm rows
  falling : ∀ query rows, (byPp query rows).Pairwise fun a b => b.pp ≤ a.pp

/-- `cursor` -/
def cursor (orders : Orders) (rows : List ScoreRow) (page : Nat) : Option ℚ :=
  if page = 1 then some maxsize
  else ((orders.byPp (2 * page) rows).drop ((page - 1) * 50 - 1)).head?.map ScoreRow.pp

/-- `scores` -/
def scoresFrom (orders : Orders) (rows : List ScoreRow) (page : Nat) (cursor : ℚ) :
    List ScoreRow :=
  (orders.byPp (2 * page + 1) (rows.filter fun score => score.pp ≤ cursor)).take 50

/-- The pages that are left of the loop. -/
def pagesFrom (orders : Orders) (rows : List ScoreRow) (page : Nat) : Nat → List (List ScoreRow)
  | 0 => []
  | left + 1 =>
    match cursor orders rows page with
    | none => []
    | some cursor =>
      scoresFrom orders rows page cursor :: pagesFrom orders rows (page + 1) left

/-- The pages that `refresh_top_scores_cache` caches, from the first on. -/
def refreshTopScoresCache (orders : Orders) (t : Tables) (ruleset : GameMode) (maxPages : Nat) :
    List (List ScoreRow) :=
  pagesFrom orders (t.bestScores ruleset) 1 maxPages

/-- The pages list best scores by falling pp, none of them twice, and as many pages as there are
up to one leave a score out only if they are full of scores that are not below it. -/
structure Partition (rows : List ScoreRow) (maxPages : Nat) (pages : List (List ScoreRow)) :
    Prop where
  falling : pages.flatten.Pairwise fun a b => b.pp ≤ a.pp
  once : (pages.flatten.map ScoreRow.id).Nodup
  listed : ∀ score ∈ pages.flatten, score ∈ rows
  complete : ∀ page ≤ maxPages, ∀ score ∈ rows, score ∉ (pages.take page).flatten →
    (pages.take page).flatten.length = 50 * page ∧
      ∀ other ∈ (pages.take page).flatten, score.pp ≤ other.pp

variable {orders : Orders} {rows : List ScoreRow} {maxPages left : Nat}

/-! ### One page -/

theorem mem_scoresFrom {page : Nat} {cursor : ℚ} {score : ScoreRow}
    (h : score ∈ scoresFrom orders rows page cursor) : score ∈ rows ∧ score.pp ≤ cursor := by
  have hmem := (orders.perm _ _).subset (List.mem_of_mem_take h)
  simpa using hmem

/-- The first page lists the best scores if none of them is above the first cursor. -/
theorem partition_single (hids : (rows.map ScoreRow.id).Nodup) (hbound : ∀ score ∈ rows,
    score.pp ≤ maxsize) (hpages : maxPages = 1 ∨ rows.length < 50) :
    Partition rows maxPages [scoresFrom orders rows 1 maxsize] := by
  have hall : rows.filter (fun score => decide (score.pp ≤ maxsize)) = rows :=
    List.filter_eq_self.mpr fun score hmem => decide_eq_true (hbound score hmem)
  have hperm := orders.perm (2 * 1 + 1) rows
  have hfalling := orders.falling (2 * 1 + 1) rows
  unfold scoresFrom
  rw [hall]
  generalize orders.byPp (2 * 1 + 1) rows = sorted at *
  refine
    { falling := ?_
      once := ?_
      listed := fun score hmem => ?_
      complete := fun page hpage score hmem hleft => ?_ }
  · rw [List.flatten_singleton]
    exact hfalling.sublist (List.take_sublist 50 sorted)
  · rw [List.flatten_singleton]
    exact ((hperm.map ScoreRow.id).nodup_iff.mpr hids).sublist
      ((List.take_sublist 50 sorted).map ScoreRow.id)
  · rw [List.flatten_singleton] at hmem
    exact hperm.subset (List.mem_of_mem_take hmem)
  · cases page with
    | zero => simp
    | succ page =>
      have htake : (List.take (page + 1) [sorted.take 50]).flatten = sorted.take 50 := by simp
      rw [htake] at hleft ⊢
      have hsplit := List.take_append_drop 50 sorted
      have hmem : score ∈ sorted.drop 50 := by
        have hsorted := hperm.mem_iff.mpr hmem
        rw [← hsplit, List.mem_append] at hsorted
        exact hsorted.resolve_left hleft
      have hlength : 50 < rows.length := by
        have hpos := List.length_pos_of_mem hmem
        rw [List.length_drop, hperm.length_eq] at hpos
        omega
      rw [← hsplit] at hfalling
      refine ⟨?_, fun other hother =>
        (List.pairwise_append.mp hfalling).2.2 other hother score hmem⟩
      rw [List.length_take, hperm.length_eq]
      omega

/-! ### All pages -/

theorem pagesFrom_first (orders : Orders) (rows : List ScoreRow) (left : Nat) :
    pagesFrom orders rows 1 (left + 1) =
      scoresFrom orders rows 1 maxsize :: pagesFrom orders rows 2 left := rfl

/-- Without fifty scores there is no second page. -/
theorem pagesFrom_few (hfew : rows.length < 50) : pagesFrom orders rows 2 left = [] := by
  cases left with
  | zero => rfl
  | succ left =>
    have hnone : (orders.byPp 4 rows).drop 49 = [] := by
      apply List.drop_eq_nil_of_le
      have hlength := (orders.perm 4 rows).length_eq
      omega
    have hcursor : cursor orders rows 2 = none := by
      show (((orders.byPp 4 rows).drop 49).head?.map ScoreRow.pp) = none
      rw [hnone]
      rfl
    rw [pagesFrom, hcursor]

/-- Some score above the first cursor is on no page. -/
theorem not_partition_above {score : ScoreRow} (hmem : score ∈ rows) (habove : maxsize < score.pp) :
    ¬ Partition rows (left + 1) (pagesFrom orders rows 1 (left + 1)) := by
  intro h
  have hfirst : ((pagesFrom orders rows 1 (left + 1)).take 1).flatten =
      scoresFrom orders rows 1 maxsize := by
    rw [pagesFrom_first]
    simp
  have hcomplete := h.complete 1 (by omega) score hmem
  rw [hfirst] at hcomplete
  obtain ⟨hfull, hbelow⟩ := hcomplete fun hlisted =>
    absurd (mem_scoresFrom hlisted).2 (not_le_of_gt habove)
  have hpos : 0 < (scoresFrom orders rows 1 maxsize).length := by omega
  obtain ⟨other, hother⟩ := List.exists_mem_of_length_pos hpos
  have hcursor := (mem_scoresFrom hother).2
  exact absurd (hbelow other hother) (not_le_of_gt (lt_of_le_of_lt hcursor habove))

/-! ### Equal pp by id -/

/-- By falling pp, and equal ones by id. -/
def Before (a b : ScoreRow) : Prop := b.pp < a.pp ∨ a.pp = b.pp ∧ a.id ≤ b.id

instance : DecidableRel Before := fun _ _ => inferInstanceAs (Decidable (_ ∨ _))

theorem Before.total (a b : ScoreRow) : Before a b ∨ Before b a := by
  unfold Before
  rcases lt_trichotomy a.pp b.pp with hlt | heq | hgt
  · exact .inr (.inl hlt)
  · rcases Nat.le_total a.id b.id with hle | hle
    · exact .inl (.inr ⟨heq, hle⟩)
    · exact .inr (.inr ⟨heq.symm, hle⟩)
  · exact .inl (.inl hgt)

theorem Before.trans {a b c : ScoreRow} (hab : Before a b) (hbc : Before b c) : Before a c := by
  unfold Before at *
  rcases hab with hab | ⟨hab, hid⟩
  · rcases hbc with hbc | ⟨hbc, -⟩
    · exact .inl (hbc.trans hab)
    · exact .inl (hbc ▸ hab)
  · rcases hbc with hbc | ⟨hbc, hid'⟩
    · exact .inl (hab ▸ hbc)
    · exact .inr ⟨hab.trans hbc, hid.trans hid'⟩

theorem Before.le {a b : ScoreRow} (h : Before a b) : b.pp ≤ a.pp :=
  h.elim le_of_lt fun h => le_of_eq h.1.symm

instance : Std.Total Before := ⟨Before.total⟩

instance : IsTrans ScoreRow Before := ⟨fun _ _ _ => Before.trans⟩

theorem sort_before (rows : List ScoreRow) : (rows.insertionSort Before).Pairwise Before :=
  List.pairwise_insertionSort Before rows

def byId : Orders where
  byPp _ rows := rows.insertionSort Before
  perm _ rows := List.perm_insertionSort Before rows
  falling _ rows := (sort_before rows).imp Before.le

/-- The first score of the second page is on the first page, too. -/
theorem head_mem_first (hids : (rows.map ScoreRow.id).Nodup) {before after : List ScoreRow}
    {last first : ScoreRow} (hsorted : rows.insertionSort Before = before ++ last :: after)
    {rest : List ScoreRow}
    (hpage : (rows.filter fun score => score.pp ≤ last.pp).insertionSort Before = first :: rest) :
    first ∈ before ++ [last] := by
  have hmem : ∀ score, score ∈ before ++ last :: after ↔ score ∈ rows := fun score => by
    rw [← hsorted]
    exact (List.perm_insertionSort Before rows).mem_iff
  have hbelow : ∀ score, score ∈ first :: rest ↔ score ∈ rows ∧ score.pp ≤ last.pp := by
    intro score
    rw [← hpage, (List.perm_insertionSort Before _).mem_iff]
    simp
  have hfirst := ((hbelow first).mp List.mem_cons_self).1
  have hlast : last ∈ first :: rest :=
    (hbelow last).mpr ⟨(hmem last).mp (by simp), le_refl _⟩
  rcases List.mem_cons.mp hlast with rfl | hlast
  · simp
  · have hrows := sort_before rows
    have hpairwise := sort_before (rows.filter fun score => score.pp ≤ last.pp)
    rw [hsorted] at hrows
    rw [hpage] at hpairwise
    have hle : Before first last := (List.pairwise_cons.mp hpairwise).1 last hlast
    have hmem := (hmem first).mpr hfirst
    rw [List.mem_append, List.mem_cons] at hmem
    rw [List.mem_append, List.mem_singleton]
    rcases hmem with hmem | rfl | hmem
    · exact .inl hmem
    · exact .inr rfl
    · have hge : Before last first :=
        (List.pairwise_cons.mp (List.pairwise_append.mp hrows).2.1).1 first hmem
      refine .inr (List.inj_on_of_nodup_map hids hfirst ((hbelow last).mp (by simp [hlast])).1 ?_)
      rcases hle with hlt | ⟨heq, hid⟩
      · exact absurd hge.le (not_le_of_gt hlt)
      · rcases hge with hlt | ⟨-, hid'⟩
        · exact absurd heq (ne_of_lt hlt)
        · exact Nat.le_antisymm hid hid'

/-- A second page repeats a score of the first. -/
theorem not_partition_second (hids : (rows.map ScoreRow.id).Nodup)
    (hbound : ∀ score ∈ rows, score.pp ≤ maxsize) (hfifty : 50 ≤ rows.length) :
    ¬ Partition rows (left + 2) (pagesFrom byId rows 1 (left + 2)) := by
  intro h
  have hlength := (List.perm_insertionSort Before rows).length_eq
  have hall : rows.filter (fun score => decide (score.pp ≤ maxsize)) = rows :=
    List.filter_eq_self.mpr fun score hmem => decide_eq_true (hbound score hmem)
  cases hdrop : (rows.insertionSort Before).drop 49 with
  | nil =>
    have hshort := List.drop_eq_nil_iff.mp hdrop
    omega
  | cons last after =>
    have hsorted : rows.insertionSort Before =
        (rows.insertionSort Before).take 49 ++ last :: after := by
      rw [← hdrop, List.take_append_drop]
    have htake : (rows.insertionSort Before).take 50 =
        (rows.insertionSort Before).take 49 ++ [last] := by
      rw [List.take_add_one, ← List.head?_drop, hdrop]
      rfl
    have hfirst : scoresFrom byId rows 1 maxsize = (rows.insertionSort Before).take 50 := by
      show ((rows.filter _).insertionSort Before).take 50 = _
      rw [hall]
    have hcursor : cursor byId rows 2 = some last.pp := by
      show (((rows.insertionSort Before).drop 49).head?.map ScoreRow.pp) = some last.pp
      rw [hdrop]
      rfl
    cases hpage : (rows.filter fun score => score.pp ≤ last.pp).insertionSort Before with
    | nil =>
      have hlast : last ∈ rows.filter fun score => score.pp ≤ last.pp := by
        rw [List.mem_filter, ← (List.perm_insertionSort Before rows).mem_iff, hsorted]
        simp
      rw [← (List.perm_insertionSort Before _).mem_iff, hpage] at hlast
      cases hlast
    | cons first rest =>
      have hagain : first ∈ scoresFrom byId rows 1 maxsize := by
        rw [hfirst, htake]
        exact head_mem_first hids hsorted hpage
      have hsecond : first ∈ scoresFrom byId rows 2 last.pp := by
        show first ∈ ((rows.filter fun score => score.pp ≤ last.pp).insertionSort Before).take 50
        rw [hpage]
        exact List.mem_cons_self
      have honce := h.once
      rw [pagesFrom_first, pagesFrom, hcursor, List.flatten_cons, List.flatten_cons,
        List.map_append, List.map_append] at honce
      exact (List.nodup_append'.mp honce).2.2 (List.mem_map_of_mem hagain)
        (List.mem_append_left _ (List.mem_map_of_mem hsecond))

theorem partition_nil : Partition rows 0 [] := by
  constructor <;> simp

/-- For every table the pages are a partition however ties are resolved if and only if no page is
asked for, or no score is above the first cursor and one page is asked for or enough. -/
theorem partition_iff (t : Tables) (ruleset : GameMode) (maxPages : Nat) :
    (∀ orders, Partition (t.bestScores ruleset) maxPages
        (refreshTopScoresCache orders t ruleset maxPages)) ↔
      maxPages = 0 ∨ (∀ score ∈ t.bestScores ruleset, score.pp ≤ maxsize) ∧
        (maxPages = 1 ∨ (t.bestScores ruleset).length < 50) := by
  have hids : ((t.bestScores ruleset).map ScoreRow.id).Nodup :=
    t.primaryKey.sublist (List.filter_sublist.map ScoreRow.id)
  constructor
  · intro h
    cases maxPages with
    | zero => exact .inl rfl
    | succ left =>
      have hbound : ∀ score ∈ t.bestScores ruleset, score.pp ≤ maxsize := fun score hmem =>
        le_of_not_gt fun habove => not_partition_above hmem habove (h byId)
      refine .inr ⟨hbound, ?_⟩
      cases left with
      | zero => exact .inl rfl
      | succ left =>
        exact .inr (Nat.lt_of_not_le fun hfifty =>
          not_partition_second hids hbound hfifty (h byId))
  · intro h orders
    cases maxPages with
    | zero => exact partition_nil
    | succ left =>
      obtain ⟨hbound, hpages⟩ := h.resolve_left (Nat.succ_ne_zero left)
      have hone : pagesFrom orders (t.bestScores ruleset) 2 left = [] := by
        rcases hpages with hleft | hfew
        · rw [Nat.succ.inj hleft]
          rfl
        · exact pagesFrom_few hfew
      rw [refreshTopScoresCache, pagesFrom_first, hone]
      exact partition_single hids hbound hpages

/-- Fifty best scores, with 0 to 49 pp. -/
def fiftyScores : Tables where
  scores := (List.range 50).map fun i => ⟨i, .osu, i⟩
  primaryKey := by
    rw [List.map_map]
    exact (List.map_id _).symm ▸ List.nodup_range
  best := (List.range 50).map fun i => (i, .osu)

theorem fiftyScores_all : fiftyScores.bestScores .osu = fiftyScores.scores := by
  refine List.filter_eq_self.mpr fun score hmem => ?_
  obtain ⟨i, hi, rfl⟩ := List.mem_map.mp hmem
  have hbest : (i, GameMode.osu) ∈ fiftyScores.best := List.mem_map.mpr ⟨i, hi, rfl⟩
  simp [hbest]

/-- The second page lists a score of the first again. -/
theorem not_partition_fiftyScores : ¬ Partition (fiftyScores.bestScores .osu) 2
    (refreshTopScoresCache byId fiftyScores .osu 2) := by
  rw [refreshTopScoresCache, fiftyScores_all]
  refine not_partition_second fiftyScores.primaryKey (fun score hmem => ?_) (by decide)
  obtain ⟨i, hi, rfl⟩ := List.mem_map.mp hmem
  have hlt : (i : ℚ) < 50 := by exact_mod_cast List.mem_range.mp hi
  show (i : ℚ) ≤ maxsize
  unfold maxsize
  linarith

end Soms.Rankings.TopScores

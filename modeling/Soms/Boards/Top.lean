import Soms.Boards.Leaderboard
import Soms.Library.Firsts

/-!
# The top of a leaderboard

`get_leaderboard` reads the rows by falling totals, and where it meets further rows of a user it
asks for as many more below the lowest total that it has read.  Rows of that total which it has not
read are skipped, and rows that it has no need to read stay in the count.
-/

namespace Soms.Boards

open Soms.Scores (BeatmapId GameMode Settings)

/-- The number of users with rows. -/
abbrev userCount (rows : List TotalScoreBestScore) : Nat := keyCount (·.userId) rows

/-- The scores and the count are those of the best `limit` users. -/
structure IsTop (rows : List TotalScoreBestScore) (limit : Nat)
    (scores : List TotalScoreBestScore) (count : Int) : Prop where
  nodup : (scores.map (·.userId)).Nodup
  highest : ∀ s ∈ scores, s ∈ rows ∧ ∀ row ∈ rows, row.userId = s.userId →
    row.totalScore ≤ s.totalScore
  falling : scores.Pairwise fun a b => b.totalScore ≤ a.totalScore
  length : scores.length = min limit (userCount rows)
  best : ∀ row ∈ rows, row.userId ∉ scores.map (·.userId) → ∀ s ∈ scores,
    row.totalScore ≤ s.totalScore
  count : count = userCount rows

/-- The lowest total of rows with falling totals. -/
def boundOf (rows : List TotalScoreBestScore) : Nat :=
  (rows.getLast?.map (·.totalScore)).getD sysMaxsize

/-- Where the query after that of the row `n` starts: as many rows further as users are missing. -/
def advance (rows : List TotalScoreBestScore) (limit n : Nat) : Nat :=
  n + (limit - userCount (rows.take n))

/-- The row comes below the bound of a query that starts with it. -/
def Below (rows : List TotalScoreBestScore) (limit n : Nat) : Prop :=
  userCount (rows.take n) < limit → ∀ row ∈ rows[n]?, row.totalScore < boundOf (rows.take n)

/-- No query that starts with users missing starts behind a row of the same total, and the first one
starts below `sys.maxsize`.  No row of a user with a row before it comes after `limit` users. -/
structure Readable (rows : List TotalScoreBestScore) (limit : Nat) : Prop where
  gaps : ∀ k, Below rows limit ((advance rows limit)^[k] 0)
  repeats : ∀ n, ∀ row ∈ rows[n]?, row.userId ∈ (rows.take n).map (·.userId) →
    userCount (rows.take n) < limit

/-! ## One round -/

/-- The variables after some rows. -/
def progressOf (total : Nat) (read : List TotalScoreBestScore) (extraNeed : Nat) : Progress where
  scores := firsts (·.userId) read
  count := total - read.length + userCount read
  extraNeed
  maxScore := boundOf read

section Round

variable {rows read chunk : List TotalScoreBestScore} {s : TotalScoreBestScore}
  {total need limit fuel n : Nat}

@[simp] theorem boundOf_concat : boundOf (read ++ [s]) = s.totalScore := by
  simp [boundOf]

theorem boundOf_le (hfalling : read.Pairwise fun a b => b.totalScore ≤ a.totalScore) :
    ∀ a ∈ read, boundOf read ≤ a.totalScore := by
  induction read using List.reverseRecOn with
  | nil => simp
  | append_singleton read s _ =>
    intro a ha
    rw [boundOf_concat]
    rcases List.mem_append.mp ha with ha | ha
    · exact (List.pairwise_append.mp hfalling).2.2 a ha s (List.mem_singleton_self s)
    · rw [List.mem_singleton.mp ha]

/-- A row with the lowest total adds its user or is counted off. -/
theorem take_progressOf (hbound : s.totalScore ≤ boundOf read)
    (hread : ∀ a ∈ read, s.totalScore ≤ a.totalScore) :
    (progressOf total read need).take s = progressOf total (read ++ [s])
      (need + if s.userId ∈ read.map (·.userId) then 1 else 0) := by
  have hmax : (if s.totalScore < (progressOf total read need).maxScore then s.totalScore
      else (progressOf total read need).maxScore) = s.totalScore := by
    show (if s.totalScore < boundOf read then s.totalScore else boundOf read) = s.totalScore
    split <;> omega
  unfold Progress.take
  cases hfind : (progressOf total read need).scores.find? fun old => old.userId == s.userId with
  | some old =>
    have hmem : old ∈ firsts (·.userId) read := List.mem_of_find?_eq_some hfind
    have huser : old.userId = s.userId := by simpa using List.find?_some hfind
    have hold : ¬ old.totalScore < s.totalScore :=
      Nat.not_lt.mpr (hread old (firsts_sublist.subset hmem))
    have hknown : s.userId ∈ read.map (·.userId) :=
      mem_keys_firsts.mp (huser ▸ List.mem_map_of_mem hmem)
    dsimp only
    rw [if_neg hold, if_pos hknown, hmax]
    have hsame : firsts (·.userId) (read ++ [s]) = firsts (·.userId) read := by
      rw [firsts_concat, keepFirst, if_pos]
      exact List.any_eq_true.mpr ⟨old, hmem, by simpa using huser⟩
    simp only [progressOf, hsame, boundOf_concat, userCount, keyCount_concat, if_pos hknown,
      List.length_append, List.length_singleton, Progress.mk.injEq, and_true, true_and]
    omega
  | none =>
    have hnew : ∀ old ∈ firsts (·.userId) read, old.userId ≠ s.userId := by
      intro old hold
      simpa using List.find?_eq_none.mp hfind old hold
    have hunknown : s.userId ∉ read.map (·.userId) := by
      rw [← mem_keys_firsts, List.mem_map]
      rintro ⟨old, hold, huser⟩
      exact hnew old hold huser
    dsimp only
    rw [if_neg hunknown, hmax]
    have hmore : firsts (·.userId) (read ++ [s]) = firsts (·.userId) read ++ [s] := by
      rw [firsts_concat, keepFirst, if_neg]
      simpa using hnew
    simp only [progressOf, hmore, boundOf_concat, userCount, keyCount_concat, if_neg hunknown,
      List.length_append, List.length_singleton, Progress.mk.injEq, and_true, true_and]
    omega

/-- The rows of a query that were read in vain. -/
def inVain (read chunk : List TotalScoreBestScore) : Nat :=
  chunk.length + userCount read - userCount (read ++ chunk)

theorem userCount_append (read chunk : List TotalScoreBestScore) :
    userCount (read ++ chunk) + inVain read chunk = userCount read + chunk.length := by
  have hle : userCount (read ++ chunk) ≤ userCount read + chunk.length := keyCount_append_le
  unfold inVain
  omega

/-- A query adds its users and counts off the other rows. -/
theorem foldl_progressOf (total need : Nat)
    (hchunk : chunk.Pairwise fun a b => b.totalScore ≤ a.totalScore)
    (hbound : ∀ s ∈ chunk, s.totalScore ≤ boundOf read)
    (hread : ∀ s ∈ chunk, ∀ a ∈ read, s.totalScore ≤ a.totalScore) :
    chunk.foldl Progress.take (progressOf total read need) =
      progressOf total (read ++ chunk) (need + inVain read chunk) := by
  induction chunk generalizing read need with
  | nil =>
    have hnone : inVain read [] = 0 := by simp [inVain]
    rw [List.foldl_nil, List.append_nil, hnone]
    rfl
  | cons s chunk ih =>
    obtain ⟨hs, hchunk⟩ := List.pairwise_cons.mp hchunk
    rw [List.foldl_cons, take_progressOf (hbound s List.mem_cons_self) (hread s List.mem_cons_self),
      ih _ hchunk]
    · have hall := userCount_append read (s :: chunk)
      have hrest := userCount_append (read ++ [s]) chunk
      have hone : userCount (read ++ [s]) =
          userCount read + if s.userId ∈ read.map (·.userId) then 0 else 1 := keyCount_concat
      rw [List.append_assoc, List.singleton_append] at hrest
      rw [List.append_assoc, List.singleton_append]
      congr 1
      rw [List.length_cons] at hall
      split at hone <;> simp only [*, if_true, if_false] <;> omega
    · intro b hb
      rw [boundOf_concat]
      exact hs b hb
    · intro b hb a ha
      rcases List.mem_append.mp ha with ha | ha
      · exact hread b (List.mem_cons_of_mem _ hb) a ha
      · rw [List.mem_singleton.mp ha]
        exact hs b hb

/-! ## The rounds -/

/-- The rows that the loop reads. -/
def readRows (rows : List TotalScoreBestScore) : Nat → Nat → List TotalScoreBestScore →
    Option (List TotalScoreBestScore)
  | _, 0, read => some read
  | 0, _ + 1, _ => none
  | fuel + 1, limit + 1, read =>
    let chunk := page rows (limit + 1) (boundOf read)
    readRows rows fuel (inVain read chunk) (read ++ chunk)

/-- Rows by falling totals fall into those from a bound on and those below it. -/
theorem falling_split (hfalling : rows.Pairwise fun a b => b.totalScore ≤ a.totalScore)
    (bound : Nat) : rows = (rows.filter fun row => decide (bound ≤ row.totalScore)) ++
      rows.filter fun row => decide (row.totalScore < bound) := by
  induction rows with
  | nil => rfl
  | cons s rows ih =>
    obtain ⟨hs, hrows⟩ := List.pairwise_cons.mp hfalling
    by_cases hle : bound ≤ s.totalScore
    · rw [List.filter_cons_of_pos (by simpa using hle),
        List.filter_cons_of_neg (by simpa using hle), List.cons_append, ← ih hrows]
    · have hnone : (s :: rows).filter (fun row => decide (bound ≤ row.totalScore)) = [] := by
        refine List.filter_eq_nil_iff.mpr fun a ha => ?_
        rcases List.mem_cons.mp ha with rfl | ha
        · simpa using hle
        · have := hs a ha
          simp only [decide_eq_true_eq]
          omega
      rw [hnone, List.nil_append, eq_comm, List.filter_eq_self]
      intro a ha
      rcases List.mem_cons.mp ha with rfl | ha
      · simpa using hle
      · have := hs a ha
        simp only [decide_eq_true_eq]
        omega

/-- What is read next lies below and comes after what was read. -/
theorem append_page_sublist (hfalling : rows.Pairwise fun a b => b.totalScore ≤ a.totalScore)
    (hread : read.Sublist rows) (limit : Nat) :
    (read ++ page rows limit (boundOf read)).Sublist rows := by
  have hkept : (read.filter fun row => decide (boundOf read ≤ row.totalScore)) = read :=
    List.filter_eq_self.mpr fun a ha => by
      simpa using boundOf_le (hfalling.sublist hread) a ha
  have habove := hread.filter fun row => decide (boundOf read ≤ row.totalScore)
  rw [hkept] at habove
  have hall := habove.append (List.take_sublist limit
    (rows.filter fun row => decide (row.totalScore < boundOf read)))
  rwa [← falling_split hfalling] at hall

theorem lt_of_mem_page {bound : Nat} (hs : s ∈ page rows limit bound) : s.totalScore < bound := by
  simpa using (List.mem_filter.mp (List.mem_of_mem_take hs)).2

/-- The loop keeps the variables of the rows that it reads. -/
theorem readPages_progressOf (hfalling : rows.Pairwise fun a b => b.totalScore ≤ a.totalScore)
    (hread : read.Sublist rows) (hneed : limit = 0 → need = 0) :
    readPages rows fuel limit (progressOf total read need) =
      (readRows rows fuel limit read).map fun read => progressOf total read 0 := by
  induction fuel generalizing limit read need with
  | zero =>
    cases limit with
    | zero =>
      rw [hneed rfl]
      rfl
    | succ limit => rfl
  | succ fuel ih =>
    cases limit with
    | zero =>
      rw [hneed rfl]
      rfl
    | succ limit =>
      have hsub := append_page_sublist hfalling hread (limit + 1)
      have hpage := List.pairwise_append.mp (hfalling.sublist hsub)
      have hround := foldl_progressOf total 0 hpage.2.1
        (fun s hs => (lt_of_mem_page hs).le) fun s hs a ha => hpage.2.2 a ha s hs
      rw [Nat.zero_add] at hround
      have hnext : ∀ p, (page rows (limit + 1) (boundOf read)).foldl Progress.take
          (progressOf total read 0) = p →
          readPages rows (fuel + 1) (limit + 1) (progressOf total read need) =
            readPages rows fuel p.extraNeed p := by
        rintro p rfl
        rfl
      rw [hnext _ hround]
      exact ih hsub id

/-- The loop ends: a round that reads nothing is the last one. -/
theorem readRows_isSome (hfalling : rows.Pairwise fun a b => b.totalScore ≤ a.totalScore)
    (hread : read.Sublist rows) (hfuel : rows.length < fuel + read.length) :
    ∃ final, readRows rows fuel limit read = some final := by
  induction fuel generalizing limit read with
  | zero => exact absurd hread.length_le (by omega)
  | succ fuel ih =>
    cases limit with
    | zero => exact ⟨read, rfl⟩
    | succ limit =>
      cases hpage : page rows (limit + 1) (boundOf read) with
      | nil =>
        have hnone : inVain read [] = 0 := by simp [inVain]
        refine ⟨read, ?_⟩
        rw [readRows, hpage, hnone, List.append_nil]
        cases fuel <;> rfl
      | cons s chunk =>
        have hsub := append_page_sublist hfalling hread (limit + 1)
        rw [readRows]
        refine ih hsub ?_
        rw [hpage, List.length_append, List.length_cons]
        omega

/-- What comes after the first query of a run lies below its bound. -/
theorem readRows_below (hfalling : rows.Pairwise fun a b => b.totalScore ≤ a.totalScore)
    (hread : read.Sublist rows) {final : List TotalScoreBestScore}
    (h : readRows rows fuel limit read = some final) :
    ∃ later, final = read ++ later ∧ final.Sublist rows ∧
      ∀ a ∈ later, a.totalScore < boundOf read := by
  induction fuel generalizing limit read with
  | zero =>
    cases limit with
    | zero =>
      obtain rfl := Option.some.inj h
      exact ⟨[], by simp, hread, by simp⟩
    | succ limit => cases h
  | succ fuel ih =>
    cases limit with
    | zero =>
      obtain rfl := Option.some.inj h
      exact ⟨[], by simp, hread, by simp⟩
    | succ limit =>
      have hsub := append_page_sublist hfalling hread (limit + 1)
      obtain ⟨later, rfl, hfinal, hlater⟩ := ih hsub h
      refine ⟨page rows (limit + 1) (boundOf read) ++ later, by simp, hfinal, fun a ha => ?_⟩
      rcases List.mem_append.mp ha with ha | ha
      · exact lt_of_mem_page ha
      · refine (hlater a ha).trans_le ?_
        cases hpage : page rows (limit + 1) (boundOf read) using List.reverseRecOn with
        | nil => rw [List.append_nil]
        | append_singleton chunk s =>
          rw [← List.append_assoc, boundOf_concat]
          exact (lt_of_mem_page (hpage ▸ List.mem_append_right _ (List.mem_singleton_self s))).le

/-! ## Reading without gaps -/

/-- From the row on no query starts behind a row of the same total. -/
def GapFree (rows : List TotalScoreBestScore) (limit n : Nat) : Prop :=
  ∀ k, Below rows limit ((advance rows limit)^[k] n)

theorem gapFree_iff : GapFree rows limit n ↔
    Below rows limit n ∧ GapFree rows limit (advance rows limit n) := by
  constructor
  · exact fun h => ⟨h 0, fun k => h (k + 1)⟩
  · rintro ⟨hzero, hsucc⟩ k
    cases k with
    | zero => exact hzero
    | succ k => exact hsucc k

theorem le_iterate_advance (k : Nat) : n ≤ (advance rows limit)^[k] n := by
  induction k generalizing n with
  | zero => exact Nat.le_refl n
  | succ k ih => exact (Nat.le_add_right n _).trans ih

/-- Where all users were found or all rows were read, no query has to go on. -/
theorem gapFree_of_done (h : limit ≤ userCount (rows.take n) ∨ rows.length ≤ n) :
    GapFree rows limit n := by
  intro k hmissing row hrow
  have hle : n ≤ (advance rows limit)^[k] n := le_iterate_advance k
  have hlt := (List.getElem?_eq_some_iff.mp hrow).1
  rcases h with h | h
  · have hmono : userCount (rows.take n) ≤ userCount (rows.take ((advance rows limit)^[k] n)) :=
      keyCount_mono fun u hu => (((List.take_prefix_take_left hle).map _).subset) hu
    omega
  · omega

/-- A query that starts below the last total reads the next rows. -/
theorem page_take (limit : Nat)
    (hfalling : rows.Pairwise fun a b => b.totalScore ≤ a.totalScore)
    (hbelow : ∀ row ∈ rows[n]?, row.totalScore < boundOf (rows.take n)) :
    page rows limit (boundOf (rows.take n)) = (rows.drop n).take limit := by
  unfold page
  have habove : (rows.take n).filter
      (fun row => decide (row.totalScore < boundOf (rows.take n))) = [] :=
    List.filter_eq_nil_iff.mpr fun a ha => by
      have := boundOf_le (hfalling.sublist (List.take_sublist _ _)) a ha
      simpa using this
  have hrest : (rows.drop n).filter
      (fun row => decide (row.totalScore < boundOf (rows.take n))) = rows.drop n := by
    refine List.filter_eq_self.mpr fun a ha => ?_
    rw [decide_eq_true_eq]
    have hdrop := hfalling.sublist (List.drop_sublist n rows)
    cases hsplit : rows.drop n with
    | nil => simp [hsplit] at ha
    | cons row rest =>
      have hrow : rows[n]? = some row := by
        rw [← Nat.add_zero n, ← List.getElem?_drop, hsplit]
        rfl
      rw [hsplit] at ha hdrop
      rcases List.mem_cons.mp ha with rfl | ha
      · exact hbelow a hrow
      · exact ((List.pairwise_cons.mp hdrop).1 a ha).trans_lt (hbelow row hrow)
  have hall := List.filter_append (p := fun row => decide (row.totalScore < boundOf (rows.take n)))
    (rows.take n) (rows.drop n)
  rw [List.take_append_drop, habove, hrest, List.nil_append] at hall
  rw [hall]

/-- The rows that were read when the loop ends: all that come before a row, where either the users
are found or the rows are at an end, or some up to a row that is skipped. -/
theorem readRows_cases (hfalling : rows.Pairwise fun a b => b.totalScore ≤ a.totalScore)
    {wanted : Nat} (hlimit : userCount (rows.take n) + limit = wanted ∨ rows.length ≤ n)
    {final : List TotalScoreBestScore} (h : readRows rows fuel limit (rows.take n) = some final) :
    (GapFree rows wanted n ∧ ∃ m, n ≤ m ∧ final = rows.take m ∧
        (wanted ≤ userCount (rows.take m) ∨ rows.length ≤ m) ∧
        ∀ i, n ≤ i → i < m → i < rows.length → userCount (rows.take i) < wanted) ∨
      (¬ GapFree rows wanted n ∧ ∃ m row later, userCount (rows.take m) < wanted ∧
        rows[m]? = some row ∧ boundOf (rows.take m) ≤ row.totalScore ∧
        final = rows.take m ++ later ∧ final.Sublist rows ∧
        ∀ a ∈ later, a.totalScore < boundOf (rows.take m)) := by
  have hstop : ∀ n, wanted ≤ userCount (rows.take n) ∨ rows.length ≤ n → final = rows.take n →
      GapFree rows wanted n ∧ ∃ m, n ≤ m ∧ final = rows.take m ∧
        (wanted ≤ userCount (rows.take m) ∨ rows.length ≤ m) ∧
        ∀ i, n ≤ i → i < m → i < rows.length → userCount (rows.take i) < wanted :=
    fun n hdone hfinal => ⟨gapFree_of_done hdone, n, Nat.le_refl n, hfinal, hdone,
      fun i hle hlt => absurd hlt (Nat.not_lt.mpr hle)⟩
  induction fuel generalizing n limit with
  | zero =>
    cases limit with
    | zero =>
      refine .inl (hstop n (hlimit.imp_left fun h => ?_) (Option.some.inj h).symm)
      omega
    | succ limit => cases h
  | succ fuel ih =>
    cases limit with
    | zero =>
      refine .inl (hstop n (hlimit.imp_left fun h => ?_) (Option.some.inj h).symm)
      omega
    | succ limit =>
      by_cases hend : rows.length ≤ n
      · have hpage : page rows (limit + 1) (boundOf (rows.take n)) = [] := by
          rw [page_take (limit + 1) hfalling (by simp [List.getElem?_eq_none hend]),
            List.drop_eq_nil_of_le hend, List.take_nil]
        have hnone : inVain (rows.take n) [] = 0 := by simp [inVain]
        rw [readRows, hpage, hnone, List.append_nil] at h
        refine .inl (hstop n (.inr hend) ?_)
        cases fuel <;> exact (Option.some.inj h).symm
      have hmissing : userCount (rows.take n) + (limit + 1) = wanted := hlimit.resolve_right hend
      by_cases hbelow : ∀ row ∈ rows[n]?, row.totalScore < boundOf (rows.take n)
      · have hpage := page_take (limit + 1) hfalling hbelow
        have hadvance : advance rows wanted n = n + (limit + 1) := by
          unfold advance
          omega
        have hcount := userCount_append (rows.take n) ((rows.drop n).take (limit + 1))
        rw [← List.take_add, List.length_take, List.length_drop] at hcount
        rw [readRows, hpage, ← List.take_add] at h
        rcases ih (by omega) h with ⟨hfree, m, hm, hfinal, hdone, hless⟩ | ⟨hgap, hskip⟩
        · refine .inl ⟨gapFree_iff.mpr ⟨fun _ => hbelow, hadvance ▸ hfree⟩, m, by omega, hfinal,
            hdone, fun i hle hlt hi => ?_⟩
          by_cases hnext : n + (limit + 1) ≤ i
          · exact hless i hnext hlt hi
          · obtain ⟨j, rfl⟩ := Nat.exists_eq_add_of_le hle
            have hfew : userCount (rows.take n ++ (rows.drop n).take j) ≤
                userCount (rows.take n) + ((rows.drop n).take j).length := keyCount_append_le
            rw [← List.take_add] at hfew
            have := List.length_take_le j (rows.drop n)
            omega
        · exact .inr ⟨fun hfree => hgap (hadvance ▸ (gapFree_iff.mp hfree).2), hskip⟩
      · refine .inr ⟨fun hfree => hbelow ((gapFree_iff.mp hfree).1 (by omega)), n, ?_⟩
        push Not at hbelow
        obtain ⟨row, hrow, hle⟩ := hbelow
        obtain ⟨later, hfinal, hsub, hlater⟩ :=
          readRows_below hfalling (List.take_sublist n rows) h
        exact ⟨row, later, by omega, hrow, hle, hfinal, hsub, hlater⟩

end Round

/-! ## What was read is the top -/

section Top

variable {rows final rest later : List TotalScoreBestScore} {wanted m : Nat}

/-- The count is right exactly if the rows that are left are of different new users. -/
theorem count_iff (hrest : rows.Perm (final ++ rest)) :
    (rows.length - final.length + userCount final : Int) = userCount rows ↔
      (rest.map (·.userId)).Nodup ∧ ∀ row ∈ rest, row.userId ∉ final.map (·.userId) := by
  have hlength := hrest.length_eq
  rw [List.length_append] at hlength
  rw [← keyCount_append_eq, ← keyCount_perm hrest]
  unfold userCount
  omega

/-- Of rows with falling totals the first one of a user is the highest. -/
theorem firsts_highest (hfalling : rows.Pairwise fun a b => b.totalScore ≤ a.totalScore)
    {s : TotalScoreBestScore} (hs : s ∈ firsts (·.userId) (rows.take m)) :
    s ∈ rows ∧ ∀ row ∈ rows, row.userId = s.userId → row.totalScore ≤ s.totalScore := by
  refine ⟨List.mem_of_mem_take (firsts_sublist.subset hs), fun row hrow huser => ?_⟩
  obtain ⟨before, after, hsplit, hnew⟩ := firsts_first hs
  have hrows : rows = before ++ s :: (after ++ rows.drop m) := by
    rw [← List.cons_append, ← List.append_assoc, ← hsplit, List.take_append_drop]
  rw [hrows] at hrow hfalling
  rcases List.mem_append.mp hrow with hrow | hrow
  · exact absurd (huser ▸ List.mem_map_of_mem hrow) hnew
  · rcases List.mem_cons.mp hrow with rfl | hrow
    · exact Nat.le_refl _
    · exact (List.pairwise_cons.mp (List.pairwise_append.mp hfalling).2.1).1 row hrow

/-- No more users are found than are wanted. -/
theorem userCount_take_le
    (hless : ∀ i, i < m → i < rows.length → userCount (rows.take i) < wanted) :
    userCount (rows.take m) ≤ wanted := by
  obtain ⟨i, hi⟩ : ∃ i, i = min m rows.length := ⟨_, rfl⟩
  have htake : rows.take m = rows.take i := by
    rw [hi, List.take_eq_take_min]
  rw [htake]
  cases i with
  | zero => exact Nat.zero_le _
  | succ i =>
    have hone : userCount (rows.take i ++ (rows.drop i).take 1) ≤
        userCount (rows.take i) + ((rows.drop i).take 1).length := keyCount_append_le
    have hlast := List.length_take_le 1 (rows.drop i)
    have := hless i (by omega) (by omega)
    rw [List.take_add]
    omega

/-- The rows up to one give the top exactly if no repeated row stands behind the last user. -/
theorem isTop_take_iff (hfalling : rows.Pairwise fun a b => b.totalScore ≤ a.totalScore)
    (hdone : wanted ≤ userCount (rows.take m) ∨ rows.length ≤ m)
    (hless : ∀ i, i < m → i < rows.length → userCount (rows.take i) < wanted) :
    IsTop rows wanted (firsts (·.userId) (rows.take m))
        (rows.length - (rows.take m).length + userCount (rows.take m)) ↔
      ∀ n, ∀ row ∈ rows[n]?, row.userId ∈ (rows.take n).map (·.userId) →
        userCount (rows.take n) < wanted := by
  have hperm : rows.Perm (rows.take m ++ rows.drop m) := by rw [List.take_append_drop]
  have hcount :
      (rows.length - (rows.take m).length + userCount (rows.take m) : Int) = userCount rows ↔
      ∀ j, ∀ row ∈ rows[m + j]?, row.userId ∉ (rows.take (m + j)).map (·.userId) := by
    rw [count_iff hperm, fresh_iff]
    simp only [List.getElem?_drop, ← List.take_add]
  constructor
  · intro htop n row hrow hknown
    by_cases hread : n < m
    · exact hless n hread (List.getElem?_eq_some_iff.mp hrow).1
    · obtain ⟨j, rfl⟩ := Nat.exists_eq_add_of_le (Nat.le_of_not_lt hread)
      exact absurd hknown (hcount.mp htop.count j row hrow)
  · intro hrepeats
    have hmono : ∀ j, userCount (rows.take m) ≤ userCount (rows.take (m + j)) := fun j =>
      keyCount_mono fun u hu =>
        (((List.take_prefix_take_left (Nat.le_add_right m j)).map _).subset) hu
    have hall : userCount (rows.take m) ≤ userCount rows :=
      keyCount_mono fun u hu => ((List.take_sublist m rows).map _).subset hu
    refine ⟨nodup_firsts, fun s hs => firsts_highest hfalling hs,
      (hfalling.sublist (List.take_sublist _ _)).sublist firsts_sublist, ?_, ?_, ?_⟩
    · have hle := userCount_take_le hless
      have hlength : (firsts (·.userId) (rows.take m)).length = userCount (rows.take m) :=
        length_firsts
      rw [hlength]
      rcases hdone with hdone | hdone
      · omega
      · rw [List.take_of_length_le hdone] at hle ⊢
        omega
    · intro row hrow hnew s hs
      rw [mem_keys_firsts] at hnew
      have hdrop : row ∈ rows.drop m := by
        rw [← List.take_append_drop m rows] at hrow
        exact (List.mem_append.mp hrow).resolve_left fun h => hnew (List.mem_map_of_mem h)
      have hparts := hfalling
      rw [← List.take_append_drop m rows] at hparts
      exact (List.pairwise_append.mp hparts).2.2 s (firsts_sublist.subset hs) row hdrop
    · refine hcount.mpr fun j row hrow hknown => ?_
      have hlt := (List.getElem?_eq_some_iff.mp hrow).1
      have hfew := hrepeats _ row hrow hknown
      have := hmono j
      rcases hdone with hdone | hdone <;> omega

/-- A row that was skipped is missing or was paid for with a lower one. -/
theorem not_isTop_of_skipped (hnodup : rows.Nodup) {row : TotalScoreBestScore}
    (hmissing : userCount (rows.take m) < wanted) (hrow : rows[m]? = some row)
    (hskip : boundOf (rows.take m) ≤ row.totalScore)
    (hfinal : final = rows.take m ++ later) (hsub : final.Sublist rows)
    (hlater : ∀ a ∈ later, a.totalScore < boundOf (rows.take m)) :
    ¬ IsTop rows wanted (firsts (·.userId) final)
      (rows.length - final.length + userCount final) := by
  intro htop
  obtain ⟨rest, hrest⟩ := hsub.exists_perm_append
  obtain ⟨-, hnew⟩ := (count_iff hrest).mp htop.count
  have hout : row ∉ final := by
    rw [hfinal, List.mem_append, not_or]
    refine ⟨fun hmem => ?_, fun hmem => Nat.not_lt.mpr hskip (hlater row hmem)⟩
    obtain ⟨i, hi, hget⟩ := List.mem_take_iff_getElem.mp hmem
    obtain ⟨hm, hgetm⟩ := List.getElem?_eq_some_iff.mp hrow
    have := (hnodup.getElem_inj_iff).mp (hget.trans hgetm.symm)
    omega
  have hleft : row ∈ rest :=
    (List.mem_append.mp (hrest.mem_iff.mp (List.mem_of_getElem? hrow))).resolve_left hout
  have huser := hnew row hleft
  have hmore : userCount final < userCount rows := by
    have hone : userCount (final ++ [row]) =
        userCount final + if row.userId ∈ final.map (·.userId) then 0 else 1 := keyCount_concat
    have hsome : userCount (final ++ [row]) ≤ userCount rows := by
      refine keyCount_mono fun u hu => ?_
      rw [List.map_append, List.mem_append, List.map_singleton, List.mem_singleton] at hu
      rcases hu with hu | rfl
      · exact (hsub.map _).subset hu
      · exact List.mem_map_of_mem (List.mem_of_getElem? hrow)
    rw [if_neg huser] at hone
    omega
  have hlength : userCount final = min wanted (userCount rows) :=
    length_firsts.symm.trans htop.length
  obtain ⟨s, hs, hslater⟩ : ∃ s ∈ firsts (·.userId) final, s ∈ later := by
    by_contra hnone
    push Not at hnone
    have hfew : userCount final ≤ userCount (rows.take m) := by
      refine keyCount_mono fun u hu => ?_
      obtain ⟨s, hs, rfl⟩ := List.mem_map.mp (mem_keys_firsts.mpr hu)
      have hmem := firsts_sublist.subset hs
      rw [hfinal] at hmem
      exact List.mem_map_of_mem ((List.mem_append.mp hmem).resolve_right (hnone s hs))
    omega
  have hbest := htop.best row (List.mem_of_getElem? hrow)
    (fun h => huser (mem_keys_firsts.mp h)) s hs
  have := hlater s hslater
  omega

/-- The loop ends, and what it has read is the top exactly if the rows are readable. -/
theorem readPages_isTop_iff (hfalling : rows.Pairwise fun a b => b.totalScore ≤ a.totalScore)
    (hnodup : rows.Nodup) {fuel : Nat} (hfuel : rows.length < fuel) (limit : Nat) :
    ∃ p, readPages rows fuel limit { count := rows.length } = some p ∧
      p.scores.Pairwise (fun a b => b.totalScore ≤ a.totalScore) ∧
      (IsTop rows limit p.scores p.count ↔ Readable rows limit) := by
  have hstart : progressOf rows.length [] 0 = { count := rows.length } := by
    simp [progressOf, userCount, keyCount, boundOf]
  obtain ⟨final, hfinal⟩ : ∃ final, readRows rows fuel limit [] = some final :=
    readRows_isSome hfalling (List.nil_sublist rows) hfuel
  have hpages : readPages rows fuel limit (progressOf rows.length [] 0) =
      (readRows rows fuel limit []).map fun read => progressOf rows.length read 0 :=
    readPages_progressOf hfalling (List.nil_sublist rows) fun _ => rfl
  obtain ⟨-, -, hsub, -⟩ := readRows_below hfalling (List.nil_sublist rows) hfinal
  rw [hfinal, hstart] at hpages
  refine ⟨_, hpages, (hfalling.sublist hsub).sublist firsts_sublist, ?_⟩
  have hcases := readRows_cases (n := 0) hfalling (.inl (Nat.zero_add limit)) hfinal
  rcases hcases with ⟨hfree, m, -, rfl, hdone, hless⟩ |
    ⟨hgap, m, row, later, hmissing, hrow, hskip, hread, hsub, hlater⟩
  · refine (isTop_take_iff hfalling hdone fun i => hless i (Nat.zero_le i)).trans
      ⟨fun hrepeats => ⟨hfree, hrepeats⟩, fun hreadable => hreadable.repeats⟩
  · exact iff_of_false (not_isTop_of_skipped hnodup hmissing hrow hskip hread hsub hlater)
      fun hreadable => hgap hreadable.gaps

end Top

/-! ## The leaderboard -/

/-- The filtered table.  No row passes a filter that is not granted. -/
def matching (users : Users) (table : BestScoreTable) (beatmap : BeatmapId) (mode : GameMode)
    (type : LeaderboardType) (mods : List String) (user : Option User) :
    List TotalScoreBestScore :=
  ((scoreWhere users type beatmap mode mods user).map table.rows.filter).getD []

section Leaderboard

variable {settings : Settings} {users : Users} {table : BestScoreTable} {beatmap : BeatmapId}
  {mode : GameMode} {type : LeaderboardType} {mods : List String} {fuel : Nat} {limit : Int}

theorem getLeaderboard_none
    (hwhere : scoreWhere users type beatmap (specialMode settings mode mods) mods none = none) :
    getLeaderboard settings users table fuel beatmap mode type mods none limit =
      some ([], none, 0) := by
  unfold getLeaderboard
  simp only [hwhere]

theorem getLeaderboard_some {wheres : TotalScoreBestScore → Bool} {p : Progress}
    (hwhere : scoreWhere users type beatmap (specialMode settings mode mods) mods none =
      some wheres)
    (hpages : readPages (table.rows.filter wheres) fuel limit.toNat
      { count := (table.rows.filter wheres).length } = some p) :
    getLeaderboard settings users table fuel beatmap mode type mods none limit =
      some (p.scores.insertionSort fun a b => b.totalScore ≤ a.totalScore, none, p.count) := by
  unfold getLeaderboard
  simp only [hwhere, hpages]
  rfl

end Leaderboard

/-- **The leaderboard.**  The call ends, and it returns the best users with their highest rows and
the number of users exactly if no query starts behind a row that it may not skip and no repeated row
stands behind the last user. -/
theorem leaderboard_top_iff (settings : Settings) (users : Users) (table : BestScoreTable)
    (beatmap : BeatmapId) (mode : GameMode) (type : LeaderboardType) (mods : List String)
    (limit : Int) (fuel : Nat) (hfuel : table.rows.length < fuel) :
    ∃ scores count,
      getLeaderboard settings users table fuel beatmap mode type mods none limit =
          some (scores, none, count) ∧
        (IsTop (matching users table beatmap (specialMode settings mode mods) type mods none)
            limit.toNat scores count ↔
          Readable (matching users table beatmap (specialMode settings mode mods) type mods none)
            limit.toNat) := by
  unfold matching
  cases hwhere : scoreWhere users type beatmap (specialMode settings mode mods) mods none with
  | none =>
    refine ⟨[], 0, getLeaderboard_none hwhere, iff_of_true ?_ ⟨by simp [Below], by simp⟩⟩
    exact ⟨List.nodup_nil, by simp, List.Pairwise.nil, by simp [userCount, keyCount], by simp,
      by simp [userCount, keyCount]⟩
  | some wheres =>
    have hsub : (table.rows.filter wheres).Sublist table.rows := List.filter_sublist
    obtain ⟨p, hpages, hfalling, hiff⟩ := readPages_isTop_iff (table.falling.sublist hsub)
      ((table.nodup.of_map _).sublist hsub) (hsub.length_le.trans_lt hfuel) limit.toNat
    refine ⟨_, _, getLeaderboard_some hwhere hpages, ?_⟩
    rw [hfalling.insertionSort_eq]
    exact hiff

/-- The second row of user 7 comes above the row of user 8. -/
def twoMods : BestScoreTable where
  rows := [rowOf 7 1 10 [], rowOf 7 2 9 ["HD"], rowOf 8 3 8 []]
  falling := by decide
  nodup := by decide

theorem readable_twoMods : Readable twoMods.rows 2 where
  gaps k := by
    have hnext : ∀ n ∈ [0, 2, 3], advance twoMods.rows 2 n ∈ [0, 2, 3] := by decide
    have hreached : (advance twoMods.rows 2)^[k] 0 ∈ [0, 2, 3] := by
      induction k with
      | zero => simp
      | succ k ih =>
        rw [Function.iterate_succ_apply']
        exact hnext _ ih
    have hbelow : ∀ n ∈ [0, 2, 3], Below twoMods.rows 2 n := by
      unfold Below
      decide
    exact hbelow _ hreached
  repeats n := by
    rcases n with _ | _ | _ | n
    · decide
    · decide
    · decide
    · simp [twoMods]

/-- The row that is read in vain is made up for by the second query. -/
theorem leaderboard_top_iff_two_mods : ∃ scores count,
    getLeaderboard {} plainUsers twoMods 4 1 .osu .global [] none 2 = some (scores, none, count) ∧
      IsTop twoMods.rows 2 scores count := by
  obtain ⟨scores, count, hcall, hiff⟩ := leaderboard_top_iff {} plainUsers twoMods 1 .osu .global []
    2 4 (by decide)
  exact ⟨scores, count, hcall, hiff.mpr readable_twoMods⟩

/-- The row of user 8 has the total of the second row of user 7. -/
def tiedRows : BestScoreTable where
  rows := [rowOf 7 1 10 [], rowOf 7 2 9 ["HD"], rowOf 8 3 9 []]
  falling := by decide
  nodup := by decide

theorem tied_row_skipped : ¬ ∀ (settings : Settings) (users : Users) (table : BestScoreTable)
    (beatmap : BeatmapId) (mode : GameMode) (type : LeaderboardType) (mods : List String)
    (limit : Int) (fuel : Nat) (scores : List TotalScoreBestScore) (count : Int),
    getLeaderboard settings users table fuel beatmap mode type mods none limit =
        some (scores, none, count) →
      IsTop (matching users table beatmap (specialMode settings mode mods) type mods none)
        limit.toNat scores count := by
  intro htop
  have hcall : getLeaderboard {} plainUsers tiedRows 4 1 .osu .global [] none 2 =
      some ([rowOf 7 1 10 []], none, 2) := by
    decide
  have hlength := (htop _ _ _ _ _ _ _ _ _ _ _ hcall).length
  revert hlength
  decide

end Soms.Boards

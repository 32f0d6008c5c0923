import Mathlib.Data.List.Sort

/-!
# Row numbers

`ROW_NUMBER() OVER (PARTITION BY part ORDER BY key DESC)` of a table.  The database sorts the rows
of each part by falling keys into a window; the order of equal keys is its own.  The number of a
row is the place it has among the rows of its part, counted from one.
-/

variable {α β κ : Type} [LinearOrder κ]

/-- The rows by falling keys. -/
def byKey (key : α → κ) (rows : List α) : List α := rows.insertionSort fun a b => key b ≤ key a

theorem byKey_perm (key : α → κ) (rows : List α) : (byKey key rows).Perm rows :=
  List.perm_insertionSort _ _

theorem byKey_falling (key : α → κ) (rows : List α) :
    (byKey key rows).Pairwise fun a b => key b ≤ key a := by
  have : Std.Total fun a b : α => key b ≤ key a := ⟨fun a b => le_total (key b) (key a)⟩
  have : IsTrans α fun a b => key b ≤ key a := ⟨fun _ _ _ h₁ h₂ => h₂.trans h₁⟩
  exact List.pairwise_insertionSort _ _

variable [DecidableEq α] [DecidableEq β]

/-- The rows before one in the window. -/
def rowsBefore (window : List α) (a : α) : List α := window.takeWhile (· ≠ a)

def rowNumber (part : α → β) (window : List α) (a : α) : Nat :=
  ((rowsBefore window a).filter fun b => part b = part a).length + 1

/-- A window of the table. -/
structure IsWindow (part : α → β) (key : α → κ) (table window : List α) : Prop where
  perm : window.Perm table
  falling : window.Pairwise fun a b => part a = part b → key b ≤ key a

/-- The rows of the part with a larger key. -/
def larger (part : α → β) (key : α → κ) (table : List α) (a : α) : Nat :=
  (table.filter fun b => decide (part b = part a) && decide (key a < key b)).length

/-- The rows of the part with a key that is not smaller. -/
def atLeast (part : α → β) (key : α → κ) (table : List α) (a : α) : Nat :=
  (table.filter fun b => decide (part b = part a) && decide (key a ≤ key b)).length

variable {part : α → β} {key : α → κ} {table window : List α} {a : α}

theorem window_split (ha : a ∈ window) :
    ∃ after, window = rowsBefore window a ++ a :: after := by
  induction window with
  | nil => simp at ha
  | cons b rest ih =>
    by_cases hb : b = a
    · subst hb
      exact ⟨rest, by simp [rowsBefore]⟩
    · obtain ⟨after, hafter⟩ := ih ((List.mem_cons.mp ha).resolve_left fun h => hb h.symm)
      refine ⟨after, ?_⟩
      have hcons : rowsBefore (b :: rest) a = b :: rowsBefore rest a := by
        simp [rowsBefore, hb]
      rw [hcons, List.cons_append, ← hafter]

theorem rowsBefore_append {before after : List α} (ha : a ∉ before) :
    rowsBefore (before ++ a :: after) a = before := by
  induction before with
  | nil => simp [rowsBefore]
  | cons b rest ih =>
    rw [List.mem_cons, not_or] at ha
    have hb : b ≠ a := fun h => ha.1 h.symm
    have hcons : rowsBefore (b :: (rest ++ a :: after)) a =
        b :: rowsBefore (rest ++ a :: after) a := by simp [rowsBefore, hb]
    rw [List.cons_append, hcons, ih ha.2]

namespace IsWindow

/-- The rows with larger keys come before. -/
theorem larger_lt (hwindow : IsWindow part key table window) (ha : a ∈ table) :
    larger part key table a < rowNumber part window a := by
  obtain ⟨after, hsplit⟩ := window_split (hwindow.perm.mem_iff.mpr ha)
  have hfalling := hwindow.falling
  rw [hsplit, List.pairwise_append] at hfalling
  have hafter := (List.pairwise_cons.mp hfalling.2.1).1
  have hnone : (a :: after).filter
      (fun b => decide (part b = part a) && decide (key a < key b)) = [] := by
    rw [List.filter_eq_nil_iff]
    intro b hb hkeep
    obtain ⟨hpart, hkey⟩ : part b = part a ∧ key a < key b := by simpa using hkeep
    rcases List.mem_cons.mp hb with rfl | hb
    · exact lt_irrefl _ hkey
    · exact absurd (hafter b hb hpart.symm) (not_le.mpr hkey)
  have hcount := (hwindow.perm.filter
    (fun b => decide (part b = part a) && decide (key a < key b))).length_eq
  rw [hsplit, List.filter_append, hnone, List.append_nil] at hcount
  unfold larger rowNumber
  rw [← hcount, ← List.filter_filter, Nat.lt_succ_iff]
  exact (List.filter_sublist.filter fun b => decide (part b = part a)).length_le

/-- No row with a smaller key comes before. -/
theorem le_atLeast (hwindow : IsWindow part key table window) (ha : a ∈ table) :
    rowNumber part window a ≤ atLeast part key table a := by
  obtain ⟨after, hsplit⟩ := window_split (hwindow.perm.mem_iff.mpr ha)
  have hfalling := hwindow.falling
  rw [hsplit, List.pairwise_append] at hfalling
  have hbefore := fun b hb => hfalling.2.2 b hb a List.mem_cons_self
  have hcount := (hwindow.perm.filter
    (fun b => decide (part b = part a) && decide (key a ≤ key b))).length_eq
  rw [hsplit, List.filter_append, List.length_append] at hcount
  have hall : (rowsBefore window a).filter
      (fun b => decide (part b = part a) && decide (key a ≤ key b)) =
        (rowsBefore window a).filter fun b => part b = part a := by
    refine List.filter_congr fun b hb => ?_
    by_cases hpart : part b = part a
    · simp [hpart, hbefore b hb hpart]
    · simp [hpart]
  have hone : 1 ≤ ((a :: after).filter
      (fun b => decide (part b = part a) && decide (key a ≤ key b))).length := by
    rw [List.filter_cons_of_pos (by simp)]
    simp
  unfold atLeast rowNumber
  rw [hall] at hcount
  omega

/-- Where no two keys of a part are equal, the order of the database has no say. -/
theorem rowNumber_eq (hwindow : IsWindow part key table window) (ha : a ∈ table)
    (hnodup : table.Nodup)
    (hkeys : ∀ b ∈ table, part b = part a → key b = key a → b = a) :
    rowNumber part window a = larger part key table a + 1 := by
  refine le_antisymm ((hwindow.le_atLeast ha).trans ?_) (hwindow.larger_lt ha)
  unfold atLeast larger
  have hsplit : ∀ b ∈ table.erase a, (decide (part b = part a) && decide (key a ≤ key b)) =
      (decide (part b = part a) && decide (key a < key b)) := by
    intro b hb
    obtain ⟨hne, hmem⟩ := (hnodup.mem_erase_iff).mp hb
    by_cases hpart : part b = part a
    · have hkey : key a ≠ key b := fun h => hne (hkeys b hmem hpart h.symm)
      simp [hpart, le_iff_lt_or_eq, hkey]
    · simp [hpart]
  have hperm := List.perm_cons_erase ha
  rw [(hperm.filter _).length_eq, (hperm.filter fun b =>
    decide (part b = part a) && decide (key a < key b)).length_eq,
    List.filter_cons_of_pos (by simp), List.filter_cons_of_neg (by simp),
    List.filter_congr hsplit]
  exact le_refl _

end IsWindow

/-! ## The windows of a table -/

/-- Any rows with keys that are not smaller, and all with larger ones, may be those before a row. -/
theorem exists_window (part : α → β) (key : α → κ) (hnodup : table.Nodup) (ha : a ∈ table)
    (first : α → Bool)
    (hfirst : ∀ b, first b = true → key a ≤ key b) (hlast : ∀ b, first b = false → key b ≤ key a) :
    ∃ window, IsWindow part key table window ∧
      rowNumber part window a =
        ((table.erase a).filter fun b => decide (part b = part a) && first b).length + 1 := by
  let before := byKey key ((table.erase a).filter first)
  let after := byKey key ((table.erase a).filter fun b => !first b)
  have hnot : a ∉ table.erase a := hnodup.not_mem_erase
  have hbefore : ∀ b, b ∈ before → b ∈ (table.erase a).filter first :=
    fun b => (byKey_perm key _).mem_iff.mp
  have hafter : ∀ b, b ∈ after → b ∈ (table.erase a).filter fun b => !first b :=
    fun b => (byKey_perm key _).mem_iff.mp
  refine ⟨before ++ a :: after, ⟨?_, ?_⟩, ?_⟩
  · refine (List.perm_middle.trans ?_).trans (List.perm_cons_erase ha).symm
    refine List.Perm.cons a ?_
    exact ((byKey_perm key _).append (byKey_perm key _)).trans (List.filter_append_perm first _)
  · have hhigh : ∀ b ∈ before, key a ≤ key b := fun b hb =>
      hfirst b (List.mem_filter.mp (hbefore b hb)).2
    have hlow : ∀ b ∈ after, key b ≤ key a := fun b hb =>
      hlast b (by simpa using (List.mem_filter.mp (hafter b hb)).2)
    have hfalling : (before ++ a :: after).Pairwise fun b c => key c ≤ key b := by
      refine List.pairwise_append.mpr ⟨byKey_falling key _,
        List.pairwise_cons.mpr ⟨hlow, byKey_falling key _⟩, fun b hb c hc => ?_⟩
      rcases List.mem_cons.mp hc with rfl | hc
      · exact hhigh b hb
      · exact (hlow c hc).trans (hhigh b hb)
    exact hfalling.imp fun {b c} (h : key c ≤ key b) (_ : part b = part c) => h
  · have hout : a ∉ before := fun h => hnot (List.mem_filter.mp (hbefore a h)).1
    unfold rowNumber
    rw [rowsBefore_append hout, ((byKey_perm key _).filter _).length_eq, List.filter_filter]

/-- A row may come first among those with its key. -/
theorem exists_window_first (part : α → β) (key : α → κ) (hnodup : table.Nodup) (ha : a ∈ table) :
    ∃ window, IsWindow part key table window ∧
      rowNumber part window a = larger part key table a + 1 := by
  obtain ⟨window, hwindow, hnumber⟩ := exists_window part key hnodup ha
    (fun b => decide (key a < key b)) (fun b hb => (of_decide_eq_true hb).le)
    (fun b hb => not_lt.mp (of_decide_eq_false hb))
  refine ⟨window, hwindow, hnumber.trans ?_⟩
  unfold larger
  rw [((List.perm_cons_erase ha).filter _).length_eq, List.filter_cons_of_neg (by simp)]

/-- A row may come last among those with its key. -/
theorem exists_window_last (part : α → β) (key : α → κ) (hnodup : table.Nodup) (ha : a ∈ table) :
    ∃ window, IsWindow part key table window ∧
      rowNumber part window a = atLeast part key table a := by
  obtain ⟨window, hwindow, hnumber⟩ := exists_window part key hnodup ha
    (fun b => decide (key a ≤ key b)) (fun b hb => of_decide_eq_true hb)
    (fun b hb => (not_le.mp (of_decide_eq_false hb)).le)
  refine ⟨window, hwindow, hnumber.trans ?_⟩
  unfold atLeast
  rw [((List.perm_cons_erase ha).filter _).length_eq, List.filter_cons_of_pos (by simp),
    List.length_cons]

/-! ## Distinct keys

Where no two keys are equal there is one window, the rows by falling keys. -/

/-- The rows with the number one. -/
def firstRows (part : α → β) (key : α → κ) (rows : List α) : List α :=
  rows.filter fun a => rowNumber part (byKey key rows) a = 1

omit [DecidableEq α] [DecidableEq β] in
theorem isWindow_byKey (part : α → β) (key : α → κ) (rows : List α) :
    IsWindow part key rows (byKey key rows) :=
  ⟨byKey_perm key rows,
    (byKey_falling key rows).imp fun {a b} (h : key b ≤ key a) (_ : part a = part b) => h⟩

section Distinct

variable {rows : List α} (hkeys : (rows.map key).Nodup)

include hkeys

theorem rowNumber_byKey (part : α → β) (ha : a ∈ rows) :
    rowNumber part (byKey key rows) a = larger part key rows a + 1 :=
  (isWindow_byKey part key rows).rowNumber_eq ha hkeys.of_map fun _ hb _ heq =>
    List.inj_on_of_nodup_map hkeys hb ha heq

omit [DecidableEq α] [DecidableEq β] in
/-- The first row by falling keys is the one with the largest. -/
theorem head?_byKey : (byKey key rows).head? = some a ↔ a ∈ rows ∧ ∀ b ∈ rows, key b ≤ key a := by
  have hmem : ∀ b, b ∈ byKey key rows ↔ b ∈ rows := fun b => (byKey_perm key rows).mem_iff
  have hfalling := byKey_falling key rows
  cases h : byKey key rows with
  | nil =>
    have hnone : a ∉ rows := by
      rw [← hmem, h]
      exact List.not_mem_nil
    simp [hnone]
  | cons c rest =>
    simp only [h] at hmem hfalling
    have hlargest : ∀ b ∈ rows, key b ≤ key c := by
      intro b hb
      rcases List.mem_cons.mp ((hmem b).mpr hb) with rfl | hb
      · exact le_rfl
      · exact (List.pairwise_cons.mp hfalling).1 b hb
    have hc : c ∈ rows := (hmem c).mp List.mem_cons_self
    rw [List.head?_cons, Option.some.injEq]
    constructor
    · rintro rfl
      exact ⟨hc, hlargest⟩
    · intro ⟨ha, hle⟩
      exact List.inj_on_of_nodup_map hkeys hc ha (le_antisymm (hle c hc) (hlargest a ha))

/-- A row is the first of its part if no key of the part is larger. -/
theorem mem_firstRows (part : α → β) :
    a ∈ firstRows part key rows ↔ a ∈ rows ∧ ∀ b ∈ rows, part b = part a → key b ≤ key a := by
  rw [firstRows, List.mem_filter]
  refine and_congr_right fun ha => ?_
  rw [decide_eq_true_eq, rowNumber_byKey hkeys part ha, Nat.add_eq_right, larger,
    List.length_eq_zero_iff, List.filter_eq_nil_iff]
  refine forall₂_congr fun b _ => ?_
  rw [Bool.and_eq_true, decide_eq_true_eq, decide_eq_true_eq, not_and, not_lt]

theorem nodup_part_firstRows (part : α → β) : ((firstRows part key rows).map part).Nodup := by
  have hnodup : (firstRows part key rows).Nodup := List.Nodup.filter _ hkeys.of_map
  refine List.Nodup.map_on ?_ hnodup
  intro a ha b hb heq
  obtain ⟨ha, hlea⟩ := (mem_firstRows hkeys part).mp ha
  obtain ⟨hb, hleb⟩ := (mem_firstRows hkeys part).mp hb
  exact List.inj_on_of_nodup_map hkeys ha hb (le_antisymm (hleb a ha heq) (hlea b hb heq.symm))

/-- Every part has its first row. -/
theorem exists_firstRow (part : α → β) (ha : a ∈ rows) :
    ∃ b ∈ firstRows part key rows, part b = part a ∧ key a ≤ key b := by
  have hpart : a ∈ rows.filter fun b => part b = part a := by simp [ha]
  have hkeys' : ((rows.filter fun b => part b = part a).map key).Nodup :=
    hkeys.sublist (List.filter_sublist.map key)
  have hne : byKey key (rows.filter fun b => part b = part a) ≠ [] :=
    List.ne_nil_of_mem ((byKey_perm key _).mem_iff.mpr hpart)
  obtain ⟨b, hb⟩ := Option.isSome_iff_exists.mp (List.isSome_head?.mpr hne)
  obtain ⟨hmem, hle⟩ := (head?_byKey hkeys').mp hb
  rw [List.mem_filter, decide_eq_true_eq] at hmem
  refine ⟨b, (mem_firstRows hkeys part).mpr ⟨hmem.1, fun c hc heq => ?_⟩, hmem.2, hle a hpart⟩
  exact hle c (by simpa [hc] using heq.trans hmem.2)

/-- The best of the first rows of the parts is the best of all. -/
theorem head?_byKey_firstRows (part : α → β) :
    (byKey key (firstRows part key rows)).head? = (byKey key rows).head? := by
  have hkeys' : ((firstRows part key rows).map key).Nodup :=
    hkeys.sublist (List.filter_sublist.map key)
  refine Option.ext fun a => ?_
  rw [head?_byKey hkeys', head?_byKey hkeys, mem_firstRows hkeys part]
  constructor
  · intro ⟨⟨ha, _⟩, hle⟩
    refine ⟨ha, fun b hb => ?_⟩
    obtain ⟨c, hc, _, hbc⟩ := exists_firstRow hkeys part hb
    exact hbc.trans (hle c hc)
  · intro ⟨ha, hle⟩
    exact ⟨⟨ha, fun b hb _ => hle b hb⟩, fun b hb => hle b ((mem_firstRows hkeys part).mp hb).1⟩

/-- The numbers in the whole table count the rows by falling keys. -/
theorem map_rowNumber (part : α → β) (hpart : ∀ a ∈ rows, ∀ b ∈ rows, part a = part b) :
    (byKey key rows).map (rowNumber part (byKey key rows)) = List.range' 1 rows.length := by
  have hlength := (byKey_perm key rows).length_eq
  have hnodup : (byKey key rows).Nodup := (byKey_perm key rows).nodup_iff.mpr hkeys.of_map
  refine List.ext_getElem (by simp [hlength]) fun i hi _ => ?_
  rw [List.length_map] at hi
  have hsplit : byKey key rows = (byKey key rows).take i ++
      (byKey key rows)[i] :: (byKey key rows).drop (i + 1) := by
    rw [List.getElem_cons_drop, List.take_append_drop]
  have hout : (byKey key rows)[i] ∉ (byKey key rows).take i := by
    rw [hsplit] at hnodup
    exact fun hmem => (List.nodup_append.mp hnodup).2.2 _ hmem _ List.mem_cons_self rfl
  have hbefore : rowsBefore (byKey key rows) (byKey key rows)[i] = (byKey key rows).take i := by
    conv_lhs => arg 1; rw [hsplit]
    exact rowsBefore_append hout
  have hall : ((byKey key rows).take i).filter
      (fun b => part b = part (byKey key rows)[i]) = (byKey key rows).take i := by
    refine List.filter_eq_self.mpr fun b hb => decide_eq_true ?_
    exact hpart b ((byKey_perm key rows).mem_iff.mp (List.mem_of_mem_take hb)) _
      ((byKey_perm key rows).mem_iff.mp (List.getElem_mem hi))
  rw [List.getElem_map, List.getElem_range', rowNumber, hbefore, hall, List.length_take]
  omega

end Distinct

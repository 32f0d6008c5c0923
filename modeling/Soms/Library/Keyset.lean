import Mathlib.Data.List.Basic

/-!
# Keyset pagination

A list is read page by page.  A page holds the first rows after a key, and it returns the key of
its last row as the cursor of the next page when there are more.  `lt` is the order of the keys in
which the list is sorted.
-/

variable {α κ : Type} (key : α → κ) (lt : κ → κ → Prop) [DecidableRel lt]

/-- The rows after a cursor; without one, all rows. -/
def rowsAfter (rows : List α) (cursor : Option κ) : List α :=
  rows.filter fun a => cursor.all fun c => decide (lt c (key a))

/-- One page and its cursor.  One row more than the limit is read. -/
def keysetPage (rows : List α) (limit : Nat) (cursor : Option κ) : List α × Option κ :=
  let found := (rowsAfter key lt rows cursor).take (limit + 1)
  if limit < found.length then (found.dropLast, found.dropLast.getLast?.map key) else (found, none)

/-- The pages from a cursor on until none is returned, if that many requests suffice. -/
def follow (page : Option κ → List α × Option κ) : Nat → Option κ → Option (List α)
  | 0, _ => none
  | fuel + 1, cursor =>
    match (page cursor).2 with
    | none => some (page cursor).1
    | some next => (follow page fuel (some next)).map ((page cursor).1 ++ ·)

variable {key lt}

@[simp] theorem rowsAfter_none (rows : List α) : rowsAfter key lt rows none = rows :=
  List.filter_eq_self.mpr fun _ _ => rfl

/-- In a sorted list the rows after that of a row are those behind it. -/
theorem rowsAfter_split [Std.Asymm lt] {before after : List α} {a : α}
    (hsorted : (before ++ a :: after).Pairwise fun a b => lt (key a) (key b)) :
    rowsAfter key lt (before ++ a :: after) (some (key a)) = after := by
  obtain ⟨-, hrest, hbefore⟩ := List.pairwise_append.mp hsorted
  have hafter := (List.pairwise_cons.mp hrest).1
  have hself : ¬ lt (key a) (key a) := fun h => Std.Asymm.asymm _ _ h h
  have hnone : before.filter (fun b => decide (lt (key a) (key b))) = [] :=
    List.filter_eq_nil_iff.mpr fun b hb hlt =>
      Std.Asymm.asymm _ _ (hbefore b hb a List.mem_cons_self) (of_decide_eq_true hlt)
  have hall : after.filter (fun b => decide (lt (key a) (key b))) = after :=
    List.filter_eq_self.mpr fun b hb => decide_eq_true (hafter b hb)
  show List.filter (fun b => decide (lt (key a) (key b))) _ = _
  rw [List.filter_append, List.filter_cons_of_neg (by simpa using hself), hnone, hall,
    List.nil_append]

/-- What follows a cursor is the end of the list. -/
theorem rowsAfter_suffix [Std.Asymm lt] [IsTrans κ lt] {rows : List α}
    (hsorted : rows.Pairwise fun a b => lt (key a) (key b)) (cursor : Option κ) :
    rowsAfter key lt rows cursor <:+ rows := by
  cases cursor with
  | none => exact ⟨[], by rw [rowsAfter_none, List.nil_append]⟩
  | some c =>
    induction rows with
    | nil => exact List.suffix_refl _
    | cons a rest ih =>
      obtain ⟨hfirst, hrest⟩ := List.pairwise_cons.mp hsorted
      by_cases ha : lt c (key a)
      · have hall : rowsAfter key lt (a :: rest) (some c) = a :: rest := by
          refine List.filter_eq_self.mpr fun b hb => decide_eq_true ?_
          rcases List.mem_cons.mp hb with rfl | hb
          · exact ha
          · exact IsTrans.trans _ _ _ ha (hfirst b hb)
        exact ⟨[], by rw [hall, List.nil_append]⟩
      · have hskip : rowsAfter key lt (a :: rest) (some c) = rowsAfter key lt rest (some c) :=
          List.filter_cons_of_neg (by simpa using ha)
        rw [hskip]
        exact (ih hrest).trans (List.suffix_cons a rest)

theorem dropLast_take_succ {n : Nat} {rows : List α} (h : n < rows.length) :
    (rows.take (n + 1)).dropLast = rows.take n := by
  rw [List.dropLast_eq_take, List.take_take, List.length_take]
  congr 1
  omega

/-- The rows after the last one of a page are those that the page left out. -/
theorem rowsAfter_getLast_take [Std.Asymm lt] [IsTrans κ lt] {rows : List α}
    (hsorted : rows.Pairwise fun a b => lt (key a) (key b)) {cursor : Option κ} {n : Nat} {last : α}
    (hlast : ((rowsAfter key lt rows cursor).take n).getLast? = some last) :
    rowsAfter key lt rows (some (key last)) = (rowsAfter key lt rows cursor).drop n := by
  obtain ⟨before, hbefore⟩ := rowsAfter_suffix hsorted cursor
  obtain ⟨init, hinit⟩ := List.getLast?_eq_some_iff.mp hlast
  generalize rowsAfter key lt rows cursor = rest at *
  have hsplit : (before ++ init) ++ last :: rest.drop n = rows := by
    rw [List.append_cons, List.append_assoc before, ← hinit, List.append_assoc,
      List.take_append_drop, hbefore]
  rw [← hsplit] at hsorted ⊢
  exact rowsAfter_split hsorted

/-- Either the page is the last, or it is full and the rows after its cursor are those that it
left out. -/
theorem keysetPage_cases [Std.Asymm lt] [IsTrans κ lt] {rows : List α}
    (hsorted : rows.Pairwise fun a b => lt (key a) (key b)) {limit : Nat} (hlimit : 0 < limit)
    (cursor : Option κ) :
    keysetPage key lt rows limit cursor = (rowsAfter key lt rows cursor, none) ∨
      ∃ found next, keysetPage key lt rows limit cursor = (found, some next) ∧
        found.length = limit ∧
        rowsAfter key lt rows cursor = found ++ rowsAfter key lt rows (some next) := by
  have hbehind : ∀ last, ((rowsAfter key lt rows cursor).take limit).getLast? = some last →
      rowsAfter key lt rows (some (key last)) = (rowsAfter key lt rows cursor).drop limit :=
    fun last hlast => rowsAfter_getLast_take hsorted hlast
  unfold keysetPage
  dsimp only
  generalize rowsAfter key lt rows cursor = rest at *
  rw [List.length_take]
  by_cases hmore : limit < rest.length
  · right
    have hfull : (rest.take limit).length = limit := by
      rw [List.length_take]
      omega
    have hne : rest.take limit ≠ [] := fun h => by
      rw [h, List.length_nil] at hfull
      omega
    have hlast := List.getLast?_eq_some_getLast hne
    refine ⟨rest.take limit, key ((rest.take limit).getLast hne), ?_, hfull, ?_⟩
    · rw [if_pos (by omega), dropLast_take_succ hmore, hlast]
      rfl
    · rw [hbehind _ hlast, List.take_append_drop]
  · left
    rw [if_neg (by omega), List.take_of_length_le (by omega)]

/-- Following the cursors reads every row behind the first one, once and in order. -/
theorem follow_keysetPage [Std.Asymm lt] [IsTrans κ lt] {rows : List α}
    (hsorted : rows.Pairwise fun a b => lt (key a) (key b)) {limit : Nat} (hlimit : 0 < limit)
    {fuel : Nat} {cursor : Option κ} (hfuel : (rowsAfter key lt rows cursor).length < fuel) :
    follow (keysetPage key lt rows limit) fuel cursor = some (rowsAfter key lt rows cursor) := by
  induction fuel generalizing cursor with
  | zero => omega
  | succ fuel ih =>
    unfold follow
    rcases keysetPage_cases hsorted hlimit cursor with hlast | ⟨found, next, hpage, hfull, hrest⟩
    · rw [hlast]
    · rw [hrest, List.length_append] at hfuel
      rw [hpage, hrest]
      show (follow _ fuel (some next)).map _ = _
      rw [ih (by omega)]
      rfl

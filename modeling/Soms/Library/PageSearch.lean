import Mathlib.Data.List.Basic

/-!
# Binary search over pages

A list is served in pages of one size, numbered from one.  Its first elements satisfy a predicate
and the others do not; a binary search over the pages, which looks at the first and the last element
of each page it fetches, fetches the pages of the elements next to the boundary.
-/

namespace PageSearch

variable {α : Type} (above : α → Bool) (rows : List α) (size : Nat)

/-- Page `n`, counted from one. -/
def pageOf (n : Nat) : List α := (rows.drop ((n - 1) * size)).take size

/-- The pages that the search fetches between `low` and `beyond`, which is the first page that is
left out. -/
def visited (page : Nat → List α) (low beyond : Nat) : List Nat :=
  if low < beyond then
    let mid := (low + beyond - 1) / 2
    if (page mid).head?.all (!above ·) then mid :: visited page low mid
    else if (page mid).getLast?.any above then mid :: visited page (mid + 1) beyond
    else [mid]
  else []
termination_by beyond - low

/-- An index is on a page. -/
def OnPage (page i : Nat) : Prop := 1 ≤ page ∧ (page - 1) * size ≤ i ∧ i < page * size

variable {above rows size}

theorem OnPage.mem {page i : Nat} {a : α} (h : OnPage size page i) (hi : rows[i]? = some a) :
    a ∈ pageOf rows size page := by
  obtain ⟨hpage, hlow, hhigh⟩ := h
  obtain ⟨n, rfl⟩ : ∃ n, page = n + 1 := ⟨page - 1, by omega⟩
  rw [Nat.add_mul, Nat.one_mul] at hhigh
  rw [Nat.add_sub_cancel] at hlow
  rw [pageOf, Nat.add_sub_cancel, List.mem_iff_getElem?]
  refine ⟨i - n * size, ?_⟩
  rw [List.getElem?_take_of_lt (by omega), List.getElem?_drop, Nat.add_sub_cancel' hlow, hi]

/-- The elements that satisfy the predicate are the first ones. -/
theorem above_iff (hclosed : rows.Pairwise fun a b => above b = true → above a = true) {i : Nat}
    {a : α} (hi : rows[i]? = some a) : above a = true ↔ i < rows.countP above := by
  induction rows generalizing i with
  | nil => simp at hi
  | cons b rest ih =>
    obtain ⟨hfirst, hrest⟩ := List.pairwise_cons.mp hclosed
    cases hb : above b with
    | true =>
      rw [List.countP_cons_of_pos hb]
      cases i with
      | zero =>
        obtain rfl : b = a := by simpa using hi
        simp [hb]
      | succ i =>
        rw [ih hrest (by simpa using hi)]
        omega
    | false =>
      have hnone : ∀ c ∈ rest, ¬ above c = true := fun c hc habove => by
        rw [hfirst c hc habove] at hb
        cases hb
      have hcount : (b :: rest).countP above = 0 := by
        rw [List.countP_cons_of_neg (by simp [hb]), List.countP_eq_zero.mpr hnone]
      rw [hcount]
      cases i with
      | zero =>
        obtain rfl : b = a := by simpa using hi
        simp [hb]
      | succ i =>
        have hmem : a ∈ rest := List.mem_of_getElem? (by simpa using hi)
        simp [hnone a hmem]

/-- If the first element of a page does not satisfy the predicate, the boundary is not behind it. -/
theorem countP_le_of_head (hclosed : rows.Pairwise fun a b => above b = true → above a = true)
    (hsize : 0 < size) {n : Nat} (h : (pageOf rows size (n + 1)).head?.all (!above ·) = true) :
    rows.countP above ≤ n * size := by
  rw [pageOf, Nat.add_sub_cancel, List.head?_take, if_neg (by omega), List.head?_drop] at h
  cases hrow : rows[n * size]? with
  | none =>
    have hlength := List.getElem?_eq_none_iff.mp hrow
    exact Nat.le_trans List.countP_le_length hlength
  | some a =>
    rw [hrow] at h
    have hnot : ¬ above a = true := by simpa using h
    rw [above_iff hclosed hrow] at hnot
    omega

theorem getLast?_pageOf {n : Nat} {a : α} (h : (pageOf rows size (n + 1)).getLast? = some a) :
    n * size < rows.length ∧ rows[min (n * size + size) rows.length - 1]? = some a := by
  have hlength : (pageOf rows size (n + 1)).length = min size (rows.length - n * size) := by
    rw [pageOf, Nat.add_sub_cancel, List.length_take, List.length_drop]
  have hpos : 0 < (pageOf rows size (n + 1)).length :=
    List.length_pos_of_mem (List.mem_of_getLast? h)
  rw [List.getLast?_eq_getElem?, hlength, pageOf, Nat.add_sub_cancel,
    List.getElem?_take_of_lt (by omega), List.getElem?_drop] at h
  refine ⟨by omega, ?_⟩
  rw [← h]
  congr 1
  omega

/-- If the last element of a page satisfies the predicate, the boundary is behind the page. -/
theorem le_countP_of_getLast (hclosed : rows.Pairwise fun a b => above b = true → above a = true)
    {n : Nat} (h : (pageOf rows size (n + 1)).getLast?.any above = true) :
    n * size < rows.length ∧ min (n * size + size) rows.length ≤ rows.countP above := by
  obtain ⟨a, hlast, habove⟩ := (Option.any_eq_true _ _).mp h
  obtain ⟨hstart, hrow⟩ := getLast?_pageOf hlast
  have hcount := (above_iff hclosed hrow).mp habove
  omega

/-- If the first element satisfies the predicate and the last one does not, the boundary is between
them. -/
theorem countP_between (hclosed : rows.Pairwise fun a b => above b = true → above a = true)
    (hsize : 0 < size) {n : Nat} (hfirst : ¬ (pageOf rows size (n + 1)).head?.all (!above ·) = true)
    (hlast : ¬ (pageOf rows size (n + 1)).getLast?.any above = true) :
    n * size < rows.countP above ∧ rows.countP above < n * size + size := by
  cases hhead : (pageOf rows size (n + 1)).head? with
  | none => simp [hhead] at hfirst
  | some a =>
    have habove : above a = true := by simpa [hhead] using hfirst
    rw [pageOf, Nat.add_sub_cancel, List.head?_take, if_neg (by omega), List.head?_drop] at hhead
    have hstart := (above_iff hclosed hhead).mp habove
    refine ⟨hstart, ?_⟩
    cases hend : (pageOf rows size (n + 1)).getLast? with
    | none =>
      have hempty := List.getLast?_eq_none_iff.mp hend
      rw [hempty] at hfirst
      exact absurd rfl hfirst
    | some b =>
      obtain ⟨-, hrow⟩ := getLast?_pageOf hend
      have hbelow : ¬ above b = true := by simpa [hend] using hlast
      rw [above_iff hclosed hrow] at hbelow
      have hle := List.countP_le_length (p := above) (l := rows)
      omega

/-- Around the boundary of a list, the search fetches the pages between `low` and `beyond`; those
just outside have been fetched before. -/
theorem visited_spec (hclosed : rows.Pairwise fun a b => above b = true → above a = true)
    (hsize : 0 < size) {low beyond : Nat} (hlow : 1 ≤ low) (hle : low ≤ beyond)
    (hbefore : low = 1 ∨ (low - 2) * size < rows.length ∧
      min ((low - 1) * size) rows.length ≤ rows.countP above)
    (hbehind : rows.countP above ≤ (beyond - 1) * size) {i : Nat} (hi : i < rows.length)
    (hnext : i = rows.countP above ∨ i + 1 = rows.countP above) :
    (∃ page ∈ visited above (pageOf rows size) low beyond, OnPage size page i) ∨
      i + 1 = rows.countP above ∧ OnPage size (low - 1) i ∨
      i = rows.countP above ∧ OnPage size beyond i := by
  fun_induction visited above (pageOf rows size) low beyond with
  | case1 low beyond hlt mid hhead ih =>
    have hmid : mid = (low + beyond - 1) / 2 := rfl
    obtain ⟨n, hn⟩ : ∃ n, mid = n + 1 := ⟨mid - 1, by omega⟩
    have hcount := countP_le_of_head hclosed hsize (hn ▸ hhead)
    rcases ih hlow (by omega) hbefore (by rw [hn]; exact hcount) with
      ⟨page, hpage, hon⟩ | hleft | ⟨-, hon⟩
    · exact .inl ⟨page, List.mem_cons_of_mem _ hpage, hon⟩
    · exact .inr (.inl hleft)
    · exact .inl ⟨mid, List.mem_cons_self, hon⟩
  | case2 low beyond hlt mid hhead hlast ih =>
    have hmid : mid = (low + beyond - 1) / 2 := rfl
    obtain ⟨n, hn⟩ : ∃ n, mid = n + 1 := ⟨mid - 1, by omega⟩
    have hcount := le_countP_of_getLast hclosed (hn ▸ hlast)
    have hnew : (mid + 1 - 2) * size < rows.length ∧
        min ((mid + 1 - 1) * size) rows.length ≤ rows.countP above := by
      rw [hn, show n + 1 + 1 - 2 = n by omega, Nat.add_sub_cancel, Nat.add_mul, Nat.one_mul]
      exact hcount
    rcases ih (by omega) (by omega) (.inr hnew) hbehind with
      ⟨page, hpage, hon⟩ | ⟨-, hon⟩ | hright
    · exact .inl ⟨page, List.mem_cons_of_mem _ hpage, hon⟩
    · exact .inl ⟨mid, List.mem_cons_self, hon⟩
    · exact .inr (.inr hright)
  | case3 low beyond hlt mid hhead hlast =>
    have hmid : mid = (low + beyond - 1) / 2 := rfl
    obtain ⟨n, hn⟩ : ∃ n, mid = n + 1 := ⟨mid - 1, by omega⟩
    obtain ⟨hstart, hend⟩ := countP_between hclosed hsize (hn ▸ hhead) (hn ▸ hlast)
    refine .inl ⟨mid, List.mem_singleton_self mid, ?_⟩
    rw [hn, OnPage, Nat.add_sub_cancel, Nat.add_mul, Nat.one_mul]
    omega
  | case4 low beyond hnot =>
    obtain rfl : low = beyond := by omega
    right
    have hwidth : low * size = (low - 1) * size + size := by
      rw [← Nat.succ_mul, Nat.succ_eq_add_one, Nat.sub_add_cancel hlow]
    rcases hbefore with rfl | ⟨hstart, hmin⟩
    · rcases hnext with hi' | hi'
      · exact .inr ⟨hi', Nat.le_refl 1, by omega, by omega⟩
      · omega
    · rcases hnext with hi' | hi'
      · exact .inr ⟨hi', hlow, by omega, by omega⟩
      · by_cases hone : low = 1
        · subst hone
          omega
        · have hwidth' : (low - 1) * size = (low - 2) * size + size := by
            rw [← Nat.succ_mul, Nat.succ_eq_add_one, show low - 2 + 1 = low - 1 by omega]
          exact .inl ⟨hi', by omega, by rw [show low - 1 - 1 = low - 2 by omega]; omega, by omega⟩

/-- The search over all pages fetches the last element that satisfies the predicate and the first
one that does not. -/
theorem exists_visited (hclosed : rows.Pairwise fun a b => above b = true → above a = true)
    (hsize : 0 < size) {pages : Nat} (hall : rows.length ≤ pages * size)
    {i : Nat} {a : α} (hi : rows[i]? = some a)
    (hnext : i = rows.countP above ∨ i + 1 = rows.countP above) :
    ∃ page ∈ visited above (pageOf rows size) 1 (pages + 1), a ∈ pageOf rows size page := by
  have hlt := (List.getElem?_eq_some_iff.mp hi).1
  have hcount := List.countP_le_length (p := above) (l := rows)
  rcases visited_spec hclosed hsize (Nat.le_refl 1) (Nat.le_add_left 1 pages) (.inl rfl)
      (Nat.le_trans hcount hall) hlt hnext with ⟨page, hpage, hon⟩ | ⟨-, hon⟩ | ⟨-, hon⟩
  · exact ⟨page, hpage, hon.mem hi⟩
  · exact absurd hon.1 (by decide)
  · have hstart := hon.2.1
    rw [Nat.add_sub_cancel] at hstart
    omega

/-! ### Positions -/

/-- What was fetched of a list whose elements carry their position: some of its elements, and those
next to the boundary. -/
structure Fetched (above : α → Bool) (rank : α → Int) (rows fetched : List α) : Prop where
  closed : rows.Pairwise fun a b => above b = true → above a = true
  position : ∀ (i : Nat) a, rows[i]? = some a → rank a = i + 1
  subset : ∀ a ∈ fetched, a ∈ rows
  boundary : ∀ (i : Nat) a, rows[i]? = some a → i = rows.countP above ∨ i + 1 = rows.countP above →
    a ∈ fetched

namespace Fetched

variable {rank : α → Int} {fetched : List α} {ranks : List Int}

/-- The elements fetched above the boundary are those at the first positions. -/
theorem above_iff_rank (h : Fetched above rank rows fetched) {a : α} (ha : a ∈ fetched) :
    1 ≤ rank a ∧ (above a = true ↔ rank a ≤ rows.countP above) := by
  obtain ⟨i, hi⟩ := List.mem_iff_getElem?.mp (h.subset a ha)
  rw [above_iff h.closed hi, h.position i a hi]
  omega

/-- The last position above the boundary is the number of elements above it. -/
theorem max_eq (h : Fetched above rank rows fetched)
    (hranks : ∀ n, n ∈ ranks ↔ ∃ a ∈ fetched, above a = true ∧ rank a = n) :
    ranks.max?.getD 0 = rows.countP above := by
  cases hcount : rows.countP above with
  | zero =>
    have hnone : ranks = [] := by
      refine List.eq_nil_iff_forall_not_mem.mpr fun n hn => ?_
      obtain ⟨a, ha, habove, -⟩ := (hranks n).mp hn
      obtain ⟨hpos, hiff⟩ := h.above_iff_rank ha
      have hle := hiff.mp habove
      omega
    rw [hnone]
    rfl
  | succ k =>
    have hlt : k < rows.length := by
      have hle := List.countP_le_length (p := above) (l := rows)
      omega
    have hlast := List.getElem?_eq_getElem hlt
    have hmem := h.boundary k _ hlast (.inr hcount.symm)
    have hrank := h.position k _ hlast
    have hmax : ranks.max? = some ((k + 1 : Nat) : Int) := by
      refine List.max?_eq_some_iff.mpr ⟨(hranks _).mpr ⟨_, hmem, ?_, hrank⟩, fun n hn => ?_⟩
      · rw [above_iff h.closed hlast, hcount]
        exact Nat.lt_succ_self k
      · obtain ⟨a, ha, habove, rfl⟩ := (hranks n).mp hn
        rw [← hcount]
        exact (h.above_iff_rank ha).2.mp habove
    rw [hmax]
    rfl

/-- The first position that is not above the boundary. -/
theorem min_eq (h : Fetched above rank rows fetched) (hsome : rows.countP above < rows.length)
    (hranks : ∀ n, n ∈ ranks ↔ ∃ a ∈ fetched, above a = false ∧ rank a = n) :
    ranks.min? = some (rows.countP above + 1 : Int) := by
  have hfirst := List.getElem?_eq_getElem hsome
  have hmem := h.boundary _ _ hfirst (.inl rfl)
  refine List.min?_eq_some_iff.mpr
    ⟨(hranks _).mpr ⟨_, hmem, ?_, h.position _ _ hfirst⟩, fun n hn => ?_⟩
  · rw [← Bool.not_eq_true, above_iff h.closed hfirst]
    exact Nat.lt_irrefl _
  · obtain ⟨a, ha, hbelow, rfl⟩ := (hranks n).mp hn
    have hnot : ¬ rank a ≤ rows.countP above := fun hle => by
      rw [(h.above_iff_rank ha).2.mpr hle] at hbelow
      cases hbelow
    omega

/-- If all elements are above the boundary, no other is fetched. -/
theorem min_eq_none (h : Fetched above rank rows fetched) (hall : rows.countP above = rows.length)
    (hranks : ∀ n, n ∈ ranks ↔ ∃ a ∈ fetched, above a = false ∧ rank a = n) : ranks = [] := by
  refine List.eq_nil_iff_forall_not_mem.mpr fun n hn => ?_
  obtain ⟨a, ha, hbelow, -⟩ := (hranks n).mp hn
  rw [List.countP_eq_length.mp hall a (h.subset a ha)] at hbelow
  cases hbelow

end Fetched

end PageSearch

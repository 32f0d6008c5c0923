import Mathlib.Algebra.BigOperators.Group.List.Basic
import Mathlib.Data.List.Basic
import Mathlib.Data.List.Nodup

/-!
# Tables with generated keys

A table holds at most one row for each key and generates the key of a new row.
Generated keys are never given out twice, also after a deletion: the field
`fresh` keeps every key from `next` on unused.
-/

/-- A table of rows `α` under generated natural keys. -/
structure Table (α : Type) where
  row : Nat → Option α
  next : Nat
  fresh : ∀ i, next ≤ i → row i = none

namespace Table

variable {α : Type}

/-- The empty table.  The first generated key is one. -/
def empty : Table α where
  row := fun _ => none
  next := 1
  fresh := fun _ _ => rfl

/-- Insert a row under the key `t.next`. -/
def insert (t : Table α) (a : α) : Table α where
  row := fun i => if i = t.next then some a else t.row i
  next := t.next + 1
  fresh := by
    intro i hi
    have hne : i ≠ t.next := by omega
    simp only [hne, if_false]
    exact t.fresh i (by omega)

/-- Keep the rows that satisfy a condition. -/
def filter (t : Table α) (p : α → Bool) : Table α where
  row := fun i => (t.row i).filter p
  next := t.next
  fresh := by
    intro i hi
    simp [t.fresh i hi]

/-- Change the row under a key, if there is one. -/
def modify (t : Table α) (k : Nat) (f : α → α) : Table α where
  row := fun i => if i = k then (t.row i).map f else t.row i
  next := t.next
  fresh := by
    intro i hi
    simp [t.fresh i hi]

/-- Change every row. -/
def map (t : Table α) (f : α → α) : Table α where
  row := fun i => (t.row i).map f
  next := t.next
  fresh := by
    intro i hi
    simp [t.fresh i hi]

def delete (t : Table α) (k : Nat) : Table α where
  row := fun i => if i = k then none else t.row i
  next := t.next
  fresh := by
    intro i hi
    simp [t.fresh i hi]

/-- The rows with their keys, in the order of the keys. -/
def toList (t : Table α) : List (Nat × α) :=
  (List.range t.next).filterMap fun i => (t.row i).map fun a => (i, a)

/-- The first row, in the order of the keys, that satisfies the condition. -/
def find (t : Table α) (p : α → Bool) : Option (Nat × α) :=
  t.toList.find? fun x => p x.2

@[simp] theorem row_empty (i : Nat) : (empty : Table α).row i = none := rfl

@[simp] theorem row_insert (t : Table α) (a : α) (i : Nat) :
    (t.insert a).row i = if i = t.next then some a else t.row i := rfl

@[simp] theorem next_insert (t : Table α) (a : α) : (t.insert a).next = t.next + 1 := rfl

@[simp] theorem row_filter (t : Table α) (p : α → Bool) (i : Nat) :
    (t.filter p).row i = (t.row i).filter p := rfl

@[simp] theorem next_filter (t : Table α) (p : α → Bool) : (t.filter p).next = t.next := rfl

@[simp] theorem row_modify (t : Table α) (k : Nat) (f : α → α) (i : Nat) :
    (t.modify k f).row i = if i = k then (t.row i).map f else t.row i := rfl

@[simp] theorem next_modify (t : Table α) (k : Nat) (f : α → α) :
    (t.modify k f).next = t.next := rfl

@[simp] theorem row_map (t : Table α) (f : α → α) (i : Nat) :
    (t.map f).row i = (t.row i).map f := rfl

@[simp] theorem next_map (t : Table α) (f : α → α) : (t.map f).next = t.next := rfl

@[simp] theorem row_delete (t : Table α) (k i : Nat) :
    (t.delete k).row i = if i = k then none else t.row i := rfl

@[simp] theorem next_delete (t : Table α) (k : Nat) : (t.delete k).next = t.next := rfl

theorem map_map (t : Table α) (f g : α → α) : (t.map f).map g = t.map (g ∘ f) := by
  simp only [map, mk.injEq, and_true]
  funext i
  rw [Option.map_map]

theorem map_id (t : Table α) : t.map id = t := by
  cases t
  simp only [map, mk.injEq, and_true]
  funext i
  rw [Option.map_id]
  rfl

theorem map_congr {t : Table α} {f g : α → α} (h : ∀ a, f a = g a) : t.map f = t.map g := by
  rw [funext h]

theorem modify_id (t : Table α) (k : Nat) : t.modify k (fun a => a) = t := by
  cases t
  simp only [modify, mk.injEq, and_true]
  funext i
  split <;> simp

theorem map_modify (t : Table α) (k : Nat) (f f' g : α → α)
    (h : ∀ a, t.row k = some a → g (f a) = f' (g a)) :
    (t.modify k f).map g = (t.map g).modify k f' := by
  simp only [map, modify, mk.injEq, and_true]
  funext i
  by_cases hi : i = k
  · subst hi
    cases hrow : t.row i with
    | none => simp
    | some a => simp [h a hrow]
  · simp [hi]

/-- A change that `g` does not see. -/
theorem map_modify_of_eq (t : Table α) (k : Nat) (f g : α → α)
    (h : ∀ a, t.row k = some a → g (f a) = g a) : (t.modify k f).map g = t.map g := by
  rw [map_modify t k f (fun a => a) g h, modify_id]

/-- What is done to the row that is there decides. -/
theorem modify_congr {t : Table α} {k : Nat} {f g : α → α}
    (h : ∀ a, t.row k = some a → f a = g a) : t.modify k f = t.modify k g := by
  simp only [modify, mk.injEq, and_true]
  funext i
  by_cases hi : i = k
  · subst hi
    cases hrow : t.row i with
    | none => rfl
    | some a => simp [h a hrow]
  · simp [hi]

theorem modify_modify (t : Table α) (k : Nat) (f g : α → α) :
    (t.modify k f).modify k g = t.modify k (g ∘ f) := by
  simp only [modify, mk.injEq, and_true]
  funext i
  by_cases hi : i = k <;> simp [hi]

theorem lt_next {t : Table α} {i : Nat} {a : α} (h : t.row i = some a) : i < t.next := by
  rcases Nat.lt_or_ge i t.next with hlt | hge
  · exact hlt
  · simp [t.fresh i hge] at h

/-- The rows of before stay. -/
theorem row_insert_of_some {t : Table α} {i : Nat} {a b : α} (h : t.row i = some b) :
    (t.insert a).row i = some b := by
  rw [row_insert, if_neg (Nat.ne_of_lt (lt_next h))]
  exact h

@[simp] theorem row_next (t : Table α) : t.row t.next = none := t.fresh _ (Nat.le_refl _)

/-- Rows inserted one after the other get consecutive keys. -/
theorem insert_range (t : Table α) (f : Nat → α) (n : Nat) :
    ((List.range n).foldl (fun s j => s.insert (f j)) t).next = t.next + n ∧
      ∀ i, ((List.range n).foldl (fun s j => s.insert (f j)) t).row i =
        if t.next ≤ i ∧ i < t.next + n then some (f (i - t.next)) else t.row i := by
  induction n with
  | zero =>
    refine ⟨rfl, fun i => ?_⟩
    rw [if_neg (by omega)]
    rfl
  | succ n ih =>
    obtain ⟨hnext, hrow⟩ := ih
    rw [List.range_succ, List.foldl_append]
    refine ⟨by simp only [List.foldl_cons, List.foldl_nil, next_insert, hnext]; omega, fun i => ?_⟩
    simp only [List.foldl_cons, List.foldl_nil, row_insert, hnext, hrow]
    by_cases hi : i = t.next + n
    · rw [if_pos hi, if_pos (by omega), show i - t.next = n by omega]
    · rw [if_neg hi]
      by_cases hlt : t.next ≤ i ∧ i < t.next + n
      · rw [if_pos hlt, if_pos (by omega)]
      · rw [if_neg hlt, if_neg (by omega)]

theorem mem_toList {t : Table α} {i : Nat} {a : α} : (i, a) ∈ t.toList ↔ t.row i = some a := by
  simp only [toList, List.mem_filterMap, List.mem_range, Option.map_eq_some_iff, Prod.mk.injEq]
  constructor
  · rintro ⟨j, -, b, hb, rfl, rfl⟩
    exact hb
  · intro h
    exact ⟨i, lt_next h, a, h, rfl, rfl⟩

theorem toList_insert (t : Table α) (a : α) : (t.insert a).toList = t.toList ++ [(t.next, a)] := by
  have hold : (List.range t.next).filterMap (fun i => ((t.insert a).row i).map fun b => (i, b)) =
      t.toList := by
    refine List.filterMap_congr fun i hi => ?_
    rw [row_insert, if_neg (Nat.ne_of_lt (List.mem_range.mp hi))]
  rw [toList, next_insert, List.range_succ, List.filterMap_append, hold]
  simp

theorem toList_map (t : Table α) (f : α → α) :
    (t.map f).toList = t.toList.map fun x => (x.1, f x.2) := by
  rw [toList, toList, List.map_filterMap]
  refine List.filterMap_congr fun i _ => ?_
  rw [row_map, Option.map_map, Option.map_map]
  rfl

theorem toList_modify (t : Table α) (k : Nat) (f : α → α) :
    (t.modify k f).toList = t.toList.map fun x => if x.1 = k then (x.1, f x.2) else x := by
  rw [toList, toList, List.map_filterMap]
  refine List.filterMap_congr fun i _ => ?_
  rw [row_modify, Option.map_map]
  by_cases hi : i = k
  · simp [hi, Function.comp_def]
  · simp [hi, Function.comp_def]

theorem nodup_toList (t : Table α) : (t.toList.map Prod.fst).Nodup := by
  have hkeys : t.toList.map Prod.fst =
      (List.range t.next).filter fun i => (t.row i).isSome := by
    unfold toList
    induction List.range t.next with
    | nil => rfl
    | cons i rest ih =>
      cases h : t.row i <;> simp [h, ih]
  rw [hkeys]
  exact List.nodup_range.filter _

theorem row_foldl_delete (t : Table α) (ids : List Nat) (i : Nat) :
    (ids.foldl delete t).row i = if i ∈ ids then none else t.row i := by
  induction ids generalizing t with
  | nil => simp
  | cons k rest ih =>
    rw [List.foldl_cons, ih]
    by_cases hi : i ∈ rest
    · simp [hi]
    · by_cases hk : i = k <;> simp [hi, hk]

theorem next_foldl_delete (t : Table α) (ids : List Nat) : (ids.foldl delete t).next = t.next := by
  induction ids generalizing t with
  | nil => rfl
  | cons k rest ih => rw [List.foldl_cons, ih, next_delete]

/-- Two lists of values with the same keys, each key once, have the same sum if the values of a
key are equal. -/
theorem sum_eq_of_keys {β κ M : Type} [AddCommMonoid M] {l : List α} {m : List β} {key : α → κ}
    {key' : β → κ} {f : α → M} {g : β → M} (hl : (l.map key).Nodup) (hm : (m.map key').Nodup)
    (hto : ∀ a ∈ l, ∃ b ∈ m, key' b = key a ∧ g b = f a)
    (hfrom : ∀ b ∈ m, ∃ a ∈ l, key a = key' b ∧ f a = g b) : (l.map f).sum = (m.map g).sum := by
  have hpairs : (l.map fun a => (key a, f a)).Perm (m.map fun b => (key' b, g b)) := by
    have hleft : (l.map fun a => (key a, f a)).Nodup :=
      .of_map Prod.fst (by rw [List.map_map]; exact hl)
    have hright : (m.map fun b => (key' b, g b)).Nodup :=
      .of_map Prod.fst (by rw [List.map_map]; exact hm)
    refine (List.perm_ext_iff_of_nodup hleft hright).mpr fun x => ?_
    constructor
    · intro hx
      obtain ⟨a, ha, rfl⟩ := List.mem_map.mp hx
      obtain ⟨b, hb, hkey, hval⟩ := hto a ha
      exact List.mem_map.mpr ⟨b, hb, by rw [hkey, hval]⟩
    · intro hx
      obtain ⟨b, hb, rfl⟩ := List.mem_map.mp hx
      obtain ⟨a, ha, hkey, hval⟩ := hfrom b hb
      exact List.mem_map.mpr ⟨a, ha, by rw [hkey, hval]⟩
  have hsum := (hpairs.map Prod.snd).sum_eq
  rwa [List.map_map, List.map_map] at hsum

/-! ## Sums over the rows -/

/-- The sum of a value over the rows. -/
def sum {M : Type} [AddCommMonoid M] (t : Table α) (f : Nat → α → M) : M :=
  ((List.range t.next).map fun i => (t.row i).elim 0 (f i)).sum

section Sum

variable {M : Type} [AddCommMonoid M]

@[simp] theorem sum_empty (f : Nat → α → M) : (empty : Table α).sum f = 0 := by
  simp [sum, empty]

theorem sum_congr {t u : Table α} {f g : Nat → α → M} (hnext : t.next = u.next)
    (h : ∀ i, (t.row i).elim 0 (f i) = (u.row i).elim 0 (g i)) : t.sum f = u.sum g := by
  rw [sum, sum, hnext]
  exact congrArg List.sum (List.map_congr_left fun i _ => h i)

theorem sum_insert (t : Table α) (a : α) (f : Nat → α → M) :
    (t.insert a).sum f = t.sum f + f t.next a := by
  have hold : (List.range t.next).map (fun i => ((t.insert a).row i).elim 0 (f i)) =
      (List.range t.next).map fun i => (t.row i).elim 0 (f i) := by
    refine List.map_congr_left fun i hi => ?_
    rw [row_insert, if_neg (Nat.ne_of_lt (List.mem_range.mp hi))]
  rw [sum, next_insert, List.range_succ, List.map_append, List.sum_append, hold]
  simp [sum]

theorem sum_eq_zero (t : Table α) {f : Nat → α → M} (h : ∀ i a, t.row i = some a → f i a = 0) :
    t.sum f = 0 := by
  refine List.sum_eq_zero fun m hm => ?_
  obtain ⟨i, -, rfl⟩ := List.mem_map.mp hm
  cases hrow : t.row i with
  | none => rfl
  | some a => exact h i a hrow

/-- Values that differ at one row have sums that differ by that row. -/
theorem sum_change {t u : Table α} {f g : Nat → α → M} {k : Nat} (hnext : u.next = t.next)
    (hk : k < t.next) (h : ∀ i, i ≠ k → (u.row i).elim 0 (g i) = (t.row i).elim 0 (f i)) :
    u.sum g + (t.row k).elim 0 (f k) = t.sum f + (u.row k).elim 0 (g k) := by
  have hrange : ∀ n, ((List.range n).map fun i => (u.row i).elim 0 (g i)).sum +
      (if k < n then (t.row k).elim 0 (f k) else 0) =
        ((List.range n).map fun i => (t.row i).elim 0 (f i)).sum +
          if k < n then (u.row k).elim 0 (g k) else 0 := by
    intro n
    induction n with
    | zero => simp
    | succ n ih =>
      simp only [List.range_succ, List.map_append, List.sum_append, List.map_cons, List.map_nil,
        List.sum_cons, List.sum_nil, add_zero]
      by_cases hn : n = k
      · subst hn
        simp only [Nat.lt_irrefl, if_false, add_zero] at ih
        simp only [Nat.lt_succ_self, if_true, ih]
        exact add_right_comm _ _ _
      · have hlt : k < n + 1 ↔ k < n := by omega
        simp only [hlt, h n hn]
        rw [add_right_comm, ih, add_right_comm]
  simpa [sum, hnext, hk] using hrange t.next

/-- Changing one row changes the sum by that row. -/
theorem sum_modify (t : Table α) (e : α → α) (f : Nat → α → M) {k : Nat} {a : α}
    (h : t.row k = some a) : (t.modify k e).sum f + f k a = t.sum f + f k (e a) := by
  have := sum_change (t := t) (u := t.modify k e) (f := f) (g := f) rfl (lt_next h)
    fun i hi => by rw [row_modify, if_neg hi]
  simpa [h] using this

end Sum

/-! ## Counting rows -/

/-- The number of rows that satisfy the condition. -/
def count (t : Table α) (p : α → Bool) : Nat := (List.range t.next).countP fun i => (t.row i).any p

theorem count_eq_sum (t : Table α) (p : α → Bool) :
    t.count p = t.sum fun _ a => if p a then 1 else 0 := by
  rw [count, sum, List.countP_eq_length_filter]
  induction List.range t.next with
  | nil => rfl
  | cons i rest ih =>
    rw [List.map_cons, List.sum_cons, ← ih, List.filter_cons]
    cases hrow : t.row i with
    | none => simp
    | some a => by_cases hp : p a <;> simp [hp, Nat.add_comm]

@[simp] theorem count_empty (p : α → Bool) : (empty : Table α).count p = 0 := rfl

theorem count_insert (t : Table α) (a : α) (p : α → Bool) :
    (t.insert a).count p = t.count p + if p a then 1 else 0 := by
  rw [count_eq_sum, count_eq_sum, sum_insert]

/-- Changing one row changes the count by that row. -/
theorem count_modify (t : Table α) (f : α → α) (p : α → Bool) {k : Nat} {a : α}
    (h : t.row k = some a) :
    (t.modify k f).count p + (if p a then 1 else 0) =
      t.count p + if p (f a) then 1 else 0 := by
  rw [count_eq_sum, count_eq_sum, sum_modify t f _ h]

theorem length_filter_toList (t : Table α) (p : α → Bool) :
    (t.toList.filter fun x => p x.2).length = t.count p := by
  unfold toList count
  induction List.range t.next with
  | nil => rfl
  | cons i rest ih =>
    rw [List.countP_cons, ← ih]
    cases hrow : t.row i with
    | none => simp [hrow]
    | some a => by_cases hp : p a = true <;> simp [hrow, hp]

@[simp] theorem count_map (t : Table α) (f : α → α) (p : α → Bool) :
    (t.map f).count p = t.count fun a => p (f a) := by
  unfold count
  refine congrArg (List.countP · (List.range t.next)) (funext fun i => ?_)
  rw [row_map, Option.any_map]

theorem count_congr {t u : Table α} {p : α → Bool} (hnext : u.next = t.next)
    (h : ∀ i, (u.row i).any p = (t.row i).any p) : u.count p = t.count p := by
  unfold count
  rw [hnext]
  exact congrArg (List.countP · (List.range t.next)) (funext h)

/-- A condition splits the rows counted under another. -/
theorem count_split (t : Table α) (p q : α → Bool) :
    t.count p = (t.count fun a => p a && q a) + t.count fun a => p a && !q a := by
  unfold count
  induction List.range t.next with
  | nil => rfl
  | cons i rest ih =>
    simp only [List.countP_cons, ih]
    cases t.row i with
    | none => simp
    | some a =>
      cases hp : p a <;> cases hq : q a <;> simp [hp, hq] <;> omega

theorem count_le (t : Table α) {p q : α → Bool} (h : ∀ a, p a = true → q a = true) :
    t.count p ≤ t.count q := by
  have hsame : (t.count fun a => q a && p a) = t.count p := by
    refine congrArg t.count (funext fun a => ?_)
    cases hp : p a
    · simp
    · simp [h a hp]
  have hsplit := t.count_split q p
  rw [hsame] at hsplit
  exact hsplit ▸ Nat.le_add_right _ _

theorem count_eq_zero {t : Table α} {p : α → Bool} :
    t.count p = 0 ↔ ∀ i a, t.row i = some a → p a = false := by
  rw [← length_filter_toList, List.length_eq_zero_iff, List.filter_eq_nil_iff]
  constructor
  · intro h i a ha
    simpa using h (i, a) (mem_toList.mpr ha)
  · rintro h ⟨i, a⟩ hmem
    simpa using h i a (mem_toList.mp hmem)

theorem find_some {t : Table α} {p : α → Bool} {i : Nat} {a : α} (h : t.find p = some (i, a)) :
    t.row i = some a ∧ p a = true :=
  ⟨mem_toList.mp (List.mem_of_find?_eq_some h), by simpa using List.find?_some h⟩

theorem find_none {t : Table α} {p : α → Bool} (h : t.find p = none) {i : Nat} {a : α}
    (ha : t.row i = some a) : p a = false := by
  have := List.find?_eq_none.mp h (i, a) (mem_toList.mpr ha)
  simpa using this

end Table

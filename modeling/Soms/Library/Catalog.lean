import Mathlib.Algebra.BigOperators.Group.Finset.Basic
import Mathlib.Algebra.Order.BigOperators.Group.List
import Mathlib.Algebra.Order.Group.Nat
import Mathlib.Data.List.Nodup

/-!
# Tables with given keys

A catalog holds at most one row for each key, where the keys come from outside,
and lists the keys it has rows for.  `total` sums a value over the listed keys.
-/

/-- A table of rows `α` under given natural keys. -/
structure Catalog (α : Type) where
  ids : List Nat
  row : Nat → Option α
  nodup : ids.Nodup
  mem_ids : ∀ i, i ∈ ids ↔ (row i).isSome

namespace Catalog

variable {α : Type}

def empty : Catalog α where
  ids := []
  row := fun _ => none
  nodup := List.nodup_nil
  mem_ids := by simp

/-- Set the row under a key, which is listed if it is new. -/
def put (c : Catalog α) (k : Nat) (a : α) : Catalog α where
  ids := if k ∈ c.ids then c.ids else c.ids ++ [k]
  row := fun i => if i = k then some a else c.row i
  nodup := by
    split
    · exact c.nodup
    · next hk => exact c.nodup.append (List.nodup_singleton k) (by simpa using hk)
  mem_ids := by
    intro i
    by_cases hi : i = k
    · by_cases hk : k ∈ c.ids <;> simp [hi, hk]
    · by_cases hk : k ∈ c.ids <;> simp [hi, hk, c.mem_ids]

/-- The rows that a function keeps, in another form. -/
def filterMap {β : Type} (c : Catalog α) (f : Nat → α → Option β) : Catalog β where
  ids := c.ids.filter fun i => ((c.row i).bind (f i)).isSome
  row := fun i => (c.row i).bind (f i)
  nodup := c.nodup.filter _
  mem_ids := by
    intro i
    rw [List.mem_filter, c.mem_ids]
    cases hrow : c.row i <;> simp

@[simp] theorem row_empty (i : Nat) : (empty : Catalog α).row i = none := rfl

@[simp] theorem row_put (c : Catalog α) (k : Nat) (a : α) (i : Nat) :
    (c.put k a).row i = if i = k then some a else c.row i := rfl

@[simp] theorem row_filterMap {β : Type} (c : Catalog α) (f : Nat → α → Option β) (i : Nat) :
    (c.filterMap f).row i = (c.row i).bind (f i) := rfl

/-- A row that is there already is put in vain. -/
theorem put_eq_self {c : Catalog α} {k : Nat} {a : α} (h : c.row k = some a) : c.put k a = c := by
  have hk : k ∈ c.ids := (c.mem_ids k).mpr (by rw [h]; rfl)
  have hrow : (c.put k a).row = c.row := by
    funext i
    rw [row_put]
    split
    · next hi => rw [hi, h]
    · rfl
  have hids : (c.put k a).ids = c.ids := if_pos hk
  cases c
  simp only [put] at hrow hids ⊢
  simp only [Catalog.mk.injEq]
  exact ⟨hids, hrow⟩

theorem mem_of_row {c : Catalog α} {i : Nat} {a : α} (h : c.row i = some a) : i ∈ c.ids := by
  simp [c.mem_ids, h]

theorem exists_row {c : Catalog α} {i : Nat} (h : i ∈ c.ids) : ∃ a, c.row i = some a :=
  Option.isSome_iff_exists.mp ((c.mem_ids i).mp h)

theorem mem_ids_put (c : Catalog α) (k : Nat) (a : α) (i : Nat) :
    i ∈ (c.put k a).ids ↔ i = k ∨ i ∈ c.ids := by
  rw [mem_ids, mem_ids, row_put]
  by_cases hi : i = k <;> simp [hi]

theorem ids_put_of_mem {c : Catalog α} {k : Nat} (h : k ∈ c.ids) (a : α) :
    (c.put k a).ids = c.ids := if_pos h

theorem ids_put_of_not_mem {c : Catalog α} {k : Nat} (h : k ∉ c.ids) (a : α) :
    (c.put k a).ids = c.ids ++ [k] := if_neg h

theorem ext_rows {c d : Catalog α} (hids : c.ids = d.ids) (hrow : c.row = d.row) : c = d := by
  cases c
  cases d
  simp only [Catalog.mk.injEq]
  exact ⟨hids, hrow⟩

/-! ## Sums over the rows -/

section Total

variable {M : Type} [AddCommMonoid M]

/-- The sum of a value over the keys of the catalog. -/
def total (c : Catalog α) (f : Nat → M) : M := (c.ids.map f).sum

@[simp] theorem total_empty (f : Nat → M) : (empty : Catalog α).total f = 0 := by
  simp [total, empty]

theorem total_congr {c : Catalog α} {f g : Nat → M} (h : ∀ i ∈ c.ids, f i = g i) :
    c.total f = c.total g := by
  rw [total, total, List.map_congr_left h]

/-- A new key adds its value. -/
theorem total_put (c : Catalog α) (k : Nat) (a : α) (f : Nat → M) :
    (c.put k a).total f = c.total f + if k ∈ c.ids then 0 else f k := by
  by_cases hk : k ∈ c.ids
  · simp [total, ids_put_of_mem hk, hk]
  · simp [total, ids_put_of_not_mem hk, hk]

theorem total_eq_sum (c : Catalog α) (f : Nat → M) : c.total f = ∑ i ∈ c.ids.toFinset, f i :=
  (List.sum_toFinset f c.nodup).symm

/-- A sum of natural numbers is at least each of them. -/
theorem le_total {c : Catalog α} {k : Nat} (hk : k ∈ c.ids) (f : Nat → Nat) : f k ≤ c.total f :=
  List.le_sum_of_mem (List.mem_map_of_mem hk)

/-- Values that differ at one key have sums that differ by that key. -/
theorem total_change {c : Catalog α} {k : Nat} (hk : k ∈ c.ids) {f g : Nat → M}
    (h : ∀ i, i ≠ k → f i = g i) : c.total f + g k = c.total g + f k := by
  have hmem : k ∈ c.ids.toFinset := List.mem_toFinset.mpr hk
  have hrest : ∑ i ∈ c.ids.toFinset.erase k, f i = ∑ i ∈ c.ids.toFinset.erase k, g i :=
    Finset.sum_congr rfl fun i hi => h i (Finset.ne_of_mem_erase hi)
  rw [total_eq_sum, total_eq_sum, ← Finset.sum_erase_add _ f hmem, ← Finset.sum_erase_add _ g hmem,
    hrest]
  exact add_right_comm _ _ _

end Total

end Catalog

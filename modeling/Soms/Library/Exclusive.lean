import Mathlib

/-!
# Locks that tasks hold

A list of tasks, each of which holds at most one lock.  No two of them hold the same lock as long
as a task only takes a lock that nobody holds.
-/

variable {α κ : Type} {holds : α → Option κ} {tasks : List α} {i j : Nat} {a b c : α}

/-- No two tasks hold the same lock. -/
def Exclusive (holds : α → Option κ) (tasks : List α) : Prop :=
  ∀ (i j : Nat) (a b : α) (k : κ), tasks[i]? = some a → tasks[j]? = some b →
    holds a = some k → holds b = some k → i = j

/-- Nobody holds the lock. -/
def Free (holds : α → Option κ) (tasks : List α) (k : κ) : Prop := ∀ a ∈ tasks, holds a ≠ some k

theorem not_free_iff {k : κ} : ¬ Free holds tasks k ↔ ∃ a ∈ tasks, holds a = some k := by
  simp only [Free, ne_eq, not_forall, not_not, exists_prop]

theorem getElem?_append_one :
    (tasks ++ [b])[j]? = some c ↔ tasks[j]? = some c ∨ j = tasks.length ∧ c = b := by
  rcases Nat.lt_trichotomy j tasks.length with h | h | h
  · rw [List.getElem?_append_left h]
    exact ⟨Or.inl, fun hor => hor.resolve_right fun hlast => absurd hlast.1 (Nat.ne_of_lt h)⟩
  · subst h
    simp [eq_comm]
  · have hnone : (tasks ++ [b])[j]? = none := by
      rw [List.getElem?_eq_none_iff, List.length_append, List.length_singleton]
      omega
    have hnone' : tasks[j]? = none := List.getElem?_eq_none_iff.mpr (Nat.le_of_lt h)
    rw [hnone, hnone']
    simp only [reduceCtorEq, false_or, false_iff, not_and]
    omega

theorem getElem?_set_some (hi : tasks[i]? = some a) :
    (tasks.set i b)[j]? = some c ↔ i = j ∧ c = b ∨ i ≠ j ∧ tasks[j]? = some c := by
  by_cases h : i = j
  · subst h
    have hlt : i < tasks.length := (List.getElem?_eq_some_iff.mp hi).1
    rw [List.getElem?_set_self hlt]
    simp [eq_comm]
  · rw [List.getElem?_set_ne h]
    simp [h]

namespace Exclusive

theorem nil : Exclusive holds [] := by
  intro i j a b k ha
  cases ha

/-- A new task that holds nothing. -/
theorem append (h : Exclusive holds tasks) (hb : holds b = none) :
    Exclusive holds (tasks ++ [b]) := by
  intro i j a c k ha hc hka hkc
  rw [getElem?_append_one] at ha hc
  rcases ha with ha | ha
  · rcases hc with hc | hc
    · exact h i j a c k ha hc hka hkc
    · rw [hc.2, hb] at hkc
      cases hkc
  · rw [ha.2, hb] at hka
    cases hka

/-- A task keeps the lock that it holds, or takes one that nobody holds. -/
theorem set (h : Exclusive holds tasks) (hi : tasks[i]? = some a)
    (hb : ∀ k, holds b = some k → holds a = some k ∨ Free holds tasks k) :
    Exclusive holds (tasks.set i b) := by
  -- Nobody else holds what the task holds now.
  have hother : ∀ j c k, i ≠ j → tasks[j]? = some c → holds b = some k → holds c ≠ some k := by
    intro j c k hne hc hkb hkc
    rcases hb k hkb with hka | hfree
    · exact hne (h i j a c k hi hc hka hkc)
    · exact hfree c (List.mem_of_getElem? hc) hkc
  intro j l c d k hc hd hkc hkd
  rw [getElem?_set_some hi] at hc hd
  rcases hc with ⟨rfl, rfl⟩ | ⟨hne, hc⟩
  · rcases hd with hd | ⟨hne', hd⟩
    · exact hd.1
    · exact absurd hkd (hother l d k hne' hd hkc)
  · rcases hd with ⟨rfl, rfl⟩ | ⟨hne', hd⟩
    · exact absurd hkc (hother j c k hne hc hkd)
    · exact h j l c d k hc hd hkc hkd

end Exclusive

/-- A sum when one entry changes. -/
theorem List.sum_map_set {α : Type} (f : α → Nat) {l : List α} {i : Nat} {a : α} (b : α)
    (hi : l[i]? = some a) : ((l.set i b).map f).sum + f a = (l.map f).sum + f b := by
  induction l generalizing i with
  | nil => cases hi
  | cons x rest ih =>
    cases i with
    | zero =>
      obtain rfl := Option.some.inj hi
      show f b + (rest.map f).sum + f x = f x + (rest.map f).sum + f b
      omega
    | succ i =>
      have hrest := ih (List.getElem?_cons_succ ▸ hi)
      show f x + ((rest.set i b).map f).sum + f a = f x + (rest.map f).sum + f b
      omega

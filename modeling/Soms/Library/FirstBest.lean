import Mathlib.Order.Lattice
import Mathlib.Data.List.Basic
import Mathlib.Data.List.MinMax

/-!
# The first of the best

The values of a sequence that only grows, the newest first, and the one of them that is kept:
the best, and of equally good ones the one that came first.
-/

variable {α κ : Type} [LinearOrder κ]

/-- `b` is the first of the best in `l`, which has the newest first. -/
def FirstBest (key : α → κ) (l : List α) (b : α) : Prop :=
  ∃ later earlier, l = later ++ b :: earlier ∧ (∀ a ∈ later, key a ≤ key b) ∧
    ∀ a ∈ earlier, key a < key b

namespace FirstBest

variable {key : α → κ} {l : List α} {a b : α}

theorem single (key : α → κ) (a : α) : FirstBest key [a] a := ⟨[], [], rfl, by simp, by simp⟩

theorem mem (hb : FirstBest key l b) : b ∈ l := by
  obtain ⟨later, earlier, rfl, -, -⟩ := hb
  simp

theorem le (hb : FirstBest key l b) (ha : a ∈ l) : key a ≤ key b := by
  obtain ⟨later, earlier, rfl, hlater, hearlier⟩ := hb
  rcases List.mem_append.mp ha with ha | ha
  · exact hlater a ha
  · rcases List.mem_cons.mp ha with rfl | ha
    · exact le_rfl
    · exact (hearlier a ha).le

/-- The newest value is kept if it is better than all before. -/
theorem cons_self_iff (ha : a ∉ l) : FirstBest key (a :: l) a ↔ ∀ c ∈ l, key c < key a := by
  constructor
  · rintro ⟨later, earlier, hsplit, -, hearlier⟩
    cases later with
    | nil =>
      obtain rfl : l = earlier := by simpa using hsplit
      exact hearlier
    | cons c later =>
      obtain ⟨-, rfl⟩ : a = c ∧ l = later ++ a :: earlier := by simpa using hsplit
      simp at ha
  · exact fun h => ⟨[], l, rfl, by simp, h⟩

/-- An older value is kept if the newest is not better. -/
theorem cons_of_ne_iff (hne : a ≠ b) :
    FirstBest key (a :: l) b ↔ key a ≤ key b ∧ FirstBest key l b := by
  constructor
  · rintro ⟨later, earlier, hsplit, hlater, hearlier⟩
    cases later with
    | nil => exact absurd (List.cons.inj hsplit).1 hne
    | cons c later =>
      obtain ⟨rfl, rfl⟩ : a = c ∧ l = later ++ b :: earlier := by simpa using hsplit
      exact ⟨hlater a List.mem_cons_self, later, earlier, rfl,
        fun c hc => hlater c (List.mem_cons_of_mem a hc), hearlier⟩
  · rintro ⟨ha, later, earlier, rfl, hlater, hearlier⟩
    exact ⟨a :: later, earlier, rfl, List.forall_mem_cons.mpr ⟨ha, hlater⟩, hearlier⟩

/-- **One more value.**  It has to replace the one kept exactly if it is better. -/
theorem cons_iff (hb : FirstBest key l b) (ha : a ∉ l) (replace : Prop) [Decidable replace] :
    FirstBest key (a :: l) (if replace then a else b) ↔ (replace ↔ key b < key a) := by
  by_cases hreplace : replace
  · rw [if_pos hreplace, cons_self_iff ha]
    simp only [hreplace, true_iff]
    exact ⟨fun h => h b hb.mem, fun h c hc => (hb.le hc).trans_lt h⟩
  · have hne : a ≠ b := fun h => ha (h ▸ hb.mem)
    rw [if_neg hreplace, cons_of_ne_iff hne]
    simp only [hreplace, false_iff, not_lt]
    exact ⟨fun h => h.1, fun h => ⟨h, hb⟩⟩

end FirstBest

/-- The first of the best of values that are computed. -/
theorem argmax_map {β : Type} (key : β → κ) (g : α → β) (l : List α) :
    (l.map g).argmax key = (l.argmax fun a => key (g a)).map g := by
  induction l using List.reverseRecOn with
  | nil => rfl
  | append_singleton l a ih =>
    rw [List.map_append, List.map_cons, List.map_nil, List.argmax_concat, List.argmax_concat, ih]
    cases l.argmax fun a => key (g a) with
    | none => rfl
    | some b =>
      show (if key (g b) < key (g a) then some (g a) else some (g b)) =
        (if key (g b) < key (g a) then some a else some b).map g
      split <;> rfl

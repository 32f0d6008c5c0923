import Mathlib.Data.List.Chain
import Mathlib.Data.List.TakeWhile

/-!
# Chains of handovers

Each item hands something over from its source to its target.  A list of them leads from one
holder to another if each item starts where the one before it ended.
-/

variable {α ι : Type} {source : α → Option ι} {target : α → ι} {p : α → Bool}
  {xs ys : List α} {x : α} {s t : Option ι}

/-- The items lead from the holder `s`, if there was one, to the holder `t`. -/
def Leads (source : α → Option ι) (target : α → ι) : Option ι → List α → Option ι → Prop
  | s, [], t => s = t
  | s, x :: xs, t => source x = s ∧ Leads source target (some (target x)) xs t

@[simp] theorem leads_nil : Leads source target s [] t ↔ s = t := Iff.rfl

@[simp] theorem leads_cons : Leads source target s (x :: xs) t ↔
    source x = s ∧ Leads source target (some (target x)) xs t := Iff.rfl

theorem leads_append : Leads source target s (xs ++ ys) t ↔
    ∃ m, Leads source target s xs m ∧ Leads source target m ys t := by
  induction xs generalizing s with
  | nil => simp
  | cons x xs ih =>
    rw [List.cons_append, leads_cons, ih]
    constructor
    · rintro ⟨hx, m, hxs, hys⟩
      exact ⟨m, ⟨hx, hxs⟩, hys⟩
    · rintro ⟨m, ⟨hx, hxs⟩, hys⟩
      exact ⟨hx, m, hxs, hys⟩

/-- One more item from the last holder. -/
theorem Leads.concat (h : Leads source target s xs t) (hx : source x = t) :
    Leads source target s (xs ++ [x]) (some (target x)) :=
  leads_append.mpr ⟨t, h, hx, rfl⟩

/-- Without its end the list leads to where the end started. -/
theorem Leads.of_append (h : Leads source target s (xs ++ x :: ys) t) :
    Leads source target s xs (source x) := by
  obtain ⟨m, hxs, hx, -⟩ := leads_append.mp h
  rw [hx]
  exact hxs

theorem Leads.isChain (h : Leads source target s xs t) :
    xs.IsChain fun a b => source b = some (target a) := by
  induction xs generalizing s with
  | nil => exact .nil
  | cons x xs ih =>
    cases xs with
    | nil => exact .singleton x
    | cons y ys =>
      obtain ⟨-, hy, hys⟩ := h
      exact .cons_cons hy (ih ⟨hy, hys⟩)

/-- Where everything behind an item that satisfies `p` satisfies it too, the items that do not
come first. -/
theorem filter_not_append_filter (h : xs.Pairwise fun a b => p a = true → p b = true) :
    (xs.filter fun a => !p a) ++ xs.filter p = xs := by
  induction xs with
  | nil => rfl
  | cons x xs ih =>
    obtain ⟨hx, hxs⟩ := List.pairwise_cons.mp h
    by_cases hp : p x = true
    · have hall : ∀ a ∈ xs, p a = true := fun a ha => hx a ha hp
      rw [List.filter_cons_of_neg (by simp [hp]), List.filter_cons_of_pos hp,
        List.filter_eq_nil_iff.mpr (by simpa using hall), List.filter_eq_self.mpr hall]
      rfl
    · rw [List.filter_cons_of_pos (by simpa using hp), List.filter_cons_of_neg hp, List.cons_append,
        ih hxs]

/-- A change of items that `q` drops afterwards is a filter. -/
theorem filter_map_of_dropped {f : α → α} {q d : α → Bool} {xs : List α}
    (hd : ∀ x ∈ xs, d x = true → q (f x) = false) (hk : ∀ x ∈ xs, d x = false → f x = x) :
    (xs.map f).filter q = (xs.filter q).filter fun x => !d x := by
  induction xs with
  | nil => rfl
  | cons x xs ih =>
    have ih := ih (fun y hy => hd y (List.mem_cons_of_mem x hy))
      fun y hy => hk y (List.mem_cons_of_mem x hy)
    rw [List.map_cons]
    cases hdx : d x with
    | true =>
      rw [List.filter_cons_of_neg (by simp [hd x List.mem_cons_self hdx]), ih]
      by_cases hqx : q x = true
      · rw [List.filter_cons_of_pos hqx, List.filter_cons_of_neg (by simp [hdx])]
      · rw [List.filter_cons_of_neg hqx]
    | false =>
      rw [hk x List.mem_cons_self hdx]
      by_cases hqx : q x = true
      · rw [List.filter_cons_of_pos hqx, List.filter_cons_of_pos hqx,
          List.filter_cons_of_pos (by simp [hdx]), ih]
      · rw [List.filter_cons_of_neg hqx, List.filter_cons_of_neg hqx, ih]

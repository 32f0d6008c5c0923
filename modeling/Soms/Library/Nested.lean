import Mathlib.Data.List.Basic

/-!
# Well nested words

Words of named opening and closing brackets, and what is left of one to be read when some
brackets are open.
-/

namespace Nested

variable {α : Type*}

inductive Bracket (α : Type*) where
  | opening (name : α)
  | closing (name : α)
  deriving DecidableEq, Repr

/-- Every bracket has a partner of its name behind or in front of it, and two pairs are apart or
one inside the other. -/
inductive WellNested : List (Bracket α) → Prop
  | nil : WellNested []
  | pair (name : α) {inner rest : List (Bracket α)} (hinner : WellNested inner)
      (hrest : WellNested rest) : WellNested (.opening name :: (inner ++ .closing name :: rest))

/-- The word closes the open brackets, the first of the list first, and is well nested between. -/
inductive Closes : List α → List (Bracket α) → Prop
  | done {word : List (Bracket α)} (h : WellNested word) : Closes [] word
  | close (name : α) {stack : List α} {inner rest : List (Bracket α)} (hinner : WellNested inner)
      (hrest : Closes stack rest) : Closes (name :: stack) (inner ++ .closing name :: rest)

@[simp]
theorem closes_nil_left {word : List (Bracket α)} : Closes [] word ↔ WellNested word := by
  constructor
  · intro h
    cases h with
    | done h => exact h
  · exact Closes.done

@[simp]
theorem closes_nil_right {stack : List α} : Closes stack [] ↔ stack = [] := by
  constructor
  · intro h
    generalize hword : ([] : List (Bracket α)) = word at h
    cases h with
    | done _ => rfl
    | close name _ _ => simp at hword
  · intro h
    subst h
    exact .done .nil

theorem WellNested.append {left right : List (Bracket α)} (hleft : WellNested left)
    (hright : WellNested right) : WellNested (left ++ right) := by
  induction hleft with
  | nil => exact hright
  | @pair name inner rest hinner _ _ ih =>
    rw [List.cons_append, List.append_assoc, List.cons_append]
    exact .pair name hinner ih

/-- A well nested word in front changes nothing. -/
theorem Closes.append {stack : List α} {word rest : List (Bracket α)} (hword : WellNested word)
    (h : Closes stack rest) : Closes stack (word ++ rest) := by
  cases h with
  | done hrest => exact .done (hword.append hrest)
  | close name hinner hrest =>
    rw [← List.append_assoc]
    exact .close name (hword.append hinner) hrest

@[simp]
theorem not_wellNested_closing {name : α} {rest : List (Bracket α)} :
    ¬ WellNested (.closing name :: rest) := nofun

theorem closes_opening {stack : List α} {name : α} {rest : List (Bracket α)} :
    Closes stack (.opening name :: rest) ↔ Closes (name :: stack) rest := by
  constructor
  · intro h
    generalize hword : Bracket.opening name :: rest = word at h
    cases h with
    | done h =>
      cases h with
      | nil => cases hword
      | pair _ hinner hafter =>
        cases hword
        exact .close name hinner (.done hafter)
    | close top hinner hrest =>
      cases hinner with
      | nil => cases hword
      | pair _ hinner hafter =>
        rw [List.cons_append, List.append_assoc, List.cons_append] at hword
        cases hword
        exact .close name hinner (.close top hafter hrest)
  · intro h
    cases h with
    | @close _ _ inner after hinner hafter =>
      have hpair : WellNested (.opening name :: (inner ++ [.closing name])) :=
        .pair name hinner .nil
      have heq : Bracket.opening name :: (inner ++ .closing name :: after) =
          (.opening name :: (inner ++ [.closing name])) ++ after := by simp
      rw [heq]
      exact hafter.append hpair

theorem closes_closing {stack : List α} {top name : α} {rest : List (Bracket α)} :
    Closes (top :: stack) (.closing name :: rest) ↔ name = top ∧ Closes stack rest := by
  constructor
  · intro h
    generalize hword : Bracket.closing name :: rest = word at h
    cases h with
    | close _ hinner hrest =>
      cases hinner with
      | nil =>
        cases hword
        exact ⟨rfl, hrest⟩
      | pair => cases hword
  · intro h
    rw [h.1]
    exact .close top .nil h.2

end Nested

import Mathlib.Data.List.Basic

/-!
# Nested data

Lists, tuples and dictionaries over strings and other values, rewritten string by string.
-/

namespace Structured

/-- Nested data.  What is neither a string nor a container stays what it is. -/
inductive Data (κ σ α : Type) where
  | str (value : σ)
  | list (items : List (Data κ σ α))
  | tuple (items : List (Data κ σ α))
  | dict (entries : List (κ × Data κ σ α))
  | other (value : α)

namespace Data

variable {κ σ α : Type}

mutual
/-- The data with every string rewritten. -/
def mapText (f : σ → σ) : Data κ σ α → Data κ σ α
  | str value => str (f value)
  | list items => list (mapTexts f items)
  | tuple items => tuple (mapTexts f items)
  | dict entries => dict (mapEntries f entries)
  | other value => other value
def mapTexts (f : σ → σ) : List (Data κ σ α) → List (Data κ σ α)
  | [] => []
  | item :: items => mapText f item :: mapTexts f items
def mapEntries (f : σ → σ) : List (κ × Data κ σ α) → List (κ × Data κ σ α)
  | [] => []
  | (key, value) :: entries => (key, mapText f value) :: mapEntries f entries
end

mutual
/-- The strings of the data. -/
def texts : Data κ σ α → List σ
  | str value => [value]
  | list items => textsOf items
  | tuple items => textsOf items
  | dict entries => textsOfEntries entries
  | other _ => []
def textsOf : List (Data κ σ α) → List σ
  | [] => []
  | item :: items => texts item ++ textsOf items
def textsOfEntries : List (κ × Data κ σ α) → List σ
  | [] => []
  | (_, value) :: entries => texts value ++ textsOfEntries entries
end

mutual
theorem mapText_eq_iff (f g : σ → σ) : ∀ data : Data κ σ α,
    mapText f data = mapText g data ↔ ∀ value ∈ texts data, f value = g value
  | str value => by simp [mapText, texts]
  | list items => by simp [mapText, texts, mapTexts_eq_iff f g items]
  | tuple items => by simp [mapText, texts, mapTexts_eq_iff f g items]
  | dict entries => by simp [mapText, texts, mapEntries_eq_iff f g entries]
  | other value => by simp [mapText, texts]
theorem mapTexts_eq_iff (f g : σ → σ) : ∀ items : List (Data κ σ α),
    mapTexts f items = mapTexts g items ↔ ∀ value ∈ textsOf items, f value = g value
  | [] => by simp [mapTexts, textsOf]
  | item :: items => by
    simp only [mapTexts, textsOf, List.cons_eq_cons, List.forall_mem_append,
      mapText_eq_iff f g item, mapTexts_eq_iff f g items]
theorem mapEntries_eq_iff (f g : σ → σ) : ∀ entries : List (κ × Data κ σ α),
    mapEntries f entries = mapEntries g entries ↔
      ∀ value ∈ textsOfEntries entries, f value = g value
  | [] => by simp [mapEntries, textsOfEntries]
  | (key, value) :: entries => by
    simp only [mapEntries, textsOfEntries, List.cons_eq_cons, List.forall_mem_append, Prod.mk.injEq,
      true_and, mapText_eq_iff f g value, mapEntries_eq_iff f g entries]
end

mutual
theorem mapText_mapText (f g : σ → σ) : ∀ data : Data κ σ α,
    mapText f (mapText g data) = mapText (fun value => f (g value)) data
  | str _ => rfl
  | list items => congrArg list (mapTexts_mapTexts f g items)
  | tuple items => congrArg tuple (mapTexts_mapTexts f g items)
  | dict entries => congrArg dict (mapEntries_mapEntries f g entries)
  | other _ => rfl
theorem mapTexts_mapTexts (f g : σ → σ) : ∀ items : List (Data κ σ α),
    mapTexts f (mapTexts g items) = mapTexts (fun value => f (g value)) items
  | [] => rfl
  | item :: items => by
    simp only [mapTexts, mapText_mapText f g item, mapTexts_mapTexts f g items]
theorem mapEntries_mapEntries (f g : σ → σ) : ∀ entries : List (κ × Data κ σ α),
    mapEntries f (mapEntries g entries) = mapEntries (fun value => f (g value)) entries
  | [] => rfl
  | (key, value) :: entries => by
    simp only [mapEntries, mapText_mapText f g value, mapEntries_mapEntries f g entries]
end

mutual
theorem mapText_id : ∀ data : Data κ σ α, mapText (fun value => value) data = data
  | str _ => rfl
  | list items => congrArg list (mapTexts_id items)
  | tuple items => congrArg tuple (mapTexts_id items)
  | dict entries => congrArg dict (mapEntries_id entries)
  | other _ => rfl
theorem mapTexts_id : ∀ items : List (Data κ σ α), mapTexts (fun value => value) items = items
  | [] => rfl
  | item :: items => by rw [mapTexts, mapText_id item, mapTexts_id items]
theorem mapEntries_id : ∀ entries : List (κ × Data κ σ α),
    mapEntries (fun value => value) entries = entries
  | [] => rfl
  | (key, value) :: entries => by rw [mapEntries, mapText_id value, mapEntries_id entries]
end

end Data

end Structured

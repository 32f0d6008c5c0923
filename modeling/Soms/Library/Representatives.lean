import Mathlib.Data.Finset.Card

/-!
# Distinct representatives

Each element of a set is given a representative to which it is related, no two the same one.
A search that alternates between elements and the representatives they hold proves, when it
gets stuck, that there is no such system: what it has reached is more elements than
representatives.
-/

variable {σ β : Type}

/-- A choice of distinct representatives for the elements of `S`. -/
def Representable (S : Set σ) (adj : σ → β → Prop) : Prop :=
  ∃ f : σ → β, Set.InjOn f S ∧ ∀ s ∈ S, adj s (f s)

namespace Representable

variable {S : Set σ} {adj adj' : σ → β → Prop}

theorem congr (h : ∀ s ∈ S, ∀ b, adj s b ↔ adj' s b) :
    Representable S adj ↔ Representable S adj' := by
  constructor
  · rintro ⟨f, hinj, hf⟩
    exact ⟨f, hinj, fun s hs => (h s hs _).mp (hf s hs)⟩
  · rintro ⟨f, hinj, hf⟩
    exact ⟨f, hinj, fun s hs => (h s hs _).mpr (hf s hs)⟩

/-- A stuck search.  `V` holds all that the start `s₀` and the holders of `V` are related to, and
the start holds nothing of it. -/
theorem not_of_stuck {s₀ : σ} (V : Finset β) (holder : β → σ) (hs₀ : s₀ ∈ S)
    (hholder : ∀ b ∈ V, holder b ∈ S) (hinj : Set.InjOn holder V)
    (hfree : ∀ b ∈ V, holder b ≠ s₀) (hstart : ∀ b, adj s₀ b → b ∈ V)
    (hclosed : ∀ b ∈ V, ∀ b', adj (holder b) b' → b' ∈ V) : ¬ Representable S adj := by
  classical
  rintro ⟨f, hf, hadj⟩
  -- the elements that the search has reached
  let T : Finset σ := insert s₀ (V.image holder)
  have hT : ∀ s ∈ T, s ∈ S ∧ f s ∈ V := by
    intro s hs
    rcases Finset.mem_insert.mp hs with rfl | hs
    · exact ⟨hs₀, hstart _ (hadj _ hs₀)⟩
    · obtain ⟨b, hb, rfl⟩ := Finset.mem_image.mp hs
      exact ⟨hholder b hb, hclosed b hb _ (hadj _ (hholder b hb))⟩
  have hle : T.card ≤ V.card := by
    refine Finset.card_le_card_of_injOn f (fun s hs => (hT s hs).2) ?_
    intro s hs s' hs' heq
    exact hf (hT s hs).1 (hT s' hs').1 heq
  have hnew : s₀ ∉ V.image holder := by
    intro hmem
    obtain ⟨b, hb, heq⟩ := Finset.mem_image.mp hmem
    exact hfree b hb heq
  have hcard : T.card = V.card + 1 := by
    rw [Finset.card_insert_of_notMem hnew, Finset.card_image_of_injOn hinj]
  omega

end Representable

import Mathlib.Data.List.Nodup
import Mathlib.Logic.Function.Basic

/-!
# One-time credentials

Requests redeem credentials in phases: a request checks that the credential is
good, takes it, and finishes with what it is good for.  A credential is finished
with at most once as long as every check that succeeds finds it neither checked
by another request, nor taken, nor finished with.
-/

namespace OneTime

variable {ρ φ κ : Type} [DecidableEq ρ]

/-- The credentials that requests have checked, those that they have taken, and those
that are finished with. -/
structure Sound (checks takes : φ → Option κ) (phase : ρ → φ) (done : List κ) : Prop where
  checks_one : ∀ r r' c, checks (phase r) = some c → checks (phase r') = some c → r = r'
  takes_one : ∀ r r' c, takes (phase r) = some c → takes (phase r') = some c → r = r'
  apart : ∀ r r' c, checks (phase r) = some c → takes (phase r') ≠ some c
  checked : ∀ r c, checks (phase r) = some c → c ∉ done
  taken : ∀ r c, takes (phase r) = some c → c ∉ done
  nodup : done.Nodup

variable {checks takes : φ → Option κ} {phase : ρ → φ} {done : List κ} {r₀ : ρ} {c₀ : κ} {p : φ}

namespace Sound

omit [DecidableEq ρ] in
theorem initial (hchecks : ∀ r, checks (phase r) = none) (htakes : ∀ r, takes (phase r) = none) :
    Sound checks takes phase [] where
  checks_one := by simp [hchecks]
  takes_one := by simp [htakes]
  apart := by simp [hchecks]
  checked := by simp [hchecks]
  taken := by simp [htakes]
  nodup := List.nodup_nil

/-- What another phase of one request checks or takes. -/
theorem update_cases {f : φ → Option κ} {r : ρ} {c : κ}
    (h : f (Function.update phase r₀ p r) = some c) :
    (r = r₀ ∧ f p = some c) ∨ (r ≠ r₀ ∧ f (phase r) = some c) := by
  by_cases hr : r = r₀
  · subst hr
    rw [Function.update_self] at h
    exact .inl ⟨rfl, h⟩
  · rw [Function.update_of_ne hr] at h
    exact .inr ⟨hr, h⟩

theorem other {f : φ → Option κ} (hf : f p = none) {r : ρ} {c : κ}
    (h : f (Function.update phase r₀ p r) = some c) : r ≠ r₀ ∧ f (phase r) = some c := by
  rcases update_cases h with ⟨-, hp⟩ | hr
  · simp [hf] at hp
  · exact hr

/-- A request that goes on with what it had, or with less. -/
theorem go (h : Sound checks takes phase done)
    (hchecks : ∀ c, checks p = some c → checks (phase r₀) = some c)
    (htakes : ∀ c, takes p = some c → takes (phase r₀) = some c) :
    Sound checks takes (Function.update phase r₀ p) done := by
  have hold : ∀ {f : φ → Option κ}, (∀ c, f p = some c → f (phase r₀) = some c) →
      ∀ {r c}, f (Function.update phase r₀ p r) = some c → f (phase r) = some c := by
    intro f hf r c hc
    rcases update_cases hc with ⟨rfl, hp⟩ | ⟨-, hr⟩
    · exact hf c hp
    · exact hr
  exact
    { checks_one := fun r r' c hr hr' => h.checks_one r r' c (hold hchecks hr) (hold hchecks hr')
      takes_one := fun r r' c hr hr' => h.takes_one r r' c (hold htakes hr) (hold htakes hr')
      apart := fun r r' c hr hr' => h.apart r r' c (hold hchecks hr) (hold htakes hr')
      checked := fun r c hr => h.checked r c (hold hchecks hr)
      taken := fun r c hr => h.taken r c (hold htakes hr)
      nodup := h.nodup }

/-- A request gives up. -/
theorem drop (h : Sound checks takes phase done) (hchecks : checks p = none)
    (htakes : takes p = none) : Sound checks takes (Function.update phase r₀ p) done :=
  h.go (by simp [hchecks]) (by simp [htakes])

/-- A check succeeds on a credential that is free. -/
theorem check (h : Sound checks takes phase done) (hchecks : checks p = some c₀)
    (htakes : takes p = none) (hfree : ∀ r, checks (phase r) ≠ some c₀)
    (huntaken : ∀ r, takes (phase r) ≠ some c₀) (hunspent : c₀ ∉ done) :
    Sound checks takes (Function.update phase r₀ p) done := by
  constructor
  case takes_one =>
    exact fun r r' c hr hr' => h.takes_one r r' c (other htakes hr).2 (other htakes hr').2
  case taken => exact fun r c hr => h.taken r c (other htakes hr).2
  case nodup => exact h.nodup
  case checks_one =>
    intro r r' c hr hr'
    rcases update_cases hr with ⟨rfl, hp⟩ | ⟨-, hbefore⟩ <;>
      rcases update_cases hr' with ⟨rfl, hp'⟩ | ⟨-, hbefore'⟩
    · rfl
    · obtain rfl := Option.some.inj (hchecks.symm.trans hp)
      exact absurd hbefore' (hfree r')
    · obtain rfl := Option.some.inj (hchecks.symm.trans hp')
      exact absurd hbefore (hfree r)
    · exact h.checks_one r r' c hbefore hbefore'
  case apart =>
    intro r r' c hr hr'
    rcases update_cases hr with ⟨rfl, hp⟩ | ⟨-, hr⟩
    · obtain rfl := Option.some.inj (hchecks.symm.trans hp)
      exact huntaken r' (other htakes hr').2
    · exact h.apart r r' c hr (other htakes hr').2
  case checked =>
    intro r c hr
    rcases update_cases hr with ⟨rfl, hp⟩ | ⟨-, hr⟩
    · obtain rfl := Option.some.inj (hchecks.symm.trans hp)
      exact hunspent
    · exact h.checked r c hr

/-- A request takes the credential that it has checked. -/
theorem take (h : Sound checks takes phase done) (hold : checks (phase r₀) = some c₀)
    (hchecks : checks p = none) (htakes : takes p = some c₀) :
    Sound checks takes (Function.update phase r₀ p) done := by
  constructor
  case checks_one =>
    exact fun r r' c hr hr' => h.checks_one r r' c (other hchecks hr).2 (other hchecks hr').2
  case checked => exact fun r c hr => h.checked r c (other hchecks hr).2
  case nodup => exact h.nodup
  case takes_one =>
    intro r r' c hr hr'
    rcases update_cases hr with ⟨rfl, hp⟩ | ⟨-, hbefore⟩ <;>
      rcases update_cases hr' with ⟨rfl, hp'⟩ | ⟨-, hbefore'⟩
    · rfl
    · obtain rfl := Option.some.inj (htakes.symm.trans hp)
      exact absurd hbefore' (h.apart r r' c₀ hold)
    · obtain rfl := Option.some.inj (htakes.symm.trans hp')
      exact absurd hbefore (h.apart r' r c₀ hold)
    · exact h.takes_one r r' c hbefore hbefore'
  case apart =>
    intro r r' c hr hr'
    obtain ⟨hne, hbefore⟩ := other hchecks hr
    rcases update_cases hr' with ⟨rfl, hp⟩ | ⟨-, hbefore'⟩
    · obtain rfl := Option.some.inj (htakes.symm.trans hp)
      exact hne (h.checks_one r r' c₀ hbefore hold)
    · exact h.apart r r' c hbefore hbefore'
  case taken =>
    intro r c hr
    rcases update_cases hr with ⟨rfl, hp⟩ | ⟨-, hr⟩
    · obtain rfl := Option.some.inj (htakes.symm.trans hp)
      exact h.checked r c₀ hold
    · exact h.taken r c hr

/-- A request finishes with the credential that it has taken. -/
theorem finish (h : Sound checks takes phase done) (hold : takes (phase r₀) = some c₀)
    (hchecks : checks p = none) (htakes : takes p = none) :
    Sound checks takes (Function.update phase r₀ p) (c₀ :: done) := by
  constructor
  case checks_one =>
    exact fun r r' c hr hr' => h.checks_one r r' c (other hchecks hr).2 (other hchecks hr').2
  case takes_one =>
    exact fun r r' c hr hr' => h.takes_one r r' c (other htakes hr).2 (other htakes hr').2
  case apart => exact fun r r' c hr hr' => h.apart r r' c (other hchecks hr).2 (other htakes hr').2
  case nodup => exact List.nodup_cons.mpr ⟨h.taken r₀ c₀ hold, h.nodup⟩
  case checked =>
    intro r c hr hmem
    obtain ⟨-, hr⟩ := other hchecks hr
    rcases List.mem_cons.mp hmem with rfl | hmem
    · exact h.apart r r₀ c hr hold
    · exact h.checked r c hr hmem
  case taken =>
    intro r c hr hmem
    obtain ⟨hne, hr⟩ := other htakes hr
    rcases List.mem_cons.mp hmem with rfl | hmem
    · exact hne (h.takes_one r r₀ c hr hold)
    · exact h.taken r c hr hmem

/-- A request finishes with the credential that it has checked. -/
theorem spend (h : Sound checks takes phase done) (hold : checks (phase r₀) = some c₀)
    (hchecks : checks p = none) (htakes : takes p = none) :
    Sound checks takes (Function.update phase r₀ p) (c₀ :: done) := by
  constructor
  case checks_one =>
    exact fun r r' c hr hr' => h.checks_one r r' c (other hchecks hr).2 (other hchecks hr').2
  case takes_one =>
    exact fun r r' c hr hr' => h.takes_one r r' c (other htakes hr).2 (other htakes hr').2
  case apart => exact fun r r' c hr hr' => h.apart r r' c (other hchecks hr).2 (other htakes hr').2
  case nodup => exact List.nodup_cons.mpr ⟨h.checked r₀ c₀ hold, h.nodup⟩
  case checked =>
    intro r c hr hmem
    obtain ⟨hne, hbefore⟩ := other hchecks hr
    rcases List.mem_cons.mp hmem with rfl | hmem
    · exact hne (h.checks_one r r₀ c hbefore hold)
    · exact h.checked r c hbefore hmem
  case taken =>
    intro r c hr hmem
    obtain ⟨-, hbefore⟩ := other htakes hr
    rcases List.mem_cons.mp hmem with rfl | hmem
    · exact h.apart r₀ r c hold hbefore
    · exact h.taken r c hbefore hmem

end Sound

end OneTime

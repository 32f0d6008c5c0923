import Mathlib.Data.List.Basic

/-!
# Readers

A reader takes what it reads from the front of the input or fails.  `Reads` says that it reads one
field whatever follows, and `Local` that it never looks behind what it takes.  Both compose along
the steps of a reader.
-/

/-- A reader of `α` from a list of `τ`. -/
abbrev Reader (τ ε α : Type) : Type := StateT (List τ) (Except ε) α

namespace Reader

variable {τ ε α β : Type}

def fail (e : ε) : Reader τ ε α := fun _ => .error e

/-- Fail if the condition holds. -/
def refuse (p : Prop) [Decidable p] (e : ε) : Reader τ ε Unit := if p then fail e else pure ()

/-- The next item. -/
def next (e : ε) : Reader τ ε τ
  | [] => .error e
  | a :: rest => .ok (a, rest)

/-- The next items. -/
def take (n : Nat) (e : ε) : Reader τ ε (List τ) := fun input =>
  if n ≤ input.length then .ok (input.take n, input.drop n) else .error e

/-- The reader reads the field as the value, whatever follows. -/
def Reads (r : Reader τ ε α) (field : List τ) (a : α) : Prop :=
  ∀ rest, r (field ++ rest) = .ok (a, rest)

/-- What the reader takes decides alone what it reads. -/
def Local (r : Reader τ ε α) : Prop :=
  ∀ input a rest, r input = .ok (a, rest) → ∃ field, input = field ++ rest ∧ Reads r field a

/-! ## Steps -/

theorem except_bind_eq_ok {x : Except ε α} {k : α → Except ε β} {b : β} :
    x >>= k = .ok b ↔ ∃ a, x = .ok a ∧ k a = .ok b := by
  cases x with
  | error e => exact ⟨(fun h => nomatch h), fun h => nomatch h.choose_spec.1⟩
  | ok a =>
    constructor
    · exact fun h => ⟨a, rfl, h⟩
    · rintro ⟨a', ha, hk⟩
      obtain rfl := Except.ok.inj ha
      exact hk

theorem bind_apply (r : Reader τ ε α) (k : α → Reader τ ε β) (input : List τ) :
    (r >>= k) input = match r input with
      | .ok (a, rest) => k a rest
      | .error e => .error e := by
  show (r input >>= fun p => k p.1 p.2) = _
  cases r input <;> rfl

theorem bind_eq_ok {r : Reader τ ε α} {k : α → Reader τ ε β} {input rest : List τ} {b : β} :
    (r >>= k) input = .ok (b, rest) ↔
      ∃ a mid, r input = .ok (a, mid) ∧ k a mid = .ok (b, rest) := by
  rw [bind_apply]
  cases r input with
  | error e => simp
  | ok x =>
    obtain ⟨a, mid⟩ := x
    simp

theorem refuse_bind_eq_ok {p : Prop} [Decidable p] {e : ε} {k : Unit → Reader τ ε β}
    {input rest : List τ} {b : β} :
    (refuse p e >>= k) input = .ok (b, rest) ↔ ¬ p ∧ k () input = .ok (b, rest) := by
  by_cases hp : p
  · rw [refuse, if_pos hp]
    exact ⟨(fun h => nomatch h), fun h => absurd hp h.1⟩
  · rw [refuse, if_neg hp]
    exact ⟨fun h => ⟨hp, h⟩, fun h => h.2⟩

theorem bind_error {r : Reader τ ε α} {input : List τ} {e : ε} (h : r input = .error e)
    (k : α → Reader τ ε β) : (r >>= k) input = .error e := by
  rw [bind_apply, h]

theorem Reads.bind_apply {r : Reader τ ε α} {field : List τ} {a : α} (h : Reads r field a)
    (k : α → Reader τ ε β) (rest : List τ) : (r >>= k) (field ++ rest) = k a rest := by
  rw [Reader.bind_apply, h rest]

theorem Reads.pure (a : α) : Reads (pure a : Reader τ ε α) [] a := fun _ => rfl

theorem Reads.bind {r : Reader τ ε α} {k : α → Reader τ ε β} {field field' : List τ} {a : α}
    {b : β} (h : Reads r field a) (hk : Reads (k a) field' b) :
    Reads (r >>= k) (field ++ field') b := by
  intro rest
  rw [List.append_assoc, h.bind_apply, hk rest]

theorem Reads.bind_pure {r : Reader τ ε α} {field : List τ} {a : α} (h : Reads r field a)
    (f : α → β) : Reads (r >>= fun a => Pure.pure (f a)) field (f a) := by
  intro rest
  rw [h.bind_apply]
  rfl

theorem refuse_bind_of_not {p : Prop} [Decidable p] (hp : ¬ p) (e : ε) (k : Unit → Reader τ ε β)
    (input : List τ) : (refuse p e >>= k) input = k () input := by
  rw [refuse, if_neg hp]
  rfl

theorem refuse_bind_of {p : Prop} [Decidable p] (hp : p) (e : ε) (k : Unit → Reader τ ε β)
    (input : List τ) : (refuse p e >>= k) input = .error e := by
  rw [refuse, if_pos hp]
  rfl

/-- A field is read as one value. -/
theorem Reads.unique {r : Reader τ ε α} {field : List τ} {a b : α} (h : Reads r field a)
    (h' : Reads r field b) : a = b := by
  have heq := (h []).symm.trans (h' [])
  simpa using heq

theorem Reads.next (a : τ) (e : ε) : Reads (next e) [a] a := fun _ => rfl

theorem Reads.take (field : List τ) (e : ε) : Reads (take field.length e) field field := by
  intro rest
  rw [Reader.take, if_pos (by simp)]
  simp

theorem Reads.refuse {p : Prop} [Decidable p] (hp : ¬ p) (e : ε) :
    Reads (refuse p e : Reader τ ε Unit) [] () := by
  intro rest
  rw [Reader.refuse, if_neg hp]
  rfl

/-! ## Readers that look at nothing else -/

theorem Local.pure (a : α) : Local (pure a : Reader τ ε α) := by
  intro input b rest h
  obtain ⟨rfl, rfl⟩ : a = b ∧ input = rest := by
    simpa using (show (Except.ok (a, input) : Except ε _) = .ok (b, rest) from h)
  exact ⟨[], rfl, Reads.pure a⟩

theorem Local.bind {r : Reader τ ε α} {k : α → Reader τ ε β} (h : Local r)
    (hk : ∀ a, Local (k a)) : Local (r >>= k) := by
  intro input b rest hrun
  obtain ⟨a, mid, hr, hka⟩ := bind_eq_ok.mp hrun
  obtain ⟨field, rfl, hreads⟩ := h input a mid hr
  obtain ⟨field', rfl, hreads'⟩ := hk a mid b rest hka
  exact ⟨field ++ field', by rw [List.append_assoc], hreads.bind hreads'⟩

theorem Local.fail (e : ε) : Local (fail e : Reader τ ε α) := fun _ _ _ h => nomatch h

theorem Local.next (e : ε) : Local (next e : Reader τ ε τ) := by
  intro input a rest h
  cases input with
  | nil => cases h
  | cons b input =>
    obtain ⟨rfl, rfl⟩ : b = a ∧ input = rest := by simpa [Reader.next] using h
    exact ⟨[b], rfl, Reads.next b e⟩

theorem Local.take (n : Nat) (e : ε) : Local (take n e : Reader τ ε (List τ)) := by
  intro input a rest h
  unfold Reader.take at h
  split at h
  · next hn =>
    obtain ⟨rfl, rfl⟩ : input.take n = a ∧ input.drop n = rest := by simpa using h
    have hlength : (input.take n).length = n := List.length_take_of_le hn
    refine ⟨input.take n, (List.take_append_drop n input).symm, ?_⟩
    have hreads := Reads.take (input.take n) e
    rwa [hlength] at hreads
  · cases h

theorem Local.ite {p : Prop} [Decidable p] {r r' : Reader τ ε α} (h : Local r) (h' : Local r') :
    Local (if p then r else r') := by
  split
  · exact h
  · exact h'

theorem Local.refuse (p : Prop) [Decidable p] (e : ε) : Local (refuse p e : Reader τ ε Unit) :=
  (Local.fail e).ite (Local.pure ())

end Reader

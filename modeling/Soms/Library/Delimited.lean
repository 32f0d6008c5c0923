import Mathlib.Data.Set.Basic
import Mathlib.Logic.Function.Basic

/-!
# Delimited encodings

An encoding separates its values in front of the texts of a set if no two of them can be read
from one text.  Pairs, lists and brackets of such encodings separate again.
-/

namespace Delimited

variable {α β γ : Type*}

/-- In front of a text of `S` an encoded value and the rest can be read in one way only. -/
def Separates (S : Set (List γ)) (f : α → List γ) : Prop :=
  ∀ ⦃a b s t⦄, s ∈ S → t ∈ S → f a ++ s = f b ++ t → a = b ∧ s = t

/-- The texts that do not start with an item of `p`. -/
def Stops (p : γ → Prop) : Set (List γ) := {s | ∀ c ∈ s.head?, ¬ p c}

/-- The texts that start with one of two items. -/
def StartsWith (sep close : γ) : Set (List γ) := {s | s.head? = some sep ∨ s.head? = some close}

namespace Separates

variable {S T : Set (List γ)} {f : α → List γ} {g : β → List γ}

theorem eq_iff (hf : Separates S f) (hnil : [] ∈ S) {a b : α} : f a = f b ↔ a = b :=
  ⟨fun h => (hf hnil hnil (by rw [h])).1, fun h => by rw [h]⟩

theorem mono (hf : Separates T f) (h : S ⊆ T) : Separates S f :=
  fun _ _ _ _ hs ht heq => hf (h hs) (h ht) heq

theorem comp (hf : Separates S f) {e : β → α} (he : Function.Injective e) :
    Separates S fun b => f (e b) := by
  intro a b s t hs ht heq
  have h := hf hs ht heq
  exact ⟨he h.1, h.2⟩

/-- A constant in front. -/
theorem const_append (hf : Separates S f) (c : List γ) : Separates S fun a => c ++ f a := by
  intro a b s t hs ht heq
  rw [List.append_assoc, List.append_assoc] at heq
  exact hf hs ht (List.append_cancel_left heq)

/-- A constant behind may be all that separates. -/
theorem append_const {c : List γ} (hf : Separates T f) (h : ∀ s ∈ S, c ++ s ∈ T) :
    Separates S fun a => f a ++ c := by
  intro a b s t hs ht heq
  rw [List.append_assoc, List.append_assoc] at heq
  have hab := hf (h s hs) (h t ht) heq
  exact ⟨hab.1, List.append_cancel_left hab.2⟩

theorem pair (hf : Separates T f) (hg : Separates S g) (h : ∀ b, ∀ s ∈ S, g b ++ s ∈ T) :
    Separates S fun x : α × β => f x.1 ++ g x.2 := by
  intro a b s t hs ht heq
  rw [List.append_assoc, List.append_assoc] at heq
  obtain ⟨hfst, hrest⟩ := hf (h a.2 s hs) (h b.2 t ht) heq
  obtain ⟨hsnd, hst⟩ := hg hs ht hrest
  exact ⟨Prod.ext hfst hsnd, hst⟩

/-- Texts made of the items of `p` end where such an item no longer follows. -/
theorem of_items {p : γ → Prop} (hp : ∀ a, ∀ c ∈ f a, p c) (hinj : Function.Injective f) :
    Separates (Stops p) f := by
  classical
  have htake : ∀ a, ∀ s ∈ Stops p, (f a ++ s).takeWhile (fun c => decide (p c)) = f a := by
    intro a s hs
    rw [List.takeWhile_append_of_pos fun c hc => decide_eq_true (hp a c hc)]
    cases s with
    | nil => simp
    | cons c rest => simp [hs c rfl]
  intro a b s t hs ht heq
  have hab : f a = f b := by rw [← htake a s hs, ← htake b t ht, heq]
  exact ⟨hinj hab, List.append_cancel_left (hab ▸ heq)⟩

/-! ## Lists -/

/-- Encodings one after the other, up to an item with which none of them starts. -/
theorem flatten (hf : Separates Set.univ f) {close : γ}
    (hstart : ∀ a, ∃ c rest, f a = c :: rest ∧ c ≠ close) :
    Separates Set.univ fun l : List α => (l.map f).flatten ++ [close] := by
  intro l l' s t _ _ heq
  induction l generalizing l' with
  | nil =>
    cases l' with
    | nil => exact ⟨rfl, by simpa using heq⟩
    | cons b l' =>
      obtain ⟨c, rest, hfb, hc⟩ := hstart b
      simp only [List.map_nil, List.flatten_nil, List.map_cons, List.flatten_cons, hfb,
        List.nil_append, List.cons_append, List.cons.injEq] at heq
      exact absurd heq.1.symm hc
  | cons a l ih =>
    cases l' with
    | nil =>
      obtain ⟨c, rest, hfa, hc⟩ := hstart a
      simp only [List.map_nil, List.flatten_nil, List.map_cons, List.flatten_cons, hfa,
        List.nil_append, List.cons_append, List.cons.injEq] at heq
      exact absurd heq.1 hc
    | cons b l' =>
      simp only [List.map_cons, List.flatten_cons, List.append_assoc] at heq
      obtain ⟨hab, hrest⟩ := hf trivial trivial heq
      obtain ⟨hl, hst⟩ := ih (by simpa only [List.append_assoc] using hrest)
      exact ⟨by rw [hab, hl], hst⟩

/-- What follows the first of several encodings with an item between them. -/
def behind (sep close : γ) (f : α → List γ) : List α → List γ → List γ
  | [], s => close :: s
  | a :: l, s => sep :: (f a ++ behind sep close f l s)

theorem intercalate_cons (sep close : γ) (f : α → List γ) (a : α) (l : List α) (s : List γ) :
    [sep].intercalate ((a :: l).map f) ++ [close] ++ s = f a ++ behind sep close f l s := by
  induction l generalizing a with
  | nil => simp [behind]
  | cons b l ih =>
    rw [List.map_cons, List.map_cons, List.intercalate_cons_cons, behind, ← ih b]
    simp

theorem behind_mem {sep close : γ} (l : List α) (s : List γ) :
    behind sep close f l s ∈ StartsWith sep close := by
  cases l with
  | nil => exact Or.inr rfl
  | cons a l => exact Or.inl rfl

theorem behind_inj {sep close : γ} (hne : sep ≠ close) (hf : Separates (StartsWith sep close) f)
    {l l' : List α} {s t : List γ} (h : behind sep close f l s = behind sep close f l' t) :
    l = l' ∧ s = t := by
  induction l generalizing l' with
  | nil =>
    cases l' with
    | nil => exact ⟨rfl, (List.cons.inj h).2⟩
    | cons b l' => exact absurd (List.cons.inj h).1.symm hne
  | cons a l ih =>
    cases l' with
    | nil => exact absurd (List.cons.inj h).1 hne
    | cons b l' =>
      obtain ⟨rfl, hrest⟩ := hf (behind_mem l s) (behind_mem l' t) (List.cons.inj h).2
      obtain ⟨rfl, hst⟩ := ih hrest
      exact ⟨rfl, hst⟩

/-- Encodings with an item between them, up to an item with which none of them starts. -/
theorem intercalate {sep close : γ} (hne : sep ≠ close) (hf : Separates (StartsWith sep close) f)
    (hstart : ∀ a, ∃ c rest, f a = c :: rest ∧ c ≠ close) :
    Separates Set.univ fun l : List α => [sep].intercalate (l.map f) ++ [close] := by
  have hempty : ∀ (b : α) (l : List α) (s t : List γ),
      close :: s ≠ [sep].intercalate ((b :: l).map f) ++ [close] ++ t := by
    intro b l s t heq
    obtain ⟨c, rest, hfb, hc⟩ := hstart b
    rw [intercalate_cons, hfb] at heq
    exact hc (List.cons.inj heq).1.symm
  intro l l' s t _ _ heq
  cases l with
  | nil =>
    cases l' with
    | nil => exact ⟨rfl, (List.cons.inj heq).2⟩
    | cons b l' => exact absurd heq (hempty b l' s t)
  | cons a l =>
    cases l' with
    | nil => exact absurd heq.symm (hempty a l t s)
    | cons b l' =>
      simp only [intercalate_cons] at heq
      obtain ⟨rfl, hrest⟩ := hf (behind_mem l s) (behind_mem l' t) heq
      obtain ⟨rfl, hst⟩ := behind_inj hne hf hrest
      exact ⟨rfl, hst⟩

end Separates

end Delimited

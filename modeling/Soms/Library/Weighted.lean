import Mathlib.Algebra.Order.Monoid.Defs
import Mathlib.Algebra.BigOperators.Group.List.Basic
import Mathlib.Data.List.Sort

/-!
# Sums weighted by position

The values of a collection in falling order, each weighted by its position.  With another value, or
with a greater one in place of a value, every value moves, and the sum does not fall.
-/

variable {α R : Type}

/-- The sum of the values by their positions. -/
def positionSum [AddCommMonoid R] (f : Nat → α → R) : List α → R
  | [] => 0
  | a :: l => f 0 a + positionSum (fun i => f (i + 1)) l

/-! ## Counts -/

section Counts

variable [LinearOrder α]

/-- From every bound on there are at least as many values in `m` as in `l`. -/
def CountsBelow (l m : List α) : Prop :=
  ∀ t, l.countP (fun a => decide (t ≤ a)) ≤ m.countP fun a => decide (t ≤ a)

theorem CountsBelow.cons (a : α) (l : List α) : CountsBelow l (a :: l) := by
  intro t
  rw [List.countP_cons]
  exact Nat.le_add_right _ _

theorem CountsBelow.perm_left {l l' m : List α} (h : CountsBelow l m) (hl : l'.Perm l) :
    CountsBelow l' m := by
  intro t
  rw [hl.countP_eq]
  exact h t

theorem CountsBelow.perm_right {l m m' : List α} (h : CountsBelow l m) (hm : m'.Perm m) :
    CountsBelow l m' := by
  intro t
  rw [hm.countP_eq]
  exact h t

theorem CountsBelow.replace (before after : List α) {a b : α} (hab : a ≤ b) :
    CountsBelow (before ++ a :: after) (before ++ b :: after) := by
  intro t
  rw [List.countP_append, List.countP_append, List.countP_cons, List.countP_cons]
  by_cases ht : t ≤ a
  · have htb : t ≤ b := ht.trans hab
    simp [ht, htb]
  · simp only [ht, decide_false, Bool.false_eq_true, if_false]
    omega

/-- Below the first value of a falling list no count is lost. -/
theorem countP_eq_zero_of_lt {a t : α} {l : List α} (hl : (a :: l).Pairwise (· ≥ ·))
    (ht : a < t) : l.countP (fun b => decide (t ≤ b)) = 0 := by
  rw [List.countP_eq_zero]
  intro b hb
  have hba : b ≤ a := (List.pairwise_cons.mp hl).1 b hb
  simpa using hba.trans_lt ht

theorem CountsBelow.tail {a b : α} {l m : List α} (hl : (a :: l).Pairwise (· ≥ ·)) (hab : a ≤ b)
    (h : CountsBelow (a :: l) (b :: m)) : CountsBelow l m := by
  intro t
  rcases lt_or_ge a t with ht | ht
  · rw [countP_eq_zero_of_lt hl ht]
    exact Nat.zero_le _
  · have hcount := h t
    have htb : t ≤ b := ht.trans hab
    simpa [List.countP_cons, ht, htb] using hcount

theorem CountsBelow.head_le {a b : α} {l m : List α} (hm : (b :: m).Pairwise (· ≥ ·))
    (h : CountsBelow (a :: l) (b :: m)) : a ≤ b := by
  by_contra hba
  have hlt : b < a := not_le.mp hba
  have hcount := h a
  rw [List.countP_cons, List.countP_cons, countP_eq_zero_of_lt hm hlt] at hcount
  simp [hlt.not_ge] at hcount

theorem CountsBelow.ne_nil {a : α} {l m : List α} (h : CountsBelow (a :: l) m) : m ≠ [] := by
  rintro rfl
  simpa using h a

end Counts

/-! ## Sums -/

section Sum

variable [AddCommMonoid R]

theorem positionSum_eq (f : Nat → α → R) (l : List α) :
    (l.zipIdx.map fun x => f x.2 x.1).sum = positionSum f l := by
  suffices h : ∀ n, ((l.zipIdx n).map fun x => f x.2 x.1).sum =
      positionSum (fun i => f (i + n)) l from h 0
  induction l generalizing f with
  | nil => intro n; rfl
  | cons a l ih =>
    intro n
    have hshift : (fun i => f (i + (n + 1))) = fun i => f (i + 1 + n) := by
      funext i
      rw [show i + (n + 1) = i + 1 + n by omega]
    rw [List.zipIdx_cons, List.map_cons, List.sum_cons, ih f (n + 1), hshift, positionSum]
    simp only [Nat.zero_add]

variable [PartialOrder R] [IsOrderedAddMonoid R]

theorem positionSum_nonneg {f : Nat → α → R} (hf : ∀ i a, 0 ≤ f i a) (l : List α) :
    0 ≤ positionSum f l := by
  induction l generalizing f with
  | nil => exact le_rfl
  | cons a l ih => exact add_nonneg (hf 0 a) (ih fun i => hf (i + 1))

/-- **Counts decide.**  If the values of `m` are not fewer from any bound on, then its first values
do not add up to less. -/
theorem positionSum_le [LinearOrder α] {f : Nat → α → R} (hf : ∀ i a, 0 ≤ f i a)
    (hmono : ∀ i a b, a ≤ b → f i a ≤ f i b) {l m : List α} (hl : l.Pairwise (· ≥ ·))
    (hm : m.Pairwise (· ≥ ·)) (h : CountsBelow l m) (n : Nat) :
    positionSum f (l.take n) ≤ positionSum f (m.take n) := by
  induction l generalizing f m n with
  | nil =>
    rw [List.take_nil]
    exact positionSum_nonneg hf _
  | cons a l ih =>
    cases m with
    | nil => exact absurd rfl h.ne_nil
    | cons b m =>
      cases n with
      | zero => exact le_rfl
      | succ n =>
        have hab : a ≤ b := h.head_le hm
        have hrest := ih (fun i => hf (i + 1)) (fun i => hmono (i + 1))
          (List.pairwise_cons.mp hl).2 (List.pairwise_cons.mp hm).2 (h.tail hl hab) n
        exact add_le_add (hmono 0 a b hab) hrest

end Sum

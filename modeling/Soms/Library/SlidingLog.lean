import Mathlib

/-!
# Sliding logs

A log of weighted entries, the newest first, of which a window between two times holds a load.
Entries that were each let in when their own window had room leave room in every window, and a
store that forgot only what is too old still tells the loads that are asked for.
-/

namespace SlidingLog

variable {T : Type} [LinearOrder T]

/-- What the log holds between two times, both included. -/
def load (log : List (T × ℕ)) (lo hi : T) : ℕ :=
  ((log.filter fun e => lo ≤ e.1 ∧ e.1 ≤ hi).map Prod.snd).sum

@[simp]
theorem load_nil (lo hi : T) : load ([] : List (T × ℕ)) lo hi = 0 := rfl

theorem load_cons (e : T × ℕ) (log : List (T × ℕ)) (lo hi : T) :
    load (e :: log) lo hi = (if lo ≤ e.1 ∧ e.1 ≤ hi then e.2 else 0) + load log lo hi := by
  by_cases h : lo ≤ e.1 ∧ e.1 ≤ hi
  · simp only [load, List.filter_cons, h, decide_true, and_self, if_true, List.map_cons,
      List.sum_cons]
  · simp only [load, List.filter_cons, h, decide_false, if_false, Bool.false_eq_true, Nat.zero_add]

/-- A window holds no more than one that takes in the part of it that has entries. -/
theorem load_le {log : List (T × ℕ)} {lo hi lo' hi' : T}
    (h : ∀ e ∈ log, lo ≤ e.1 → e.1 ≤ hi → lo' ≤ e.1 ∧ e.1 ≤ hi') :
    load log lo hi ≤ load log lo' hi' := by
  induction log with
  | nil => exact Nat.le_refl _
  | cons e log ih =>
    have hrest := ih fun x hx => h x (List.mem_cons_of_mem e hx)
    have hhead := h e List.mem_cons_self
    rw [load_cons, load_cons]
    by_cases hin : lo ≤ e.1 ∧ e.1 ≤ hi
    · rw [if_pos hin, if_pos (hhead hin.1 hin.2)]
      omega
    · rw [if_neg hin]
      omega

theorem load_eq_zero {log : List (T × ℕ)} {lo hi : T} (h : ∀ e ∈ log, e.1 < lo) :
    load log lo hi = 0 := by
  induction log with
  | nil => rfl
  | cons e log ih =>
    have hold : ¬(lo ≤ e.1 ∧ e.1 ≤ hi) := fun hin =>
      absurd (h e List.mem_cons_self) (not_lt.mpr hin.1)
    rw [load_cons, if_neg hold, ih fun x hx => h x (List.mem_cons_of_mem e hx)]

/-! ## What was let in -/

/-- Every entry of the log was let in at a time that no earlier entry is after, when the window
that `start` opens for that time had room for it. -/
inductive Admitted (start : T → T) (limit : ℕ) : List (T × ℕ) → Prop
  | nil : Admitted start limit []
  | cons {log : List (T × ℕ)} {t : T} {w : ℕ} (before : Admitted start limit log)
      (latest : ∀ e ∈ log, e.1 ≤ t) (room : load log (start t) t + w ≤ limit) :
      Admitted start limit ((t, w) :: log)

/-- No window that is within those of its own times holds more than the limit. -/
theorem Admitted.load_le_limit {start : T → T} {limit : ℕ} {log : List (T × ℕ)}
    (h : Admitted start limit log) {lo hi : T} (hstart : ∀ t, lo ≤ t → t ≤ hi → start t ≤ lo) :
    load log lo hi ≤ limit := by
  induction h with
  | nil => exact Nat.zero_le _
  | @cons log t w _ latest room ih =>
    rw [load_cons]
    by_cases hin : lo ≤ t ∧ t ≤ hi
    · have hpast : load log lo hi ≤ load log (start t) t :=
        load_le fun e he hlo _ => ⟨le_trans (hstart t hin.1 hin.2) hlo, latest e he⟩
      rw [if_pos hin]
      omega
    · rw [if_neg hin]
      omega

/-! ## What was kept -/

/-- A store of which `count` tells how much it holds between two times has everything of the log
that is after `floor`. -/
def KeptAfter (floor : T) (count : T → T → ℕ) (log : List (T × ℕ)) : Prop :=
  ∀ lo hi, floor < lo → count lo hi = load log lo hi

theorem KeptAfter.mono {floor floor' : T} {count : T → T → ℕ} {log : List (T × ℕ)}
    (h : KeptAfter floor count log) (hle : floor ≤ floor') : KeptAfter floor' count log :=
  fun lo hi hlo => h lo hi (lt_of_le_of_lt hle hlo)

/-- A store may forget everything once the whole log is too old. -/
theorem KeptAfter.forget {floor : T} {log : List (T × ℕ)} (h : ∀ e ∈ log, e.1 ≤ floor) :
    KeptAfter floor (fun _ _ => 0) log :=
  fun _ _ hlo => (load_eq_zero fun e he => lt_of_le_of_lt (h e he) hlo).symm

theorem KeptAfter.add {floor t : T} {w : ℕ} {count count' : T → T → ℕ} {log : List (T × ℕ)}
    (h : KeptAfter floor count log)
    (hcount : ∀ lo hi, count' lo hi = (if lo ≤ t ∧ t ≤ hi then w else 0) + count lo hi) :
    KeptAfter floor count' ((t, w) :: log) := by
  intro lo hi hlo
  rw [hcount, load_cons, h lo hi hlo]

end SlidingLog

import Mathlib.Data.Set.Insert
import Mathlib.Order.MinMax

/-!
# Runs of consecutive integers

`IsRun D d k` says that the integers of `D` that end at `d` without a gap are the
`k` integers `d`, `d - 1`, ....  `Longest D n` says that no run is longer than `n`
and one is as long.  A set grows here by integers above all it has, the way days
come.
-/

/-- Exactly `k` consecutive integers of `D` end at `d`. -/
def IsRun (D : Set Int) (d : Int) (k : Nat) : Prop := (∀ i : Nat, i < k → d - i ∈ D) ∧ d - k ∉ D

/-- The longest run of `D` has length `n`. -/
def Longest (D : Set Int) (n : Nat) : Prop := (∃ d, IsRun D d n) ∧ ∀ d k, IsRun D d k → k ≤ n

namespace IsRun

variable {D : Set Int} {d n : Int} {k l : Nat}

theorem unique (hk : IsRun D d k) (hl : IsRun D d l) : k = l := by
  rcases Nat.lt_trichotomy k l with hlt | heq | hgt
  · exact absurd (hl.1 k hlt) hk.2
  · exact heq
  · exact absurd (hk.1 l hgt) hl.2

theorem zero_iff : IsRun D d 0 ↔ d ∉ D := by simp [IsRun]

/-- A run that does not reach a new integer is what it was. -/
theorem insert_above (hd : d < n) : IsRun (insert n D) d k ↔ IsRun D d k := by
  have hmem : ∀ i : Nat, d - i ∈ insert n D ↔ d - i ∈ D := by
    intro i
    have hne : d - i ≠ n := by omega
    simp [hne]
  simp only [IsRun, hmem]

/-- The next integer makes the run longer by one. -/
theorem insert_succ (h : IsRun D (n - 1) k) : IsRun (insert n D) n (k + 1) := by
  refine ⟨fun i hi => ?_, ?_⟩
  · rcases Nat.eq_zero_or_pos i with rfl | hpos
    · simp
    · refine Set.mem_insert_of_mem n ?_
      have hprev := h.1 (i - 1) (by omega)
      rwa [show n - 1 - ((i - 1 : Nat) : Int) = n - (i : Nat) by omega] at hprev
  · have hne : n - ((k + 1 : Nat) : Int) ≠ n := by omega
    rw [Set.mem_insert_iff, not_or]
    refine ⟨hne, ?_⟩
    have hend := h.2
    rwa [show n - 1 - (k : Int) = n - ((k + 1 : Nat) : Int) by omega] at hend

end IsRun

theorem longest_empty : Longest ∅ 0 := by
  refine ⟨⟨0, by simp [IsRun]⟩, fun d k h => ?_⟩
  rcases Nat.eq_zero_or_pos k with rfl | hpos
  · exact le_rfl
  · exact absurd (h.1 0 hpos) (Set.notMem_empty _)

/-- The longest run after an integer above all others is the old one or the one
that ends there. -/
theorem Longest.insert_above {D : Set Int} {n : Int} {b k : Nat} (hb : Longest D b)
    (habove : ∀ d ∈ D, d < n) (hk : IsRun (insert n D) n k) :
    Longest (insert n D) (max b k) := by
  constructor
  · rcases le_total k b with hle | hle
    · obtain ⟨d, hd⟩ := hb.1
      rw [max_eq_left hle]
      rcases lt_or_ge d n with hlt | hge
      · exact ⟨d, (IsRun.insert_above hlt).mpr hd⟩
      · have hzero : b = 0 := hd.unique (IsRun.zero_iff.mpr fun hmem => by
          have := habove d hmem
          omega)
        have hkzero : k = 0 := by omega
        exact ⟨n, by rwa [hzero, ← hkzero]⟩
    · rw [max_eq_right hle]
      exact ⟨n, hk⟩
  · intro d l hl
    rcases lt_trichotomy d n with hlt | rfl | hgt
    · exact le_max_of_le_left (hb.2 d l ((IsRun.insert_above hlt).mp hl))
    · exact le_max_of_le_right (hl.unique hk).le
    · have hout : d ∉ insert n D := by
        rintro (rfl | hmem)
        · omega
        · have := habove d hmem
          omega
      rw [hl.unique (IsRun.zero_iff.mpr hout)]
      exact Nat.zero_le _

import Mathlib.Data.List.Basic

/-!
# Redis lists

The commands on lists that queues are made of.  A list is given from left to right.
-/

namespace RedisList

variable {α : Type}

/-- `RPUSH` -/
def rpush (a : α) (l : List α) : List α := l ++ [a]

/-- `LPUSH` -/
def lpush (a : α) (l : List α) : List α := a :: l

/-- `RPOP`: the last entry and what is left. -/
def rpop (l : List α) : Option (α × List α) := l.getLast?.map fun a => (a, l.dropLast)

/-- `RPOPLPUSH`: the last entry of one list becomes the first of the other. -/
def rpoplpush (source target : List α) : Option (α × List α × List α) :=
  (rpop source).map fun x => (x.1, x.2, lpush x.1 target)

theorem rpop_eq_none {l : List α} : rpop l = none ↔ l = [] := by
  simp [rpop]

theorem rpop_eq_some {l rest : List α} {a : α} : rpop l = some (a, rest) ↔ l = rpush a rest := by
  rcases List.eq_nil_or_concat l with rfl | ⟨init, b, rfl⟩
  · simp [rpop, rpush]
  · simp only [rpop, rpush, List.concat_eq_append, List.getLast?_append, List.dropLast_concat]
    constructor
    · intro h
      obtain ⟨rfl, rfl⟩ : b = a ∧ init = rest := by simpa using h
      rfl
    · intro h
      obtain ⟨rfl, rfl⟩ := List.append_inj' h rfl |>.imp_right fun hb => List.head_eq_of_cons_eq hb
      simp

theorem rpoplpush_eq_none {source target : List α} : rpoplpush source target = none ↔ source = [] := by
  simp [rpoplpush, rpop_eq_none]

theorem rpoplpush_eq_some {source target source' target' : List α} {a : α}
    (h : rpoplpush source target = some (a, source', target')) :
    source = rpush a source' ∧ target' = lpush a target := by
  obtain ⟨⟨b, rest⟩, hpop, heq⟩ := Option.map_eq_some_iff.mp h
  simp only [Prod.mk.injEq] at heq
  obtain ⟨rfl, rfl, rfl⟩ := heq
  exact ⟨rpop_eq_some.mp hpop, rfl⟩

/-- A move between two lists loses nothing and adds nothing. -/
theorem mem_rpoplpush {source target source' target' : List α} {a : α}
    (h : rpoplpush source target = some (a, source', target')) (b : α) :
    b ∈ source' ∨ b ∈ target' ↔ b ∈ source ∨ b ∈ target := by
  obtain ⟨rfl, rfl⟩ := rpoplpush_eq_some h
  simp only [rpush, lpush, List.mem_append, List.mem_cons, List.not_mem_nil, or_false]
  tauto

end RedisList

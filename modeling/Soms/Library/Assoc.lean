import Mathlib.Data.List.Nodup
import Mathlib.Data.List.Sort

/-!
# Association lists

Lists of pairs without a repeated key: a list is known up to order from its lookups, and sorted by
key it is known altogether.
-/

namespace Assoc

variable {α β γ δ : Type*}

/-- Elements that have the same image under `g` when they have the same image under `f`. -/
theorem perm_map_of_kernel {f : α → γ} {g : α → δ} {l l' : List α}
    (hfg : ∀ a ∈ l, ∀ b ∈ l', f a = f b → g a = g b) (h : (l.map f).Perm (l'.map f)) :
    (l.map g).Perm (l'.map g) := by
  induction l generalizing l' with
  | nil =>
    obtain rfl : l' = [] := List.map_eq_nil_iff.mp h.nil_eq.symm
    exact .nil
  | cons a l ih =>
    obtain ⟨b, hb, hab⟩ := List.mem_map.mp (h.subset (List.mem_cons_self : f a ∈ _))
    obtain ⟨s, t, rfl⟩ := List.append_of_mem hb
    have hrest : (l.map f).Perm ((s ++ t).map f) := by
      rw [List.map_append, List.map_cons, List.map_cons, hab] at h
      rw [List.map_append]
      exact (h.trans List.perm_middle).cons_inv
    have htail := ih (fun x hx y hy => hfg x (List.mem_cons_of_mem a hx) y (by
      rw [List.mem_append] at hy ⊢
      exact hy.imp_right (List.mem_cons_of_mem b))) hrest
    rw [List.map_cons, hfg a List.mem_cons_self b hb hab.symm, List.map_append, List.map_cons]
    rw [List.map_append] at htail
    exact (htail.cons _).trans List.perm_middle.symm

/-- The search for a key finds the element that has it. -/
theorem find?_key [DecidableEq γ] {key : α → γ} {l : List α} (hkeys : (l.map key).Nodup) {k : γ}
    {a : α} : (l.find? fun b => key b == k) = some a ↔ a ∈ l ∧ key a = k := by
  constructor
  · intro h
    exact ⟨List.mem_of_find?_eq_some h, by simpa using List.find?_some h⟩
  · intro ⟨hmem, hkey⟩
    cases hfind : l.find? fun b => key b == k with
    | none => exact absurd hkey (by simpa using List.find?_eq_none.mp hfind a hmem)
    | some b =>
      have hb : key b = k := by simpa using List.find?_some hfind
      rw [List.inj_on_of_nodup_map hkeys (List.mem_of_find?_eq_some hfind) hmem
        (hb.trans hkey.symm)]

variable [DecidableEq α]

theorem mem_iff_lookup {l : List (α × β)} (h : (l.map Prod.fst).Nodup) {k : α} {v : β} :
    (k, v) ∈ l ↔ l.lookup k = some v := by
  induction l with
  | nil => simp
  | cons x l ih =>
    obtain ⟨k', v'⟩ := x
    rw [List.map_cons, List.nodup_cons] at h
    rw [List.mem_cons, List.lookup_cons, ih h.2]
    by_cases hk : k = k'
    · subst hk
      have hnone : l.lookup k = none := by
        refine List.lookup_eq_none_iff.mpr fun p hp => ?_
        have hmem : p.1 ∈ l.map Prod.fst := List.mem_map_of_mem hp
        have hne : k ≠ p.1 := fun hkp => h.1 (hkp ▸ hmem)
        simpa using hne
      simp [hnone, eq_comm]
    · simp [hk, beq_false_of_ne hk]

/-- Two lists are the same up to order if their lookups are the same. -/
theorem perm_iff_lookup {l l' : List (α × β)} (h : (l.map Prod.fst).Nodup)
    (h' : (l'.map Prod.fst).Nodup) : l.Perm l' ↔ ∀ k, l.lookup k = l'.lookup k := by
  rw [List.perm_ext_iff_of_nodup h.of_map h'.of_map]
  constructor
  · intro hmem k
    refine Option.ext fun v => ?_
    exact (mem_iff_lookup h).symm.trans ((hmem (k, v)).trans (mem_iff_lookup h'))
  · intro hlookup x
    exact (mem_iff_lookup h).trans (by rw [hlookup x.1, ← mem_iff_lookup h'])

/-- Sorting by key forgets the order and nothing else. -/
theorem insertionSort_eq_iff [LinearOrder γ] [DecidableRel fun x y : γ × β => x.1 ≤ y.1]
    {l l' : List (γ × β)} (h : (l.map Prod.fst).Nodup) :
    (l.insertionSort fun x y => x.1 ≤ y.1) = (l'.insertionSort fun x y => x.1 ≤ y.1) ↔
      l.Perm l' := by
  have htotal : Std.Total fun x y : γ × β => x.1 ≤ y.1 := ⟨fun x y => le_total x.1 y.1⟩
  have htrans : IsTrans (γ × β) fun x y => x.1 ≤ y.1 := ⟨fun x y z => le_trans⟩
  constructor
  · intro heq
    have hleft := List.perm_insertionSort (fun x y : γ × β => x.1 ≤ y.1) l
    exact hleft.symm.trans (heq ▸ List.perm_insertionSort _ l')
  · intro hperm
    have hleft := List.perm_insertionSort (fun x y : γ × β => x.1 ≤ y.1) l
    have hright := List.perm_insertionSort (fun x y : γ × β => x.1 ≤ y.1) l'
    have hsort := (hleft.trans hperm).trans hright.symm
    refine hsort.eq_of_pairwise ?_ (List.pairwise_insertionSort _ l)
      (List.pairwise_insertionSort _ l')
    intro x y hx hy hxy hyx
    have hx : x ∈ l := hleft.mem_iff.mp hx
    have hy : y ∈ l := hperm.mem_iff.mpr (hright.mem_iff.mp hy)
    exact List.inj_on_of_nodup_map h hx hy (le_antisymm hxy hyx)

end Assoc

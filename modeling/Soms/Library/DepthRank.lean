import Mathlib.Data.List.Chain
import Mathlib.Data.List.Nodup
import Mathlib.Data.List.Perm.Subperm
import Mathlib.Logic.Function.Basic
import Mathlib.Logic.Relation

/-!
# Ranks by depth-first search

Every node of a graph is given a rank above those of the nodes that it depends on.  Nodes are
looked up by their keys, and several nodes may have one key; the search meets one of them.  The
search has a number of frames, and fails if it needs more.
-/

namespace DepthRank

variable {K N : Type}

structure Graph (K N : Type) where
  nodes : List N
  key : N → K
  deps : N → List K
  find : K → Option N
  find_mem : ∀ k n, find k = some n → n ∈ nodes ∧ key n = k
  find_key : ∀ n ∈ nodes, find (key n) ≠ none

namespace Graph

/-- Some node of the first key depends on the second. -/
def Requires (g : Graph K N) (a b : K) : Prop := ∃ n ∈ g.nodes, g.key n = a ∧ b ∈ g.deps n

end Graph

abbrev Ranks (K : Type) := K → Option ℕ

inductive Failure (K : Type) where
  | circular (k : K)
  | missing (k dep : K)
  | recursion
  deriving DecidableEq

/-- One dependency after another, with the highest rank so far. -/
def visitAll (g : Graph K N) (visit : Ranks K → N → Except (Failure K) (ℕ × Ranks K)) (k : K) :
    List K → ℕ → Ranks K → Except (Failure K) (ℕ × Ranks K)
  | [], best, ranks => .ok (best, ranks)
  | d :: rest, best, ranks =>
    match g.find d with
    | none => .error (.missing k d)
    | some n =>
      match visit ranks n with
      | .error e => .error e
      | .ok (rank, ranks) => visitAll g visit k rest (max best rank) ranks

variable [DecidableEq K]

/-- The search from a node, below the nodes of the stack. -/
def visit (g : Graph K N) : ℕ → List K → Ranks K → N → Except (Failure K) (ℕ × Ranks K)
  | 0, _, _, _ => .error .recursion
  | frames + 1, stack, ranks, n =>
    match ranks (g.key n) with
    | some rank => .ok (rank, ranks)
    | none =>
      if g.key n ∈ stack then .error (.circular (g.key n))
      else
        match visitAll g (visit g frames (g.key n :: stack)) (g.key n) (g.deps n) 0 ranks with
        | .error e => .error e
        | .ok (best, ranks) =>
          .ok (best + 1, Function.update ranks (g.key n) (some (best + 1)))

/-- The searches from some nodes, one after another. -/
def rankAll (g : Graph K N) (frames : ℕ) : List N → Ranks K → Except (Failure K) (Ranks K)
  | [], ranks => .ok ranks
  | n :: rest, ranks =>
    if (ranks (g.key n)).isSome then rankAll g frames rest ranks
    else
      match visit g frames [] ranks n with
      | .error e => .error e
      | .ok (_, ranks) => rankAll g frames rest ranks

/-! ## Successful searches -/

/-- Every key with a rank has a node whose dependencies have lower ranks. -/
def Ranked (g : Graph K N) (ranks : Ranks K) : Prop :=
  ∀ k r, ranks k = some r →
    ∃ n ∈ g.nodes, g.key n = k ∧ ∀ d ∈ g.deps n, ∃ s, ranks d = some s ∧ s < r

/-- A search keeps the ranks there are and gives none to the keys of its stack. -/
structure Extends (stack : List K) (ranks ranks' : Ranks K) : Prop where
  keeps : ∀ k r, ranks k = some r → ranks' k = some r
  spares : ∀ k ∈ stack, ranks k = none → ranks' k = none

namespace Extends

variable {stack : List K} {ranks ranks' ranks'' : Ranks K}

omit [DecidableEq K] in
theorem refl : Extends stack ranks ranks := ⟨fun _ _ h => h, fun _ _ h => h⟩

omit [DecidableEq K] in
theorem trans (h : Extends stack ranks ranks') (h' : Extends stack ranks' ranks'') :
    Extends stack ranks ranks'' :=
  ⟨fun k r hk => h'.keeps k r (h.keeps k r hk),
    fun k hk hnone => h'.spares k hk (h.spares k hk hnone)⟩

end Extends

variable {g : Graph K N}

omit [DecidableEq K] in
theorem visitAll_ok {visit : Ranks K → N → Except (Failure K) (ℕ × Ranks K)} {stack : List K}
    {k : K}
    (hvisit : ∀ ranks n r ranks', n ∈ g.nodes → Ranked g ranks →
      (∀ k ∈ stack, ranks k = none) → visit ranks n = .ok (r, ranks') →
      Ranked g ranks' ∧ Extends stack ranks ranks' ∧ ranks' (g.key n) = some r)
    (ds : List K) {best best' : ℕ} {ranks ranks' : Ranks K} (hranked : Ranked g ranks)
    (hstack : ∀ k ∈ stack, ranks k = none)
    (hok : visitAll g visit k ds best ranks = .ok (best', ranks')) :
    Ranked g ranks' ∧ Extends stack ranks ranks' ∧ best ≤ best' ∧
      ∀ d ∈ ds, ∃ s, ranks' d = some s ∧ s ≤ best' := by
  induction ds generalizing best ranks with
  | nil =>
    rw [visitAll, Except.ok.injEq, Prod.mk.injEq] at hok
    obtain ⟨rfl, rfl⟩ := hok
    exact ⟨hranked, Extends.refl, Nat.le_refl _, fun d hd => absurd hd List.not_mem_nil⟩
  | cons d rest ih =>
    unfold visitAll at hok
    split at hok
    · cases hok
    · next n hfind =>
      split at hok
      · cases hok
      · next rank ranks₁ hone =>
        obtain ⟨hmem, hkey⟩ := g.find_mem d n hfind
        obtain ⟨hranked₁, hext₁, hrank⟩ := hvisit ranks n rank ranks₁ hmem hranked hstack hone
        obtain ⟨hranked', hext, hle, hall⟩ := ih hranked₁
          (fun k hk => hext₁.spares k hk (hstack k hk)) hok
        refine ⟨hranked', hext₁.trans hext, by omega, ?_⟩
        intro e he
        cases List.mem_cons.mp he with
        | inl heq => exact ⟨rank, hext.keeps e rank (by rw [heq, ← hkey, hrank]), by omega⟩
        | inr hin => exact hall e hin

theorem Ranked.update {ranks : Ranks K} {n : N} {best : ℕ} (h : Ranked g ranks) (hn : n ∈ g.nodes)
    (hnone : ranks (g.key n) = none)
    (hdeps : ∀ d ∈ g.deps n, ∃ s, ranks d = some s ∧ s ≤ best) :
    Ranked g (Function.update ranks (g.key n) (some (best + 1))) := by
  have hother : ∀ d s, ranks d = some s →
      Function.update ranks (g.key n) (some (best + 1)) d = some s := by
    intro d s hd
    have hne : d ≠ g.key n := by
      intro heq
      rw [heq, hnone] at hd
      cases hd
    rw [Function.update_of_ne hne, hd]
  intro k r hk
  by_cases heq : k = g.key n
  · rw [heq, Function.update_self] at hk
    refine ⟨n, hn, heq.symm, ?_⟩
    intro d hd
    obtain ⟨s, hs, hle⟩ := hdeps d hd
    have hr := Option.some.inj hk
    exact ⟨s, hother d s hs, by omega⟩
  · rw [Function.update_of_ne heq] at hk
    obtain ⟨m, hm, hkey, hlower⟩ := h k r hk
    refine ⟨m, hm, hkey, ?_⟩
    intro d hd
    obtain ⟨s, hs, hlt⟩ := hlower d hd
    exact ⟨s, hother d s hs, hlt⟩

/-- What a successful search leaves. -/
theorem visit_ok (frames : ℕ) (stack : List K) {ranks ranks' : Ranks K} {n : N} {r : ℕ}
    (hn : n ∈ g.nodes) (hranked : Ranked g ranks) (hstack : ∀ k ∈ stack, ranks k = none)
    (hok : visit g frames stack ranks n = .ok (r, ranks')) :
    Ranked g ranks' ∧ Extends stack ranks ranks' ∧ ranks' (g.key n) = some r := by
  induction frames generalizing stack ranks ranks' n r with
  | zero => cases hok
  | succ frames ih =>
    unfold visit at hok
    split at hok
    · next rank hrank =>
      rw [Except.ok.injEq, Prod.mk.injEq] at hok
      obtain ⟨rfl, rfl⟩ := hok
      exact ⟨hranked, Extends.refl, hrank⟩
    · next hnone =>
      split at hok
      · cases hok
      · next hfresh =>
        split at hok
        · cases hok
        · next best ranks₁ hall =>
          rw [Except.ok.injEq, Prod.mk.injEq] at hok
          obtain ⟨rfl, rfl⟩ := hok
          have hopen : ∀ k ∈ g.key n :: stack, ranks k = none := by
            intro k hk
            cases List.mem_cons.mp hk with
            | inl heq => exact heq ▸ hnone
            | inr hin => exact hstack k hin
          obtain ⟨hranked₁, hext, -, hdeps⟩ := visitAll_ok
            (fun _ _ _ _ hm hr hs => ih (g.key n :: stack) hm hr hs) (g.deps n) hranked hopen hall
          have hstill : ranks₁ (g.key n) = none := hext.spares _ List.mem_cons_self hnone
          refine ⟨hranked₁.update hn hstill hdeps, ⟨?_, ?_⟩, Function.update_self ..⟩
          · intro k s hk
            have hk₁ := hext.keeps k s hk
            have hne : k ≠ g.key n := by
              intro heq
              rw [heq, hstill] at hk₁
              cases hk₁
            rw [Function.update_of_ne hne, hk₁]
          · intro k hk hk₀
            have hne : k ≠ g.key n := fun heq => hfresh (heq ▸ hk)
            rw [Function.update_of_ne hne]
            exact hext.spares k (List.mem_cons_of_mem _ hk) hk₀

theorem rankAll_ok (frames : ℕ) (ns : List N) {ranks ranks' : Ranks K} (hns : ns ⊆ g.nodes)
    (hranked : Ranked g ranks) (hok : rankAll g frames ns ranks = .ok ranks') :
    Ranked g ranks' ∧ (∀ k r, ranks k = some r → ranks' k = some r) ∧
      ∀ n ∈ ns, ∃ r, ranks' (g.key n) = some r := by
  induction ns generalizing ranks with
  | nil =>
    obtain rfl := Except.ok.inj hok
    exact ⟨hranked, fun _ _ hk => hk, fun n hn => absurd hn List.not_mem_nil⟩
  | cons n rest ih =>
    obtain ⟨hn, hrest⟩ := List.cons_subset.mp hns
    unfold rankAll at hok
    split at hok
    · next hsome =>
      obtain ⟨hranked', hkeeps, hall⟩ := ih hrest hranked hok
      obtain ⟨r, hr⟩ := Option.isSome_iff_exists.mp hsome
      refine ⟨hranked', hkeeps, ?_⟩
      intro m hm
      cases List.mem_cons.mp hm with
      | inl heq => exact ⟨r, heq ▸ hkeeps _ r hr⟩
      | inr hin => exact hall m hin
    · split at hok
      · cases hok
      · next r ranks₁ hone =>
        obtain ⟨hranked₁, hext, hrank⟩ := visit_ok frames [] hn hranked
          (fun k hk => absurd hk List.not_mem_nil) hone
        obtain ⟨hranked', hkeeps, hall⟩ := ih hrest hranked₁ hok
        refine ⟨hranked', fun k r hk => hkeeps k r (hext.keeps k r hk), ?_⟩
        intro m hm
        cases List.mem_cons.mp hm with
        | inl heq => exact ⟨r, heq ▸ hkeeps _ r hrank⟩
        | inr hin => exact hall m hin

/-! ## Failures -/

/-- A failure tells of the graph what it says. -/
def Failure.True (g : Graph K N) : Failure K → Prop
  | .circular k => Relation.TransGen g.Requires k k
  | .missing k dep => g.Requires k dep ∧ g.find dep = none
  | .recursion => False

/-- The stack of a search: each key is required by the one below. -/
structure Opened (g : Graph K N) (stack : List K) (k : K) : Prop where
  chain : (k :: stack).IsChain fun a b => g.Requires b a
  nodup : stack.Nodup
  known : ∀ a ∈ stack, ∃ n ∈ g.nodes, g.key n = a

omit [DecidableEq K] in
theorem Opened.circular {stack : List K} {k : K} (h : Opened g stack k) (hk : k ∈ stack) :
    Relation.TransGen g.Requires k k := by
  have htrans : (k :: stack).IsChain fun a b => Relation.TransGen g.Requires b a :=
    h.chain.imp fun _ _ hab => .single hab
  have : IsTrans K fun a b => Relation.TransGen g.Requires b a :=
    ⟨fun _ _ _ hab hbc => hbc.trans hab⟩
  exact (List.pairwise_cons.mp htrans.pairwise).1 k hk

omit [DecidableEq K] in
theorem visitAll_error {visit : Ranks K → N → Except (Failure K) (ℕ × Ranks K)} {k : K}
    (ds : List K) (hds : ∀ d ∈ ds, g.Requires k d)
    (hvisit : ∀ ranks n e, n ∈ g.nodes → g.Requires k (g.key n) → visit ranks n = .error e →
      e.True g) {best : ℕ} {ranks : Ranks K} {e : Failure K}
    (herror : visitAll g visit k ds best ranks = .error e) : e.True g := by
  induction ds generalizing best ranks with
  | nil => cases herror
  | cons d rest ih =>
    have hd := hds d List.mem_cons_self
    unfold visitAll at herror
    split at herror
    · next hfind =>
      obtain rfl := Except.error.inj herror
      exact ⟨hd, hfind⟩
    · next n hfind =>
      obtain ⟨hmem, hkey⟩ := g.find_mem d n hfind
      split at herror
      · next e' hone =>
        obtain rfl := Except.error.inj herror
        exact hvisit _ n e' hmem (hkey ▸ hd) hone
      · exact ih (fun x hx => hds x (List.mem_cons_of_mem d hx)) herror

/-- With a frame for every node and one more, a search fails for a reason only. -/
theorem visit_error (frames : ℕ) {stack : List K} {ranks : Ranks K} {n : N} {e : Failure K}
    (hn : n ∈ g.nodes) (hopen : Opened g stack (g.key n))
    (hframes : g.nodes.length < stack.length + frames)
    (herror : visit g frames stack ranks n = .error e) : e.True g := by
  induction frames generalizing stack ranks n e with
  | zero =>
    have hle : stack.length ≤ (g.nodes.map g.key).length := by
      apply (List.subperm_of_subset hopen.nodup ?_).length_le
      intro a ha
      exact List.mem_map.mpr (hopen.known a ha)
    rw [List.length_map] at hle
    omega
  | succ frames ih =>
    unfold visit at herror
    split at herror
    · cases herror
    · split at herror
      · next hin =>
        obtain rfl := Except.error.inj herror
        exact hopen.circular hin
      · next hfresh =>
        split at herror
        · next e' hall =>
          obtain rfl := Except.error.inj herror
          apply visitAll_error (g.deps n) (fun d hd => ⟨n, hn, rfl, hd⟩) ?_ hall
          intro ranks m e hm hrequires hone
          apply ih hm ⟨?_, ?_, ?_⟩ ?_ hone
          · exact List.isChain_cons_cons.mpr ⟨hrequires, hopen.chain⟩
          · exact List.nodup_cons.mpr ⟨hfresh, hopen.nodup⟩
          · intro a ha
            cases List.mem_cons.mp ha with
            | inl heq => exact ⟨n, hn, heq.symm⟩
            | inr hin => exact hopen.known a hin
          · rw [List.length_cons]
            omega
        · cases herror

theorem rankAll_error {frames : ℕ} (hframes : g.nodes.length < frames) (ns : List N)
    (hns : ns ⊆ g.nodes) {ranks : Ranks K} {e : Failure K}
    (herror : rankAll g frames ns ranks = .error e) : e.True g := by
  induction ns generalizing ranks with
  | nil => cases herror
  | cons n rest ih =>
    obtain ⟨hn, hrest⟩ := List.cons_subset.mp hns
    unfold rankAll at herror
    split at herror
    · exact ih hrest herror
    · split at herror
      · next e' hone =>
        obtain rfl := Except.error.inj herror
        exact visit_error frames hn
          ⟨.singleton _, List.nodup_nil, fun a ha => absurd ha List.not_mem_nil⟩
          (by simpa using hframes) hone
      · exact ih hrest herror

end DepthRank

import Mathlib.Data.List.Sort
import Soms.Library.DepthRank

/-!
# The load order of plugins

`PluginManager._determine_load_order`: a depth-first search gives every plugin an order above
those of its dependencies, and the plugins are sorted by it.  Two detected plugins may have one
id; a dependency is then on the last of them, while the loop over the plugins starts from the
first.
-/

namespace Soms.Plugins

open DepthRank

structure PluginMeta where
  id : String
  dependencies : List String
  deriving DecidableEq

structure ManagedPlugin where
  pluginMeta : PluginMeta
  moduleName : String
  deriving DecidableEq

namespace ManagedPlugin

abbrev id (p : ManagedPlugin) : String := p.pluginMeta.id

abbrev dependencies (p : ManagedPlugin) : List String := p.pluginMeta.dependencies

end ManagedPlugin

/-- `plugin_map`: the last plugin with an id. -/
def pluginMap (plugins : List ManagedPlugin) (id : String) : Option ManagedPlugin :=
  plugins.reverse.find? fun p => p.id = id

def graph (plugins : List ManagedPlugin) : DepthRank.Graph String ManagedPlugin where
  nodes := plugins
  key := ManagedPlugin.id
  deps := ManagedPlugin.dependencies
  find := pluginMap plugins
  find_mem := by
    intro id p hp
    exact ⟨List.mem_reverse.mp (List.mem_of_find?_eq_some hp), by simpa using List.find?_some hp⟩
  find_key := by
    intro p hp hnone
    have hne := List.find?_eq_none.mp hnone p (List.mem_reverse.mpr hp)
    exact hne (decide_eq_true rfl)

/-- `dfs`, with the frames that Python has left, the ids of `rec_stack` and the orders of the
plugins that were visited. -/
def dfs (plugins : List ManagedPlugin) :
    ℕ → List String → Ranks String → ManagedPlugin → Except (Failure String) (ℕ × Ranks String) :=
  visit (graph plugins)

/-- The loop over the plugins. -/
def orders (plugins : List ManagedPlugin) (frames : ℕ) : Except (Failure String) (Ranks String) :=
  rankAll (graph plugins) frames plugins fun _ => none

def order (ranks : Ranks String) (p : ManagedPlugin) : ℕ := (ranks p.id).getD 0

/-- `PluginManager._determine_load_order` -/
def determineLoadOrder (plugins : List ManagedPlugin) (frames : ℕ) :
    Except (Failure String) (List ManagedPlugin) :=
  match orders plugins frames with
  | .error e => .error e
  | .ok ranks => .ok (plugins.insertionSort fun p q => order ranks p ≤ order ranks q)

/-! ## The order -/

/-- Wherever the two plugins stand, the first stands before the second. -/
def Before (out : List ManagedPlugin) (p q : ManagedPlugin) : Prop :=
  ∀ i j : ℕ, out[i]? = some p → out[j]? = some q → i < j

variable {plugins out : List ManagedPlugin} {frames : ℕ}

theorem pairwise_sorted (ranks : Ranks String) (plugins : List ManagedPlugin) :
    (plugins.insertionSort fun p q => order ranks p ≤ order ranks q).Pairwise
      fun p q => order ranks p ≤ order ranks q := by
  have : Std.Total fun p q : ManagedPlugin => order ranks p ≤ order ranks q :=
    ⟨fun p q => by omega⟩
  have : IsTrans ManagedPlugin fun p q => order ranks p ≤ order ranks q :=
    ⟨fun p q r hpq hqr => by omega⟩
  exact plugins.pairwise_insertionSort _

theorem before_of_order_lt {ranks : Ranks String} {p q : ManagedPlugin}
    (hlt : order ranks p < order ranks q) :
    Before (plugins.insertionSort fun p q => order ranks p ≤ order ranks q) p q := by
  intro i j hi hj
  obtain ⟨hi', hp⟩ := List.getElem?_eq_some_iff.mp hi
  obtain ⟨hj', hq⟩ := List.getElem?_eq_some_iff.mp hj
  by_contra hle
  cases Nat.lt_or_eq_of_le (Nat.le_of_not_lt hle) with
  | inl hji =>
    have hsorted := List.pairwise_iff_getElem.mp (pairwise_sorted ranks plugins) j i hj' hi' hji
    rw [hp, hq] at hsorted
    omega
  | inr heq =>
    have hpq : p = q := by
      subst heq
      exact Option.some.inj (hi.symm.trans hj)
    rw [hpq] at hlt
    omega

theorem load_order_of_orders {ranks : Ranks String} (hranks : orders plugins frames = .ok ranks) :
    determineLoadOrder plugins frames =
      .ok (plugins.insertionSort fun p q => order ranks p ≤ order ranks q) := by
  unfold determineLoadOrder
  rw [hranks]

theorem load_order_error {e : Failure String} :
    determineLoadOrder plugins frames = .error e ↔ orders plugins frames = .error e := by
  unfold determineLoadOrder
  constructor
  · intro h
    split at h
    · next e' he =>
      rw [he]
      exact congrArg _ (Except.error.inj h)
    · cases h
  · intro h
    rw [h]

theorem orders_ok {ranks : Ranks String} (hranks : orders plugins frames = .ok ranks) :
    Ranked (graph plugins) ranks ∧ ∀ p ∈ plugins, ∃ r, ranks p.id = some r := by
  have hstart : Ranked (graph plugins) fun _ => none := fun k r hk => by cases hk
  have hall := rankAll_ok frames plugins (List.Subset.refl _) hstart hranks
  exact ⟨hall.1, hall.2.2⟩

/-- An order that is found lists the plugins that were detected, and for the id of each of them
all the dependencies of a plugin with that id come before it.  With frames enough for a chain of
all the plugins, an error tells the truth: the id depends on itself, or it has a dependency that
was not detected. -/
theorem load_order_right (plugins : List ManagedPlugin) (frames : ℕ) :
    (∀ out, determineLoadOrder plugins frames = .ok out →
      out.Perm plugins ∧ ∀ p ∈ plugins, ∃ met ∈ plugins, met.id = p.id ∧
        ∀ dep ∈ met.dependencies, (∃ q ∈ plugins, q.id = dep) ∧
          ∀ q ∈ plugins, q.id = dep → Before out q p) ∧
      ∀ e, determineLoadOrder plugins frames = .error e → plugins.length < frames →
        e.True (graph plugins) := by
  constructor
  · intro out hok
    unfold determineLoadOrder at hok
    split at hok
    · cases hok
    · next ranks hranks =>
      obtain rfl := Except.ok.inj hok
      obtain ⟨hranked, hall⟩ := orders_ok hranks
      refine ⟨List.perm_insertionSort _ _, ?_⟩
      intro p hp
      obtain ⟨r, hr⟩ := hall p hp
      obtain ⟨met, hmet, hid, hlower⟩ := hranked _ _ hr
      refine ⟨met, hmet, hid, ?_⟩
      intro dep hdep
      obtain ⟨s, hs, hlt⟩ := hlower dep hdep
      constructor
      · obtain ⟨q, hq, hqid, -⟩ := hranked _ _ hs
        exact ⟨q, hq, hqid⟩
      · intro q hq hqid
        apply before_of_order_lt
        rw [order, order, hqid, hs, hr]
        exact hlt
  · intro e herror hframes
    exact rankAll_error hframes plugins (List.Subset.refl _) (load_order_error.mp herror)

/-! ## When there is an order -/

/-- Whatever an id requires has a lower order, and so has what that requires. -/
theorem lower_of_requires {ranks : Ranks String} (hids : (plugins.map ManagedPlugin.id).Nodup)
    (hranked : Ranked (graph plugins) ranks) {a b : String}
    (h : Relation.TransGen (graph plugins).Requires a b) :
    ∀ r, ranks a = some r → ∃ s, ranks b = some s ∧ s < r := by
  have hone : ∀ {a b}, (graph plugins).Requires a b →
      ∀ r, ranks a = some r → ∃ s, ranks b = some s ∧ s < r := by
    intro a b hrequires r hr
    obtain ⟨p, hp, hpid, hdep⟩ := hrequires
    obtain ⟨met, hmet, hid, hlower⟩ := hranked a r hr
    obtain rfl : met = p := List.inj_on_of_nodup_map hids hmet hp (hid.trans hpid.symm)
    exact hlower b hdep
  induction h with
  | single hab => exact hone hab
  | tail _ hbc ih =>
    intro r hr
    obtain ⟨s, hs, hlt⟩ := ih r hr
    obtain ⟨t, ht, hlt'⟩ := hone hbc s hs
    exact ⟨t, ht, by omega⟩

/-- Plugins with ids of their own have an order if and only if all their dependencies were
detected and no id depends on itself. -/
theorem load_order_iff (hids : (plugins.map ManagedPlugin.id).Nodup)
    (hframes : plugins.length < frames) :
    (∃ out, determineLoadOrder plugins frames = .ok out) ↔
      (∀ p ∈ plugins, ∀ dep ∈ p.dependencies, ∃ q ∈ plugins, q.id = dep) ∧
        ∀ id, ¬Relation.TransGen (graph plugins).Requires id id := by
  constructor
  · intro hok
    obtain ⟨out, hok⟩ := hok
    cases hranks : orders plugins frames with
    | error e =>
      rw [load_order_error.mpr hranks] at hok
      cases hok
    | ok ranks =>
      obtain ⟨hranked, hall⟩ := orders_ok hranks
      constructor
      · intro p hp dep hdep
        obtain ⟨r, hr⟩ := hall p hp
        obtain ⟨s, hs, -⟩ := lower_of_requires hids hranked (.single ⟨p, hp, rfl, hdep⟩) r hr
        obtain ⟨q, hq, hqid, -⟩ := hranked dep s hs
        exact ⟨q, hq, hqid⟩
      · intro id hcycle
        obtain ⟨b, ⟨p, hp, hpid, -⟩, -⟩ := Relation.TransGen.head'_iff.mp hcycle
        obtain ⟨r, hr⟩ := hall p hp
        obtain ⟨s, hs, hlt⟩ := lower_of_requires hids hranked hcycle r (hpid ▸ hr)
        have hp' : p.id = id := hpid
        rw [hp', hs] at hr
        have heq := Option.some.inj hr
        omega
  · intro h
    obtain ⟨hclosed, hacyclic⟩ := h
    cases hranks : orders plugins frames with
    | ok ranks => exact ⟨_, load_order_of_orders hranks⟩
    | error e =>
      have htrue := rankAll_error hframes plugins (List.Subset.refl _) hranks
      cases e with
      | circular k => exact absurd htrue (hacyclic k)
      | missing k dep =>
        obtain ⟨⟨p, hp, -, hdep⟩, hnone⟩ := htrue
        obtain ⟨q, hq, hqid⟩ := hclosed p hp dep hdep
        have hkey : (graph plugins).key q = dep := hqid
        exact absurd (hkey ▸ hnone) ((graph plugins).find_key q hq)
      | recursion => exact htrue.elim

def samplePlugins : List ManagedPlugin :=
  [⟨⟨"shop", ["bank", "chat"]⟩, "plugins.shop"⟩, ⟨⟨"chat", []⟩, "plugins.chat"⟩,
    ⟨⟨"bank", ["chat"]⟩, "plugins.bank"⟩]

/-- The search starts from the shop, and the bank is loaded before it. -/
theorem load_order_iff_sample :
    (determineLoadOrder samplePlugins 1000).toOption.map (List.map ManagedPlugin.id) =
        some ["chat", "bank", "shop"] ∧
      ∀ id, ¬Relation.TransGen (graph samplePlugins).Requires id id :=
  ⟨by decide, ((@load_order_iff samplePlugins 1000 (by decide) (by decide)).mp ⟨_, rfl⟩).2⟩

example : determineLoadOrder [⟨⟨"bank", ["chat"]⟩, "plugins.bank"⟩] 1000 =
    .error (.missing "bank" "chat") := by rfl

end Soms.Plugins

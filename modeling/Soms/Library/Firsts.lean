import Mathlib.Data.Finset.Card
import Mathlib.Data.List.Nodup

/-!
# The first row of each key

A list read from the front keeps of each key the row that comes first.
-/

variable {α κ : Type} [DecidableEq κ]

/-- Keep the row if its key is new. -/
def keepFirst (key : α → κ) (kept : List α) (a : α) : List α :=
  if kept.any fun b => key b == key a then kept else kept ++ [a]

/-- The first row of each key. -/
def firsts (key : α → κ) (rows : List α) : List α := rows.foldl (keepFirst key) []

/-- The number of different keys. -/
def keyCount (key : α → κ) (rows : List α) : Nat := (rows.map key).toFinset.card

variable {key : α → κ} {rows rows' : List α} {a b : α}

@[simp] theorem firsts_nil : firsts key [] = [] := rfl

theorem firsts_concat (rows : List α) (a : α) :
    firsts key (rows ++ [a]) = keepFirst key (firsts key rows) a := by
  simp [firsts]

theorem map_keepFirst (kept : List α) (a : α) :
    (keepFirst key kept a).map key =
      if key a ∈ kept.map key then kept.map key else kept.map key ++ [key a] := by
  unfold keepFirst
  have hany : (kept.any fun b => key b == key a) = true ↔ key a ∈ kept.map key := by
    simp [List.mem_map]
  by_cases hmem : key a ∈ kept.map key
  · rw [if_pos hmem, if_pos (hany.mpr hmem)]
  · rw [if_neg hmem, if_neg (hany.not.mpr hmem), List.map_append, List.map_singleton]

/-- No key is lost. -/
theorem mem_keys_firsts {k : κ} : k ∈ (firsts key rows).map key ↔ k ∈ rows.map key := by
  induction rows using List.reverseRecOn with
  | nil => simp
  | append_singleton rows a ih =>
    rw [firsts_concat, map_keepFirst, List.map_append, List.mem_append]
    split
    · next hmem =>
      refine ⟨fun h => .inl (ih.mp h), ?_⟩
      rintro (hk | hk)
      · exact ih.mpr hk
      · rw [List.mem_singleton.mp hk]
        exact hmem
    · rw [List.mem_append, ih, List.map_singleton]

theorem nodup_firsts : ((firsts key rows).map key).Nodup := by
  induction rows using List.reverseRecOn with
  | nil => exact List.nodup_nil
  | append_singleton rows a ih =>
    rw [firsts_concat, map_keepFirst]
    split
    · exact ih
    · next hmem => exact List.nodup_append.mpr ⟨ih, List.nodup_singleton _, by simpa using hmem⟩

theorem firsts_sublist : (firsts key rows).Sublist rows := by
  induction rows using List.reverseRecOn with
  | nil => exact List.Sublist.slnil
  | append_singleton rows a ih =>
    rw [firsts_concat, keepFirst]
    split
    · exact ih.trans (List.sublist_append_left _ _)
    · exact ih.append (List.Sublist.refl _)

theorem length_firsts : (firsts key rows).length = keyCount key rows := by
  rw [← List.length_map (f := key), ← List.toFinset_card_of_nodup nodup_firsts, keyCount]
  congr 1
  ext k
  rw [List.mem_toFinset, List.mem_toFinset, mem_keys_firsts]

/-- A row that is kept is the first one of its key. -/
theorem firsts_first (ha : a ∈ firsts key rows) :
    ∃ before after, rows = before ++ a :: after ∧ key a ∉ before.map key := by
  induction rows using List.reverseRecOn with
  | nil => simp at ha
  | append_singleton rows b ih =>
    have hcases : a ∈ firsts key rows ∨ a = b ∧ key b ∉ (firsts key rows).map key := by
      rw [firsts_concat, keepFirst] at ha
      split at ha
      · exact .inl ha
      · next hany =>
        rcases List.mem_append.mp ha with ha | ha
        · exact .inl ha
        · exact .inr ⟨List.mem_singleton.mp ha, by simpa [List.mem_map] using hany⟩
    rcases hcases with ha | ⟨rfl, hnew⟩
    · obtain ⟨before, after, rfl, hbefore⟩ := ih ha
      exact ⟨before, after ++ [b], by simp, hbefore⟩
    · exact ⟨rows, [], rfl, fun h => hnew (mem_keys_firsts.mpr h)⟩

/-- The first row of a key stands behind the keys that come before it. -/
theorem firsts_split (hnew : key b ∉ rows.map key) :
    ∃ more, firsts key (rows ++ b :: rows') = firsts key rows ++ b :: more := by
  induction rows' using List.reverseRecOn with
  | nil =>
    refine ⟨[], ?_⟩
    rw [firsts_concat, keepFirst, if_neg]
    rw [← mem_keys_firsts, List.mem_map] at hnew
    simpa using hnew
  | append_singleton rows' c ih =>
    obtain ⟨more, hmore⟩ := ih
    rw [← List.cons_append, ← List.append_assoc, firsts_concat, hmore, keepFirst]
    split
    · exact ⟨more, rfl⟩
    · exact ⟨more ++ [c], by simp⟩

theorem keyCount_le_length : keyCount key rows ≤ rows.length := by
  rw [← length_firsts]
  exact firsts_sublist.length_le

theorem keyCount_mono (h : ∀ k ∈ rows.map key, k ∈ rows'.map key) :
    keyCount key rows ≤ keyCount key rows' :=
  Finset.card_le_card fun k hk => List.mem_toFinset.mpr (h k (List.mem_toFinset.mp hk))

theorem keyCount_append_le : keyCount key (rows ++ rows') ≤ keyCount key rows + rows'.length := by
  unfold keyCount
  rw [List.map_append, List.toFinset_append]
  refine (Finset.card_union_le _ _).trans (Nat.add_le_add_left ?_ _)
  exact (List.toFinset_card_le _).trans (List.length_map _).le

/-- Rows that add as many keys have keys of their own. -/
theorem keyCount_append_eq : keyCount key (rows ++ rows') = keyCount key rows + rows'.length ↔
    (rows'.map key).Nodup ∧ ∀ a ∈ rows', key a ∉ rows.map key := by
  constructor
  · intro h
    unfold keyCount at h
    rw [List.map_append, List.toFinset_append] at h
    have hunion := Finset.card_union_le (rows.map key).toFinset (rows'.map key).toFinset
    have hcard := List.toFinset_card_le (rows'.map key)
    rw [List.length_map] at hcard
    refine ⟨?_, fun a ha hmem => ?_⟩
    · exact Multiset.toFinset_card_eq_card_iff_nodup.mp
        (show (rows'.map key).toFinset.card = (rows'.map key).length by
          rw [List.length_map]
          omega)
    · have hdisjoint : Disjoint (rows.map key).toFinset (rows'.map key).toFinset :=
        Finset.card_union_eq_card_add_card.mp (by omega)
      exact Finset.disjoint_right.mp hdisjoint (List.mem_toFinset.mpr (List.mem_map_of_mem ha))
        (List.mem_toFinset.mpr hmem)
  · rintro ⟨hnodup, hnew⟩
    unfold keyCount
    rw [List.map_append, List.toFinset_append, Finset.card_union_of_disjoint,
      List.toFinset_card_of_nodup hnodup, List.length_map]
    refine Finset.disjoint_right.mpr fun k hk hk' => ?_
    obtain ⟨a, ha, rfl⟩ := List.mem_map.mp (List.mem_toFinset.mp hk)
    exact hnew a ha (List.mem_toFinset.mp hk')

omit [DecidableEq κ] in
/-- Each of the rows has a key that none before it has. -/
theorem fresh_iff : (rows'.map key).Nodup ∧ (∀ a ∈ rows', key a ∉ rows.map key) ↔
    ∀ n, ∀ a ∈ rows'[n]?, key a ∉ (rows ++ rows'.take n).map key := by
  induction rows' generalizing rows with
  | nil => simp
  | cons b rows' ih =>
    have hrest := @ih (rows ++ [b])
    constructor
    · rintro ⟨hnodup, hnew⟩ n a ha
      obtain ⟨hb, hnodup⟩ := List.nodup_cons.mp hnodup
      cases n with
      | zero =>
        obtain rfl := Option.some.inj ha
        simpa using hnew b List.mem_cons_self
      | succ n =>
        rw [List.take_succ_cons, List.append_cons]
        refine hrest.mp ⟨hnodup, fun c hc hmem => ?_⟩ n a ha
        rw [List.map_append, List.mem_append, List.map_singleton, List.mem_singleton] at hmem
        rcases hmem with hmem | hmem
        · exact hnew c (List.mem_cons_of_mem _ hc) hmem
        · exact hb (hmem ▸ List.mem_map_of_mem hc)
    · intro h
      have hb : key b ∉ rows.map key := by simpa using h 0 b rfl
      obtain ⟨hnodup, hnew⟩ := hrest.mpr fun n a ha => by
        have hnext := h (n + 1) a ha
        rwa [List.take_succ_cons, List.append_cons] at hnext
      refine ⟨List.nodup_cons.mpr ⟨fun hmem => ?_, hnodup⟩, fun c hc hmem => ?_⟩
      · obtain ⟨c, hc, hkey⟩ := List.mem_map.mp hmem
        refine hnew c hc ?_
        rw [hkey, List.map_append]
        exact List.mem_append_right _ (List.mem_singleton_self _)
      · rcases List.mem_cons.mp hc with rfl | hc
        · exact hb hmem
        · refine hnew c hc ?_
          rw [List.map_append]
          exact List.mem_append_left _ hmem

theorem keyCount_perm (h : rows.Perm rows') : keyCount key rows = keyCount key rows' :=
  congrArg Finset.card (List.toFinset_eq_of_perm _ _ (h.map key))

theorem keyCount_concat : keyCount key (rows ++ [a]) =
    keyCount key rows + if key a ∈ rows.map key then 0 else 1 := by
  split
  · next hmem =>
    refine Nat.le_antisymm (keyCount_mono fun k hk => ?_) (keyCount_mono fun k hk => ?_)
    · rw [List.map_append, List.mem_append] at hk
      rcases hk with hk | hk
      · exact hk
      · rw [List.mem_singleton.mp hk]
        exact hmem
    · rw [List.map_append]
      exact List.mem_append_left _ hk
  · next hmem => exact keyCount_append_eq.mpr ⟨List.nodup_singleton _, by simpa using hmem⟩

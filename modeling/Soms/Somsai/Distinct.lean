import Mathlib.Algebra.Order.BigOperators.Group.List
import Soms.Library.Representatives
import Soms.Somsai.Pool

/-!
# Distinct beatmaps

`mixed_pool` is a complete matching.  The augmenting search keeps each slot that was assigned
with one beatmap and gives one more to the slot it starts from; where it fails, the beatmaps it
has visited are all that the slots it has reached could use, and they are too few.
-/

namespace Soms.Somsai

namespace Owners

/-- A beatmap has one owner. -/
def Keyed (owners : Owners) : Prop := (owners.map Prod.fst).Nodup

/-- How many beatmaps a slot owns. -/
def count (owners : Owners) (slot : String) : Nat := owners.countP fun entry => entry.2 = slot

variable {owners : Owners} {b b' : Nat} {slot slot' : String}

theorem get_eq_some (h : owners.Keyed) : owners.get b = some slot ↔ (b, slot) ∈ owners := by
  unfold get
  rw [Option.map_eq_some_iff]
  constructor
  · rintro ⟨entry, hfind, rfl⟩
    have hkey : entry.1 = b := by simpa using List.find?_some hfind
    rw [← hkey]
    exact List.mem_of_find?_eq_some hfind
  · intro hmem
    cases hfind : owners.find? fun entry => entry.1 = b with
    | none =>
      have := List.find?_eq_none.mp hfind _ hmem
      simp at this
    | some entry =>
      refine ⟨entry, rfl, ?_⟩
      have hkey : entry.1 = b := by simpa using List.find?_some hfind
      have hsame := List.inj_on_of_nodup_map h (List.mem_of_find?_eq_some hfind) hmem hkey
      rw [hsame]

theorem get_eq_none : owners.get b = none ↔ b ∉ owners.map Prod.fst := by
  unfold get
  rw [Option.map_eq_none_iff, List.find?_eq_none, List.mem_map]
  constructor
  · rintro hnone ⟨entry, hentry, rfl⟩
    simpa using hnone entry hentry
  · intro habsent entry hentry
    have hne : entry.1 ≠ b := fun hkey => habsent ⟨entry, hentry, hkey⟩
    simpa using hne

theorem map_fst_replaced (owners : Owners) (b : Nat) (slot : String) :
    (owners.map fun entry => if entry.1 = b then (b, slot) else entry).map Prod.fst =
      owners.map Prod.fst := by
  rw [List.map_map]
  refine List.map_congr_left fun entry _ => ?_
  dsimp only [Function.comp]
  split
  · next hkey => exact hkey.symm
  · rfl

theorem Keyed.set (h : owners.Keyed) (b : Nat) (slot : String) : (owners.set b slot).Keyed := by
  unfold Keyed Owners.set
  split
  · rw [map_fst_replaced]
    exact h
  · next hnew =>
    have hfresh : b ∉ owners.map Prod.fst := get_eq_none.mp (by simpa using hnew)
    rw [List.map_append]
    exact h.append (List.nodup_singleton b) (by simpa using hfresh)

theorem get_set (h : owners.Keyed) (b : Nat) (slot : String) (b' : Nat) :
    (owners.set b slot).get b' = if b' = b then some slot else owners.get b' := by
  refine Option.ext fun t => ?_
  rw [get_eq_some (h.set b slot)]
  unfold Owners.set
  split
  · next hsome =>
    rw [List.mem_map]
    split
    · next heq =>
      subst heq
      constructor
      · rintro ⟨entry, -, hentry⟩
        split at hentry
        · exact congrArg some (Prod.mk.inj hentry).2
        · next hkey => exact absurd (congrArg Prod.fst hentry) hkey
      · intro ht
        obtain ⟨u, hu⟩ := Option.isSome_iff_exists.mp hsome
        refine ⟨(b', u), (get_eq_some h).mp hu, ?_⟩
        rw [if_pos rfl, Option.some.inj ht]
    · next hne =>
      rw [get_eq_some h]
      constructor
      · rintro ⟨entry, hentry, heq⟩
        split at heq
        · exact absurd (congrArg Prod.fst heq).symm hne
        · exact heq ▸ hentry
      · intro hmem
        exact ⟨(b', t), hmem, if_neg hne⟩
  · next hnew =>
    have hnone : owners.get b = none := by simpa using hnew
    rw [List.mem_append, List.mem_singleton]
    split
    · next heq =>
      subst heq
      have habsent : (b', t) ∉ owners := fun hmem =>
        get_eq_none.mp hnone (List.mem_map_of_mem hmem)
      simp [habsent, eq_comm]
    · next hne =>
      rw [get_eq_some h]
      simp [hne]

theorem count_set_new (h : owners.get b = none) (slot t : String) :
    (owners.set b slot).count t = owners.count t + if t = slot then 1 else 0 := by
  unfold count Owners.set
  rw [if_neg (by simp [h]), List.countP_append, List.countP_singleton]
  simp [eq_comm]

theorem count_replaced (h : owners.Keyed) (hmem : (b, slot') ∈ owners) (slot t : String) :
    count (owners.map fun entry => if entry.1 = b then (b, slot) else entry) t +
      (if t = slot' then 1 else 0) = owners.count t + if t = slot then 1 else 0 := by
  induction owners with
  | nil => simp at hmem
  | cons entry rest ih =>
    obtain ⟨hfresh, hrest⟩ := List.nodup_cons.mp (show ((entry :: rest).map Prod.fst).Nodup from h)
    simp only [count, List.map_cons, List.countP_cons] at ih ⊢
    rcases List.mem_cons.mp hmem with heq | hmem
    · subst heq
      have hsame : rest.map (fun entry => if entry.1 = b then (b, slot) else entry) = rest := by
        refine (List.map_congr_left fun entry hentry => if_neg ?_).trans rest.map_id
        exact fun hkey => hfresh (List.mem_map.mpr ⟨entry, hentry, hkey⟩)
      rw [hsame]
      simp only [if_true, decide_eq_true_eq, eq_comm (a := t)]
      omega
    · have hkey : entry.1 ≠ b := fun hkey => hfresh (hkey ▸ List.mem_map.mpr ⟨_, hmem, rfl⟩)
      have hcount := ih hrest hmem
      simp only [hkey, if_false]
      omega

/-- A beatmap that changes hands. -/
theorem count_set_owned (h : owners.Keyed) (hget : owners.get b = some slot') (slot t : String) :
    (owners.set b slot).count t + (if t = slot' then 1 else 0) =
      owners.count t + if t = slot then 1 else 0 := by
  unfold Owners.set
  rw [if_pos (by simp [hget])]
  exact count_replaced h ((get_eq_some h).mp hget) slot t

end Owners

/-! ## One search -/

section Search

variable {candidates : String → List SomsaiMap} {slot : String} {rows : List SomsaiMap}
  {owners owners' : Owners} {visited visited' : List Nat}

/-- A slot may take the beatmap. -/
def Suits (candidates : String → List SomsaiMap) (slot : String) (b : Nat) : Prop :=
  ∃ row ∈ candidates slot, row.beatmapId = b

/-- The slot owns one beatmap more, each other slot as many as before, and the beatmaps that were
visited stay with their owners. -/
structure Augmented (candidates : String → List SomsaiMap) (slot : String) (visited : List Nat)
    (owners owners' : Owners) : Prop where
  keyed : owners'.Keyed
  same : ∀ b ∈ visited, owners'.get b = owners.get b
  count : ∀ t, owners'.count t = owners.count t + if t = slot then 1 else 0
  suits : ∀ b t, owners'.get b = some t → owners.get b = some t ∨ Suits candidates t b

/-- What was visited is owned, and holds all that the rows and the owners could use. -/
structure Stuck (candidates : String → List SomsaiMap) (rows : List SomsaiMap)
    (visited visited' : List Nat) (owners : Owners) : Prop where
  grows : ∀ b ∈ visited, b ∈ visited'
  rows : ∀ row ∈ rows, row.beatmapId ∈ visited'
  closed : ∀ b ∈ visited', b ∈ visited ∨ ∃ t, owners.get b = some t ∧
    ∀ row ∈ candidates t, row.beatmapId ∈ visited'

/-- What a search from the rows comes to. -/
def SearchEnds (candidates : String → List SomsaiMap) (slot : String) (rows : List SomsaiMap)
    (visited : List Nat) (owners : Owners) (result : Bool × Search) : Prop :=
  match result with
  | (true, search) => Augmented candidates slot visited owners search.owners
  | (false, search) =>
    search.owners = owners ∧ Stuck candidates rows visited search.visited owners

theorem augmented_free (hkeyed : owners.Keyed) {b : Nat} (hfree : owners.get b = none)
    (hnew : b ∉ visited) (hsuits : Suits candidates slot b) :
    Augmented candidates slot visited owners (owners.set b slot) where
  keyed := hkeyed.set b slot
  same b' hb' := by
    have hne : b' ≠ b := fun heq => hnew (heq ▸ hb')
    rw [Owners.get_set hkeyed, if_neg hne]
  count := Owners.count_set_new hfree slot
  suits b' t ht := by
    rw [Owners.get_set hkeyed] at ht
    split at ht
    · next heq =>
      rw [← Option.some.inj ht, heq]
      exact .inr hsuits
    · exact .inl ht

/-- The owner of the beatmap was given another, and the beatmap goes to the slot. -/
theorem Augmented.handOver {owner : String} {b : Nat}
    (h : Augmented candidates owner (b :: visited) owners owners')
    (howner : owners.get b = some owner) (hnew : b ∉ visited) (hsuits : Suits candidates slot b) :
    Augmented candidates slot visited owners (owners'.set b slot) where
  keyed := h.keyed.set b slot
  same b' hb' := by
    have hne : b' ≠ b := fun heq => hnew (heq ▸ hb')
    rw [Owners.get_set h.keyed, if_neg hne]
    exact h.same b' (List.mem_cons_of_mem b hb')
  count t := by
    have hget : owners'.get b = some owner := (h.same b List.mem_cons_self).trans howner
    have hset := Owners.count_set_owned h.keyed hget slot t
    have hcount := h.count t
    omega
  suits b' t ht := by
    rw [Owners.get_set h.keyed] at ht
    split at ht
    · next heq =>
      rw [← Option.some.inj ht, heq]
      exact .inr hsuits
    · exact h.suits b' t ht

theorem Augmented.mono (h : Augmented candidates slot visited' owners owners')
    (hsub : ∀ b ∈ visited, b ∈ visited') : Augmented candidates slot visited owners owners' where
  keyed := h.keyed
  same b hb := h.same b (hsub b hb)
  count := h.count
  suits := h.suits

/-- A row whose beatmap leads nowhere, and then the other rows. -/
theorem Stuck.cons {row : SomsaiMap} {owner : String} {between : List Nat}
    (hfirst : Stuck candidates (candidates owner) (row.beatmapId :: visited) between owners)
    (howner : owners.get row.beatmapId = some owner)
    (hrest : Stuck candidates rows between visited' owners) :
    Stuck candidates (row :: rows) visited visited' owners where
  grows b hb := hrest.grows b (hfirst.grows b (List.mem_cons_of_mem _ hb))
  rows row' hrow' := by
    rcases List.mem_cons.mp hrow' with rfl | hrow'
    · exact hrest.grows _ (hfirst.grows _ List.mem_cons_self)
    · exact hrest.rows row' hrow'
  closed b hb := by
    have hkept : ∀ t, (∀ row ∈ candidates t, row.beatmapId ∈ between) →
        ∀ row ∈ candidates t, row.beatmapId ∈ visited' := fun t ht row hrow =>
      hrest.grows _ (ht row hrow)
    rcases hrest.closed b hb with hb | hb
    · rcases hfirst.closed b hb with hb | ⟨t, ht, hclosed⟩
      · rcases List.mem_cons.mp hb with rfl | hb
        · exact .inr ⟨owner, howner, hkept owner hfirst.rows⟩
        · exact .inl hb
      · exact .inr ⟨t, ht, hkept t hclosed⟩
    · exact .inr hb

/-- The beatmaps that a search can enter, and how many rows a slot has at most. -/
structure Bounds (candidates : String → List SomsaiMap) (slots : Set String) (ids : Finset Nat)
    (most : Nat) : Prop where
  rows : ∀ t ∈ slots, (candidates t).length ≤ most
  ids : ∀ t ∈ slots, ∀ row ∈ candidates t, row.beatmapId ∈ ids

/-- **The search.**  The induction is on the fuel, which the beatmaps not yet visited bound: a row
is stepped over or enters one of them. -/
theorem assign_ends {slots : Set String} {ids : Finset Nat} {most : Nat}
    (hbounds : Bounds candidates slots ids most) (hkeyed : owners.Keyed)
    (hslots : ∀ b t, owners.get b = some t → t ∈ slots) (fuel : Nat) (slot : String)
    (rows : List SomsaiMap) (visited : List Nat) (hslot : slot ∈ slots)
    (hrows : ∀ row ∈ rows, row ∈ candidates slot)
    (hfuel : (ids \ visited.toFinset).card * (most + 1) + rows.length + 1 ≤ fuel) :
    SearchEnds candidates slot rows visited owners
      (assign candidates fuel slot rows ⟨owners, visited⟩) := by
  induction fuel generalizing slot rows visited with
  | zero => omega
  | succ fuel ih =>
    cases rows with
    | nil => exact ⟨rfl, fun b hb => hb, by simp, fun b hb => .inl hb⟩
    | cons row rest =>
      have hrest : ∀ row' ∈ rest, row' ∈ candidates slot := fun row' hrow' =>
        hrows row' (List.mem_cons_of_mem row hrow')
      have hrow : row ∈ candidates slot := hrows row List.mem_cons_self
      rw [List.length_cons] at hfuel
      rw [assign]
      by_cases hseen : row.beatmapId ∈ visited
      · rw [if_pos hseen]
        have hends := ih slot rest visited hslot hrest (by omega)
        unfold SearchEnds at hends ⊢
        split at hends
        · exact hends
        · obtain ⟨howners, hstuck⟩ := hends
          refine ⟨howners, hstuck.grows, fun row' hrow' => ?_, hstuck.closed⟩
          rcases List.mem_cons.mp hrow' with rfl | hrow'
          · exact hstuck.grows _ hseen
          · exact hstuck.rows row' hrow'
      · rw [if_neg hseen]
        dsimp only
        have hsuits : Suits candidates slot row.beatmapId := ⟨row, hrow, rfl⟩
        -- one beatmap fewer is left to visit
        have hentered : row.beatmapId ∈ ids \ visited.toFinset := by
          simp [hbounds.ids slot hslot row hrow, hseen]
        have hleft : (ids \ (row.beatmapId :: visited).toFinset).card + 1 =
            (ids \ visited.toFinset).card := by
          rw [List.toFinset_cons, Finset.sdiff_insert, Finset.card_erase_of_mem hentered]
          exact Nat.succ_pred_eq_of_pos (Finset.card_pos.mpr ⟨_, hentered⟩)
        rw [← hleft, Nat.succ_mul] at hfuel
        cases hget : owners.get row.beatmapId with
        | none => exact augmented_free hkeyed hget hseen hsuits
        | some owner =>
          have howner : owner ∈ slots := hslots _ _ hget
          have hmost := hbounds.rows owner howner
          have hnested := ih owner (candidates owner) (row.beatmapId :: visited) howner
            (fun _ h => h) (by omega)
          cases hresult : assign candidates fuel owner (candidates owner)
              ⟨owners, row.beatmapId :: visited⟩ with
          | mk found search =>
            rw [hresult] at hnested
            dsimp only
            rw [hresult]
            cases found with
            | true => exact hnested.handOver hget hseen hsuits
            | false =>
              obtain ⟨howners, hstuck⟩ := hnested
              obtain ⟨owners', between⟩ := search
              obtain rfl : owners' = owners := howners
              have hfewer : (ids \ between.toFinset).card ≤
                  (ids \ (row.beatmapId :: visited).toFinset).card := by
                refine Finset.card_le_card (Finset.sdiff_subset_sdiff le_rfl fun b hb => ?_)
                exact List.mem_toFinset.mpr (hstuck.grows b (List.mem_toFinset.mp hb))
              have hends := ih slot rest between hslot hrest
                (by have := Nat.mul_le_mul_right (most + 1) hfewer; omega)
              change SearchEnds candidates slot (row :: rest) visited owners'
                (assign candidates fuel slot rest ⟨owners', between⟩)
              cases hfinal : assign candidates fuel slot rest ⟨owners', between⟩ with
              | mk found search =>
                rw [hfinal] at hends
                cases found with
                | true => exact hends.mono fun b hb => hstuck.grows b (List.mem_cons_of_mem _ hb)
                | false => exact ⟨hends.1, hstuck.cons hget hends.2⟩

end Search

/-! ## One search for each slot -/

section Slots

variable {candidates : String → List SomsaiMap} {slots : Set String} {ids : Finset Nat}
  {most : Nat} {done : List String} {owners : Owners}

/-- The slots done so far own one beatmap each, and the others none. -/
structure Owned (candidates : String → List SomsaiMap) (done : List String) (owners : Owners) :
    Prop where
  keyed : owners.Keyed
  count : ∀ t, owners.count t = if t ∈ done then 1 else 0
  suits : ∀ b t, owners.get b = some t → Suits candidates t b

theorem owned_nil (candidates : String → List SomsaiMap) : Owned candidates [] [] where
  keyed := List.nodup_nil
  count t := by simp [Owners.count]
  suits b t h := by simp [Owners.get] at h

theorem Owned.mem_done (h : Owned candidates done owners) {b : Nat} {t : String}
    (hget : owners.get b = some t) : t ∈ done := by
  by_contra hnot
  have hzero : owners.count t = 0 := by rw [h.count, if_neg hnot]
  have := List.countP_eq_zero.mp hzero _ ((Owners.get_eq_some h.keyed).mp hget)
  simp at this

/-- The beatmap of a slot that is done. -/
theorem Owned.find (h : Owned candidates done owners) {t : String} (ht : t ∈ done) :
    ∃ entry, owners.find? (fun entry => entry.2 = t) = some entry ∧
      owners.get entry.1 = some t := by
  cases hfind : owners.find? fun entry => entry.2 = t with
  | none =>
    have hzero : owners.count t = 0 := List.countP_eq_zero.mpr (List.find?_eq_none.mp hfind)
    rw [h.count, if_pos ht] at hzero
    exact absurd hzero one_ne_zero
  | some entry =>
    have hslot : entry.2 = t := by simpa using List.find?_some hfind
    refine ⟨entry, rfl, (Owners.get_eq_some h.keyed).mpr ?_⟩
    rw [← hslot]
    exact List.mem_of_find?_eq_some hfind

/-- A slot owns one beatmap only. -/
theorem Owned.inj (h : Owned candidates done owners) {b b' : Nat} {t : String}
    (hget : owners.get b = some t) (hget' : owners.get b' = some t) : b = b' := by
  have hone : owners.count t = 1 := by rw [h.count, if_pos (h.mem_done hget)]
  rw [Owners.count, List.countP_eq_length_filter] at hone
  obtain ⟨entry, hentry⟩ := List.length_eq_one_iff.mp hone
  have hin : ∀ b, owners.get b = some t → (b, t) = entry := by
    intro b hb
    refine List.mem_singleton.mp (hentry ▸ List.mem_filter.mpr ⟨?_, by simp⟩)
    exact (Owners.get_eq_some h.keyed).mp hb
  exact congrArg Prod.fst ((hin b hget).trans (hin b' hget').symm)

theorem Owned.augmented {slot : String} {owners' : Owners} (h : Owned candidates done owners)
    (hnew : slot ∉ done) (haug : Augmented candidates slot [] owners owners') :
    Owned candidates (slot :: done) owners' where
  keyed := haug.keyed
  count t := by
    rw [haug.count, h.count]
    by_cases ht : t = slot
    · subst ht
      simp [hnew]
    · simp [ht]
  suits b t hget := (haug.suits b t hget).elim (h.suits b t) id

/-- A slot whose search failed leaves no matching at all. -/
theorem Owned.not_representable {slot : String} {visited : List Nat}
    (h : Owned candidates done owners) (hslot : slot ∈ slots) (hdone : ∀ t ∈ done, t ∈ slots)
    (hnew : slot ∉ done)
    (hstuck : Stuck candidates (candidates slot) [] visited owners) :
    ¬ Representable slots (Suits candidates) := by
  have hheld : ∀ b ∈ visited.toFinset, ∃ t, owners.get b = some t ∧
      ∀ row ∈ candidates t, row.beatmapId ∈ visited := by
    intro b hb
    exact (hstuck.closed b (List.mem_toFinset.mp hb)).resolve_left (List.not_mem_nil)
  refine Representable.not_of_stuck visited.toFinset (fun b => (owners.get b).getD slot) hslot
    ?_ ?_ ?_ ?_ ?_
  · intro b hb
    obtain ⟨t, ht, -⟩ := hheld b hb
    rw [ht]
    exact hdone t (h.mem_done ht)
  · intro b hb b' hb' heq
    obtain ⟨t, ht, -⟩ := hheld b hb
    obtain ⟨t', ht', -⟩ := hheld b' hb'
    have heq : t = t' := by simpa [ht, ht'] using heq
    exact h.inj ht (heq ▸ ht')
  · intro b hb
    obtain ⟨t, ht, -⟩ := hheld b hb
    rw [ht]
    exact fun heq => hnew (heq ▸ h.mem_done ht)
  · rintro b ⟨row, hrow, rfl⟩
    exact List.mem_toFinset.mpr (hstuck.rows row hrow)
  · rintro b hb b' ⟨row, hrow, rfl⟩
    obtain ⟨t, ht, hclosed⟩ := hheld b hb
    rw [ht] at hrow
    exact List.mem_toFinset.mpr (hclosed row hrow)

/-- The loop, whatever the order of the slots. -/
theorem assignAll_ends (hbounds : Bounds candidates slots ids most) {fuel : Nat}
    (hfuel : ids.card * (most + 1) + most + 1 ≤ fuel) {rest : List String}
    (h : Owned candidates done owners) (hnodup : (done ++ rest).Nodup)
    (hslots : ∀ t ∈ done ++ rest, t ∈ slots) :
    match assignAll candidates fuel rest owners with
    | some owners' => ∃ all, (∀ t, t ∈ all ↔ t ∈ done ++ rest) ∧ Owned candidates all owners'
    | none => ¬ Representable slots (Suits candidates) := by
  induction rest generalizing done owners with
  | nil => exact ⟨done, by simp, h⟩
  | cons slot rest ih =>
    have hslot : slot ∈ slots := hslots slot (by simp)
    have hdone : ∀ t ∈ done, t ∈ slots := fun t ht => hslots t (by simp [ht])
    have hnew : slot ∉ done := fun hmem =>
      (List.nodup_append.mp hnodup).2.2 slot hmem slot List.mem_cons_self rfl
    have hperm : (slot :: done ++ rest).Perm (done ++ slot :: rest) := List.perm_middle.symm
    have hmost := hbounds.rows slot hslot
    have hsearch := assign_ends hbounds h.keyed (fun b t hget => hdone t (h.mem_done hget)) fuel
      slot (candidates slot) [] hslot (fun _ h => h)
      (by rw [List.toFinset_nil, Finset.sdiff_empty]; omega)
    rw [assignAll]
    cases hresult : assign candidates fuel slot (candidates slot) ⟨owners, []⟩ with
    | mk found search =>
      rw [hresult] at hsearch
      cases found with
      | true =>
        have hrest := ih (h.augmented hnew hsearch) (hperm.nodup_iff.mpr hnodup)
          fun t ht => hslots t (hperm.mem_iff.mp ht)
        dsimp only
        cases hall : assignAll candidates fuel rest search.owners with
        | none => rwa [hall] at hrest
        | some owners' =>
          rw [hall] at hrest
          obtain ⟨all, hmem, hall⟩ := hrest
          exact ⟨all, fun t => (hmem t).trans hperm.mem_iff, hall⟩
      | false => exact h.not_representable hslot hdone hnew hsearch.2

/-- Slots that all own a beatmap are matched. -/
theorem Owned.representable (h : Owned candidates done owners) (hslots : ∀ t ∈ slots, t ∈ done) :
    Representable slots (Suits candidates) := by
  have hentry : ∀ t ∈ slots, ∃ b, owners.get b = some t := by
    intro t ht
    obtain ⟨entry, -, hget⟩ := h.find (hslots t ht)
    exact ⟨entry.1, hget⟩
  choose! f hf using hentry
  refine ⟨f, fun s hs t ht heq => ?_, fun t ht => h.suits _ t (hf t ht)⟩
  exact Option.some.inj ((hf s hs).symm.trans (heq ▸ hf t ht))

end Slots

/-! ## The pool -/

section Mixed

variable {candidates options : String → List SomsaiMap}

theorem suits_perm (hperm : ∀ t, (candidates t).Perm (options t)) (t : String) (b : Nat) :
    Suits candidates t b ↔ Suits options t b := by
  simp only [Suits, (hperm t).mem_iff]

theorem bounds_all (slots : List String) (candidates : String → List SomsaiMap) :
    Bounds candidates {t | t ∈ slots}
      (slots.flatMap fun t => (candidates t).map (·.beatmapId)).toFinset
      (slots.map fun t => (candidates t).length).sum where
  rows t ht := List.single_le_sum (by simp) _ (List.mem_map_of_mem ht)
  ids t ht row hrow :=
    List.mem_toFinset.mpr (List.mem_flatMap.mpr ⟨t, ht, List.mem_map_of_mem hrow⟩)

/-- The rows of the slots are as much fuel as the searches take. -/
theorem assignFuel_enough (slots : List String) (candidates : String → List SomsaiMap) :
    (slots.flatMap fun t => (candidates t).map (·.beatmapId)).toFinset.card *
        ((slots.map fun t => (candidates t).length).sum + 1) +
      (slots.map fun t => (candidates t).length).sum + 1 ≤ assignFuel slots candidates := by
  have hcard := List.toFinset_card_le (slots.flatMap fun t => (candidates t).map (·.beatmapId))
  rw [List.length_flatMap] at hcard
  simp only [List.length_map] at hcard
  have hmul := Nat.mul_le_mul_right ((slots.map fun t => (candidates t).length).sum + 1) hcard
  unfold assignFuel
  rw [Nat.succ_mul]
  omega

/-- The loop assigns every slot when the slots can be matched, and gives up otherwise. -/
theorem assignAll_spec {slots order : List String} (hnodup : slots.Nodup)
    (hperm : order.Perm slots) {fuel : Nat} (hfuel : assignFuel slots candidates ≤ fuel) :
    match assignAll candidates fuel order [] with
    | some owners => ∃ all, (∀ t ∈ slots, t ∈ all) ∧ Owned candidates all owners
    | none => ¬ Representable {t | t ∈ slots} (Suits candidates) := by
  have hends := assignAll_ends (bounds_all slots candidates)
    ((assignFuel_enough slots candidates).trans hfuel) (owned_nil candidates)
    (hperm.nodup_iff.mpr hnodup) fun t ht => hperm.mem_iff.mp ht
  split at hends
  · obtain ⟨all, hall, howned⟩ := hends
    exact ⟨all, fun t ht => (hall t).mpr (hperm.mem_iff.mpr ht), howned⟩
  · exact hends

theorem assignAll_isSome (hoptions : ∀ t, (candidates t).Perm (options t))
    {slots order : List String} (hnodup : slots.Nodup) (hperm : order.Perm slots) {fuel : Nat}
    (hfuel : assignFuel slots candidates ≤ fuel) :
    (assignAll candidates fuel order []).isSome ↔
      Representable {t | t ∈ slots} (Suits options) := by
  rw [← Representable.congr fun t _ => suits_perm hoptions t]
  have hspec := assignAll_spec hnodup hperm hfuel
  split at hspec
  · next owners hall =>
    obtain ⟨all, hall', howned⟩ := hspec
    simp only [hall, Option.isSome_some, true_iff]
    exact howned.representable hall'
  · next hnone => simpa [hnone] using hspec

/-- The row drawn for a slot is one of the beatmap that the slot owns. -/
theorem Owned.selectRow (ctx : Ctx) (k : MatchId) {done : List String} {owners : Owners}
    (h : Owned candidates done owners) (hoptions : ∀ t, (candidates t).Perm (options t))
    {slot : String} (hslot : slot ∈ done) :
    ∃ row ∈ options slot, Soms.Somsai.selectRow ctx k options owners slot = some row ∧
      owners.get row.beatmapId = some slot := by
  obtain ⟨entry, hfind, hget⟩ := h.find hslot
  obtain ⟨row, hrow, hbeatmap⟩ := (suits_perm hoptions slot _).mp (h.suits _ _ hget)
  have hne : (options slot).filter (fun row => row.beatmapId = entry.1) ≠ [] :=
    List.ne_nil_of_mem (List.mem_filter.mpr ⟨hrow, by simpa using hbeatmap⟩)
  have hlt : ctx.draw k slot % ((options slot).filter fun row => row.beatmapId = entry.1).length <
      ((options slot).filter fun row => row.beatmapId = entry.1).length :=
    Nat.mod_lt _ (List.length_pos_iff.mpr hne)
  have hdrawn := List.mem_filter.mp (List.getElem_mem hlt)
  refine ⟨_, hdrawn.1, ?_, ?_⟩
  · unfold Soms.Somsai.selectRow Ctx.choice
    rw [hfind, Option.bind_some, List.getElem?_eq_getElem hlt]
  · rw [of_decide_eq_true hdrawn.2]
    exact hget

theorem mapM_isSome {α β : Type} {f : α → Option β} {P : β → Prop} {l : List α}
    (h : ∀ a ∈ l, ∃ b, f a = some b ∧ P b) : ∃ r, l.mapM f = some r ∧ ∀ b ∈ r, P b := by
  induction l with
  | nil => exact ⟨[], rfl, by simp⟩
  | cons a rest ih =>
    obtain ⟨b, hb, hP⟩ := h a List.mem_cons_self
    obtain ⟨r, hr, hall⟩ := ih fun a ha => h a (List.mem_cons_of_mem _ ha)
    refine ⟨b :: r, ?_, List.forall_mem_cons.mpr ⟨hP, hall⟩⟩
    simp [List.mapM_cons, hb, hr]

/-- The rows of a pool: one for each slot of the rule, in its order, and no beatmap twice. -/
structure Filled (options : String → List SomsaiMap) (rule : RankPoolRule) (pool : Pool)
    (rows : List SomsaiMap) : Prop where
  payload : pool.slots = rows.map slotPayload
  order : rows.map (·.slot) = rule.slots
  stored : ∀ row ∈ rows, row ∈ options row.slot
  distinct : (rows.map (·.beatmapId)).Nodup

variable (ctx : Ctx) (k : MatchId) (warehouse : List SomsaiMap) (rulesetId : RulesetId)
  (variantId : Nat) (rating : ℚ) (rank : Option Rank)

/-- The rows drawn for slots that all own a beatmap. -/
theorem Owned.selectRows {done slots : List String} {owners : Owners} {target : Rank}
    (h : Owned candidates done owners)
    (hoptions : ∀ t, (candidates t).Perm (poolOptions warehouse target rulesetId variantId t))
    (hslots : ∀ t ∈ slots, t ∈ done) (hnodup : slots.Nodup) :
    ∃ rows, slots.mapM (Soms.Somsai.selectRow ctx k
        (poolOptions warehouse target rulesetId variantId) owners) = some rows ∧
      rows.map (·.slot) = slots ∧
      (∀ row ∈ rows, row ∈ poolOptions warehouse target rulesetId variantId row.slot) ∧
      (rows.map (·.beatmapId)).Nodup := by
  obtain ⟨rows, hrows, hall⟩ := mapM_isSome
    (P := fun row => row ∈ poolOptions warehouse target rulesetId variantId row.slot ∧
      owners.get row.beatmapId = some row.slot) fun slot hslot => by
    obtain ⟨row, hmem, hrow, hget⟩ := h.selectRow ctx k hoptions (hslots slot hslot)
    have hname := selectRow_slot hrow
    exact ⟨row, hrow, by rwa [hname], by rwa [hname]⟩
  have hnames := mapM_map_eq SomsaiMap.slot (fun _ _ => selectRow_slot) hrows
  refine ⟨rows, hrows, hnames, fun row hrow => (hall row hrow).1, ?_⟩
  -- the owner tells the slot from the beatmap
  have hslot : (rows.map (·.beatmapId)).map (fun b => (owners.get b).getD "") = slots := by
    rw [← hnames, List.map_map]
    exact List.map_congr_left fun row hrow => by simp [(hall row hrow).2]
  exact List.Nodup.of_map _ (hslot ▸ hnodup)

/-- What comes of the request for a pool. -/
theorem mixedPool_ends :
    match mixedPool ctx k warehouse rulesetId variantId rating rank with
    | .ok pool =>
      Representable {t | t ∈ (ruleFor (poolTarget rating rank)).slots}
          (Suits (poolOptions warehouse (poolTarget rating rank) rulesetId variantId)) ∧
        ∃ rows, Filled (poolOptions warehouse (poolTarget rating rank) rulesetId variantId)
          (ruleFor (poolTarget rating rank)) pool rows
    | .error e => (∃ message, e = reject message) ∧
      ¬ Representable {t | t ∈ (ruleFor (poolTarget rating rank)).slots}
          (Suits (poolOptions warehouse (poolTarget rating rank) rulesetId variantId)) := by
  obtain ⟨target, htarget⟩ : ∃ target, target = poolTarget rating rank := ⟨_, rfl⟩
  obtain ⟨options, hoptions⟩ :
    ∃ options, options = poolOptions warehouse target rulesetId variantId := ⟨_, rfl⟩
  have hnodup := ruleFor_slots_nodup target
  have hperm : ∀ t, (ctx.shuffle k t (options t)).Perm (options t) := fun t =>
    ctx.shuffle_perm k t (options t)
  unfold mixedPool
  dsimp only
  rw [← htarget, ← hoptions]
  by_cases hmissing : ((ruleFor target).slots.filter fun slot => (options slot).isEmpty) ≠ []
  · rw [if_pos hmissing]
    refine ⟨⟨_, rfl⟩, ?_⟩
    rintro ⟨f, -, hf⟩
    obtain ⟨slot, hslot⟩ := List.exists_mem_of_ne_nil _ hmissing
    obtain ⟨hslot, hempty⟩ := List.mem_filter.mp hslot
    obtain ⟨row, hrow, -⟩ := hf slot hslot
    rw [List.isEmpty_iff.mp hempty] at hrow
    exact List.not_mem_nil hrow
  · rw [if_neg hmissing]
    obtain ⟨order, horder⟩ : ∃ order, order = (ruleFor target).slots.insertionSort fun a b =>
      (ctx.shuffle k a (options a)).length ≤ (ctx.shuffle k b (options b)).length := ⟨_, rfl⟩
    have hsorted : order.Perm (ruleFor target).slots := horder ▸ List.perm_insertionSort _ _
    have hspec := @assignAll_spec (fun slot => ctx.shuffle k slot (options slot)) _ _ hnodup
      hsorted _ le_rfl
    rw [← horder]
    cases hall : assignAll (fun slot => ctx.shuffle k slot (options slot))
        (assignFuel (ruleFor target).slots fun slot => ctx.shuffle k slot (options slot))
        order [] with
    | none =>
      rw [hall, Representable.congr fun t _ => suits_perm hperm t] at hspec
      exact ⟨⟨_, rfl⟩, hspec⟩
    | some owners =>
      rw [hall] at hspec
      obtain ⟨all, hslots, howned⟩ := hspec
      subst hoptions
      obtain ⟨rows, hrows, hnames, hstored, hdistinct⟩ :=
        howned.selectRows ctx k warehouse rulesetId variantId hperm hslots hnodup
      dsimp only
      rw [hrows]
      exact ⟨(Representable.congr fun t _ => suits_perm hperm t).mp (howned.representable hslots),
        rows, rfl, hnames, hstored, hdistinct⟩

/-- A pool that cannot be built is refused with a reason. -/
theorem mixedPool_error {e : Failure}
    (h : mixedPool ctx k warehouse rulesetId variantId rating rank = .error e) :
    ∃ message, e = reject message := by
  have hends := mixedPool_ends ctx k warehouse rulesetId variantId rating rank
  rw [h] at hends
  exact hends.1

/-- **The pool is a complete matching.**  It is built if and only if the slots of the rule admit
distinct beatmaps, whatever the shuffle and whatever the order in which the slots are served; and
it has one stored row for each slot of the rule. -/
theorem mixedPool_complete :
    ((∃ pool, mixedPool ctx k warehouse rulesetId variantId rating rank = .ok pool) ↔
      Representable {t | t ∈ (ruleFor (poolTarget rating rank)).slots}
        (Suits (poolOptions warehouse (poolTarget rating rank) rulesetId variantId))) ∧
    (∀ candidates : String → List SomsaiMap,
      (∀ t, (candidates t).Perm
        (poolOptions warehouse (poolTarget rating rank) rulesetId variantId t)) →
      ∀ order, order.Perm (ruleFor (poolTarget rating rank)).slots →
      ∀ fuel, assignFuel (ruleFor (poolTarget rating rank)).slots candidates ≤ fuel →
        ((assignAll candidates fuel order []).isSome ↔
          Representable {t | t ∈ (ruleFor (poolTarget rating rank)).slots}
            (Suits (poolOptions warehouse (poolTarget rating rank) rulesetId variantId)))) ∧
    ∀ pool, mixedPool ctx k warehouse rulesetId variantId rating rank = .ok pool →
      ∃ rows : List SomsaiMap, pool.slots = rows.map slotPayload ∧
        rows.map (·.slot) = (ruleFor (poolTarget rating rank)).slots ∧
        (∀ row ∈ rows, row ∈ warehouse ∧ row.rulesetId = rulesetId ∧ row.variantId = variantId ∧
          poolTarget rating rank ∈ row.eligibleRanks) ∧
        (rows.map (·.beatmapId)).Nodup := by
  have hends := mixedPool_ends ctx k warehouse rulesetId variantId rating rank
  refine ⟨⟨?_, ?_⟩, ?_, ?_⟩
  · rintro ⟨pool, hpool⟩
    rw [hpool] at hends
    exact hends.1
  · intro hmatch
    cases hpool : mixedPool ctx k warehouse rulesetId variantId rating rank with
    | ok pool => exact ⟨pool, rfl⟩
    | error e =>
      rw [hpool] at hends
      exact absurd hmatch hends.2
  · intro candidates hperm order horder fuel hfuel
    exact assignAll_isSome hperm (ruleFor_slots_nodup _) horder hfuel
  · intro pool hpool
    rw [hpool] at hends
    obtain ⟨-, rows, hfilled⟩ := hends
    refine ⟨rows, hfilled.payload, hfilled.order, fun row hrow => ?_, hfilled.distinct⟩
    have hmem := hfilled.stored row hrow
    simp only [poolOptions, List.mem_filter, decide_eq_true_eq] at hmem
    exact ⟨hmem.1, hmem.2.2⟩

end Mixed

end Soms.Somsai

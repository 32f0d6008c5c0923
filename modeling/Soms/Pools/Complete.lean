import Soms.Pools.Offers

/-!
# When an import is complete

Slots, skipped maps and offers agree for every payload. The tiebreak does not: only the first map
offered for it is ever checked, and the ones behind it are called superfluous even where it fails.
-/

namespace Soms.Pools

/-- The groups that the loop of `collector_preview` reads. -/
def selectedGroups (strings : Strings) (data : List (String × Json)) (provenance : Provenance)
    (request : ImportRequest) : List Json :=
  match readSource strings data provenance request with
  | .ok source => source.groups.getD []
  | .error _ => []

/-- The preview of an import is complete for the groups it reads. -/
structure Complete (strings : Strings) (groups : List Json) (preview : Preview) : Prop where
  ids : (preview.slots.map SlotSpec.id).Nodup
  beatmaps : (preview.slots.map SlotSpec.beatmapId).Nodup
  bound : preview.slots.length ≤ 64
  /-- Every listed map is one of the slots or skipped, and so is every unreadable group. -/
  accounted : ∃ kept : List Offer, kept.Sublist (offers strings groups) ∧
    kept.map (Offer.slot strings preview.provenance.sourceUrl) = preview.slots.map some ∧
    kept.length + preview.skipped.getD 0 =
      (groups.flatMap listedIn).length + groups.countP (unreadable strings)
  tiebreak : (∃ slot ∈ preview.slots, slot.id = Category.tb.name) ↔
    ∃ offer ∈ offers strings groups, offer.category = .tb ∧
      (offer.slot strings preview.provenance.sourceUrl).isSome

/-- The first map offered for the tiebreak is valid, and no valid one before it has its beatmap. -/
def FirstTiebreak (strings : Strings) (sourceUrl : Text) (offers : List Offer) : Prop :=
  ∃ before first after slot, offers = before ++ first :: after ∧ first.category = .tb ∧
    (∀ offer ∈ before, offer.category ≠ .tb) ∧ first.slot strings sourceUrl = some slot ∧
    ∀ offer ∈ before, ∀ other, offer.slot strings sourceUrl = some other →
      other.beatmapId ≠ slot.beatmapId

/-- No map offered for the tiebreak is valid. -/
def NoTiebreak (strings : Strings) (sourceUrl : Text) (offers : List Offer) : Prop :=
  ∀ offer ∈ offers, offer.category = .tb → offer.slot strings sourceUrl = none

section Tiebreak

variable {strings : Strings} {sourceUrl : Text} {offers : List Offer} {offer : Offer}
  {slot : SlotSpec}

theorem label_tb (n : Nat) : label .tb n = Category.tb.name := rfl

theorem tb_of_label {category : Category} {n : Nat} (h : label category n = Category.tb.name) :
    category = .tb := (label_eq (h.trans (label_tb n).symm)).1

theorem FirstTiebreak.exists_slot (hnumbered : Numbered offers)
    (h : FirstTiebreak strings sourceUrl offers) :
    ∃ slot ∈ firsts SlotSpec.beatmapId (candidates strings sourceUrl offers),
      slot.id = Category.tb.name := by
  obtain ⟨before, first, after, slot, rfl, htb, hbefore, hslot, hnew⟩ := h
  have hnone : offersOf before first.category = 0 := by
    rw [offersOf, List.countP_eq_zero]
    intro offer hoffer
    simpa [htb] using hbefore offer hoffer
  have hextra : first.extra = false := by
    rw [Offer.extra, hnumbered before first after rfl, hnone]
    simp
  have hfresh : slot.beatmapId ∉
      (candidates strings sourceUrl before).map SlotSpec.beatmapId := by
    rw [List.mem_map]
    rintro ⟨other, hother, hbeatmap⟩
    obtain ⟨offer, hoffer, _, hvalid⟩ := mem_candidates.mp hother
    exact hnew offer hoffer other hvalid hbeatmap
  obtain ⟨more, hmore⟩ := @firsts_split _ _ _ _ _ (candidates strings sourceUrl after) _ hfresh
  refine ⟨slot, ?_, ?_⟩
  · rw [candidates_append, candidates_cons hextra hslot, hmore]
    exact List.mem_append_right _ List.mem_cons_self
  · rw [Offer.slot_id hslot, htb, label_tb]

theorem FirstTiebreak.of_slot (hnumbered : Numbered offers)
    (hslot : slot ∈ firsts SlotSpec.beatmapId (candidates strings sourceUrl offers))
    (hid : slot.id = Category.tb.name) : FirstTiebreak strings sourceUrl offers := by
  obtain ⟨offer, hoffer, hextra, hvalid⟩ := mem_candidates.mp (firsts_sublist.subset hslot)
  have htb : offer.category = .tb := tb_of_label ((Offer.slot_id hvalid).symm.trans hid)
  obtain ⟨before, after, rfl⟩ := List.append_of_mem hoffer
  have hbefore : ∀ earlier ∈ before, earlier.category ≠ .tb := by
    intro earlier hearlier hcategory
    have hlt := (List.pairwise_append.mp hnumbered.increasing).2.2 earlier hearlier offer
      List.mem_cons_self (hcategory.trans htb.symm)
    have hpos := hnumbered.pos (List.mem_append_left _ hearlier)
    have hnumber : ¬(offer.category = .tb ∧ 1 < offer.number) := by
      simpa [Offer.extra] using hextra
    exact hnumber ⟨htb, by omega⟩
  have hnodup : (candidates strings sourceUrl (before ++ offer :: after)).Nodup :=
    List.Nodup.of_map _ hnumbered.labels
  obtain ⟨earlier, later, hsplit, hfirst⟩ := firsts_first hslot
  rw [candidates_append, candidates_cons hextra hvalid] at hsplit hnodup
  have hsame : candidates strings sourceUrl before = earlier := by
    obtain ⟨-, hrest, hdisjoint⟩ := List.nodup_append.mp hnodup
    have hsides := (List.append_cons_inj_of_notMem ?_ ?_).mp hsplit
    · exact hsides.1
    · exact fun hmem => hdisjoint slot hmem slot List.mem_cons_self rfl
    · exact (List.nodup_cons.mp hrest).1
  refine ⟨before, offer, after, slot, rfl, htb, hbefore, hvalid, ?_⟩
  intro other hother old hold hbeatmap
  apply hfirst
  rw [← hsame, List.mem_map]
  refine ⟨old, mem_candidates.mpr ⟨other, hother, ?_, hold⟩, hbeatmap⟩
  simp [Offer.extra, hbefore other hother]

/-- The slots hold a tiebreak just when the first map offered for it is one. -/
theorem exists_tiebreak_iff (hnumbered : Numbered offers) :
    (∃ slot ∈ firsts SlotSpec.beatmapId (candidates strings sourceUrl offers),
      slot.id = Category.tb.name) ↔ FirstTiebreak strings sourceUrl offers := by
  constructor
  · rintro ⟨slot, hslot, hid⟩
    exact .of_slot hnumbered hslot hid
  · exact FirstTiebreak.exists_slot hnumbered

theorem tiebreak_iff (hnumbered : Numbered offers) :
    ((∃ slot ∈ firsts SlotSpec.beatmapId (candidates strings sourceUrl offers),
        slot.id = Category.tb.name) ↔
      ∃ offer ∈ offers, offer.category = .tb ∧ (offer.slot strings sourceUrl).isSome) ↔
    NoTiebreak strings sourceUrl offers ∨ FirstTiebreak strings sourceUrl offers := by
  rw [exists_tiebreak_iff hnumbered]
  have hnone : (¬∃ offer ∈ offers, offer.category = .tb ∧ (offer.slot strings sourceUrl).isSome) ↔
      NoTiebreak strings sourceUrl offers := by
    simp [NoTiebreak]
  have hfirst : FirstTiebreak strings sourceUrl offers →
      ∃ offer ∈ offers, offer.category = .tb ∧ (offer.slot strings sourceUrl).isSome := by
    rintro ⟨before, first, after, slot, rfl, htb, -, hslot, -⟩
    exact ⟨first, by simp, htb, by simp [hslot]⟩
  rw [← hnone]
  constructor
  · intro h
    by_cases hvalid : ∃ offer ∈ offers, offer.category = .tb ∧
        (offer.slot strings sourceUrl).isSome
    · exact .inr (h.mpr hvalid)
    · exact .inl hvalid
  · rintro (hinvalid | h)
    · exact ⟨fun h => absurd (hfirst h) hinvalid, fun hvalid => absurd hvalid hinvalid⟩
    · exact ⟨hfirst, fun _ => h⟩

end Tiebreak

/-- A sublist of what a partial function yields is what it yields on a sublist. -/
theorem exists_kept {α β : Type} {f : α → Option β} {l : List α} {l' : List β}
    (h : l'.Sublist (l.filterMap f)) :
    ∃ kept : List α, kept.Sublist l ∧ kept.map f = l'.map some := by
  obtain ⟨chosen, hchosen, rfl⟩ := List.sublist_filterMap_iff.mp h
  refine ⟨chosen.filter fun a => (f a).isSome, List.filter_sublist.trans hchosen, ?_⟩
  clear h hchosen
  induction chosen with
  | nil => rfl
  | cons a chosen ih =>
    cases hfa : f a with
    | none => simpa [hfa] using ih
    | some b => simpa [hfa] using ih

theorem sum_weight (strings : Strings) (groups : List Json) :
    (groups.map (weight strings)).sum =
      (groups.flatMap listedIn).length + groups.countP (unreadable strings) := by
  induction groups with
  | nil => rfl
  | cons group groups ih =>
    rw [List.map_cons, List.sum_cons, ih, List.flatMap_cons, List.length_append, List.countP_cons,
      weight]
    omega

variable {strings : Strings} {data : List (String × Json)} {provenance : Provenance}
  {request : ImportRequest} {preview : Preview}

/-- A preview is what the loop makes of the selected groups. -/
theorem collectorPreview_run (h : collectorPreview strings data provenance request = .ok preview) :
    ∃ warnings, ∃ pass, pass = Pass.run strings preview.provenance.sourceUrl warnings
        (selectedGroups strings data provenance request) ∧
      preview.slots = pass.slots ∧ preview.skipped.getD 0 = pass.skipped ∧
      preview.slots.length ≤ 64 := by
  unfold collectorPreview at h
  unfold selectedGroups
  cases hsource : readSource strings data provenance request with
  | error failure =>
    rw [hsource] at h
    cases h
  | ok source =>
    rw [hsource] at h
    dsimp only [bind, Except.bind] at h ⊢
    cases hgroups : source.groups with
    | none =>
      rw [hgroups] at h
      cases h
      exact ⟨[], _, rfl, rfl, rfl, Nat.zero_le _⟩
    | some groups =>
      rw [hgroups] at h
      dsimp only at h
      split at h
      · cases h
      · next hbound =>
        cases h
        exact ⟨source.warnings, _, rfl, rfl, rfl, Nat.le_of_not_lt hbound⟩

/-- An import is complete just when no map offered for the tiebreak is valid, or the first one is
and comes with a beatmap of its own. -/
theorem complete_iff (h : collectorPreview strings data provenance request = .ok preview) :
    Complete strings (selectedGroups strings data provenance request) preview ↔
      NoTiebreak strings preview.provenance.sourceUrl
          (offers strings (selectedGroups strings data provenance request)) ∨
        FirstTiebreak strings preview.provenance.sourceUrl
          (offers strings (selectedGroups strings data provenance request)) := by
  obtain ⟨warnings, pass, hpass, hslots, hskipped, hbound⟩ := collectorPreview_run h
  have haccounts := accounts_run strings preview.provenance.sourceUrl warnings
    (selectedGroups strings data provenance request)
  rw [← hpass] at haccounts
  have hfirsts := hslots.trans haccounts.slots
  rw [← tiebreak_iff haccounts.numbered, ← hfirsts]
  refine ⟨Complete.tiebreak, fun htiebreak => ?_⟩
  have hkept : preview.slots.Sublist _ := hfirsts ▸ firsts_sublist
  obtain ⟨kept, hsublist, hmap⟩ := exists_kept hkept
  exact {
    ids := haccounts.numbered.labels.sublist (hkept.map _)
    beatmaps := hfirsts ▸ nodup_firsts
    bound := hbound
    accounted := by
      refine ⟨kept, hsublist.trans List.filter_sublist, hmap, ?_⟩
      have hlength : kept.length = preview.slots.length := by
        simpa using congrArg List.length hmap
      rw [hlength, hskipped, hslots, ← sum_weight]
      exact haccounts.skipped
    tiebreak := htiebreak }

def tiebreakRequest : ImportRequest := { round := none, category := .tb }

def collectionProvenance : Provenance :=
  { sourceKind := .collection, sourceUrl := ['u'], sourceRound := none }

def collectionOf (maps : List Json) : List (String × Json) :=
  [("beatmapsets", .arr [.obj [("beatmaps", .arr maps)]])]

def mapOf (id : Int) : Json :=
  .obj [("id", .int id), ("checksum", .str (List.replicate 32 'a'))]

def onePreview : Preview :=
  { provenance := collectionProvenance, rounds := [],
    slots := [⟨['T', 'B'], 7, some (List.replicate 32 'a'), some ['u']⟩], warnings := [],
    skipped := some 0, name := .str [] }

theorem complete_one : Complete plainStrings
    (selectedGroups plainStrings (collectionOf [mapOf 7]) collectionProvenance tiebreakRequest)
    onePreview := by
  have hpreview : collectorPreview plainStrings (collectionOf [mapOf 7]) collectionProvenance
      tiebreakRequest = .ok onePreview := rfl
  apply (complete_iff hpreview).mpr
  exact .inr ⟨[], ⟨.tb, 1, mapOf 7⟩, [], _, rfl, rfl, by simp, rfl, by simp⟩

/-- A map with no positive id is offered for the tiebreak, then one that is valid. -/
theorem not_complete_second : ∃ preview,
    collectorPreview plainStrings (collectionOf [mapOf 0, mapOf 7]) collectionProvenance
      tiebreakRequest = .ok preview ∧
    ¬Complete plainStrings (selectedGroups plainStrings (collectionOf [mapOf 0, mapOf 7])
      collectionProvenance tiebreakRequest) preview := by
  refine ⟨_, rfl, fun h => ?_⟩
  obtain ⟨slot, hslot, -⟩ := h.tiebreak.mpr
    ⟨⟨.tb, 2, mapOf 7⟩, List.Mem.tail _ (List.Mem.head _), rfl, rfl⟩
  cases hslot

end Soms.Pools

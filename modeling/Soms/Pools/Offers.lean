import Mathlib
import Soms.Pools.Collector

/-!
# What a payload offers, and what becomes of it

The maps of the supported groups, numbered within their category, are the offers of a payload.
The loop of `collector_preview` is followed offer by offer: its slots are the first valid offer
of each beatmap, and what is no slot is counted.
-/

namespace Soms.Pools

/-- A map with the category and the number it is offered under. -/
structure Offer where
  category : Category
  number : Nat
  beatmap : Json

/-- The slot that an offer asks for, none where it is not valid. -/
def Offer.slot (strings : Strings) (sourceUrl : Text) (offer : Offer) : Option SlotSpec :=
  Pass.slotOf strings sourceUrl offer.category offer.number offer.beatmap

/-- A second tiebreak is not even looked at. -/
def Offer.extra (offer : Offer) : Bool := offer.category = .tb ∧ 1 < offer.number

def offersOf (offers : List Offer) (category : Category) : Nat :=
  offers.countP fun offer => offer.category = category

def nextOffer (offers : List Offer) (category : Category) (beatmap : Json) : Offer :=
  ⟨category, offersOf offers category + 1, beatmap⟩

def addOffer (offers : List Offer) (category : Category) (beatmap : Json) : List Offer :=
  offers ++ [nextOffer offers category beatmap]

/-- The maps that a group lists. -/
def listedIn : Json → List Json
  | .obj entries =>
    match Json.getD entries "maps" (.arr []) with
    | .arr maps => maps
    | _ => []
  | _ => []

/-- The category of a group, none where it is not supported. -/
def categoryOf (strings : Strings) : Json → Option Category
  | .obj entries =>
    Category.ofName (strings.upper (strings.str (Json.getD entries "mod" (.str []))))
  | _ => none

def addOffers (strings : Strings) (offers : List Offer) (group : Json) : List Offer :=
  match categoryOf strings group with
  | some category => (listedIn group).foldl (addOffer · category) offers
  | none => offers

/-- The maps that are offered for a slot. -/
def offers (strings : Strings) (groups : List Json) : List Offer :=
  groups.foldl (addOffers strings) []

/-- A group without a readable map: it counts as one that is skipped. -/
def unreadable (strings : Strings) : Json → Bool
  | .obj entries =>
    match Json.getD entries "maps" (.arr []) with
    | .arr maps => maps.isEmpty && (categoryOf strings (.obj entries)).isNone
    | _ => true
  | _ => true

/-- The slots that are looked for a place, in turn. -/
def candidates (strings : Strings) (sourceUrl : Text) (offers : List Offer) : List SlotSpec :=
  (offers.filter fun offer => !offer.extra).filterMap (Offer.slot strings sourceUrl)

section Numbers

variable {offers : List Offer} {offer : Offer} {category : Category} {beatmap : Json}

/-- The offers of a category are numbered in turn. -/
def Numbered (offers : List Offer) : Prop :=
  ∀ before offer after, offers = before ++ offer :: after →
    offer.number = offersOf before offer.category + 1

theorem offersOf_addOffer (other : Category) :
    offersOf (addOffer offers category beatmap) other =
      offersOf offers other + if category = other then 1 else 0 := by
  rw [addOffer, offersOf, List.countP_append]
  simp [offersOf, nextOffer, List.countP_cons]

theorem Numbered.addOffer (h : Numbered offers) : Numbered (addOffer offers category beatmap) := by
  intro before offer after hsplit
  rw [Pools.addOffer] at hsplit
  cases after using List.reverseRecOn with
  | nil =>
    obtain ⟨rfl, hoffer⟩ := List.append_inj' hsplit rfl
    rw [← List.singleton_inj.mp hoffer]
    rfl
  | append_singleton after last =>
    rw [← List.cons_append, ← List.append_assoc] at hsplit
    exact h before offer after (List.append_inj' hsplit rfl).1

theorem Numbered.le (h : Numbered offers) (hoffer : offer ∈ offers) :
    offer.number ≤ offersOf offers offer.category := by
  obtain ⟨before, after, rfl⟩ := List.append_of_mem hoffer
  rw [h before offer after rfl, offersOf, offersOf, List.countP_append,
    List.countP_cons_of_pos (by simp)]
  omega

theorem Numbered.pos (h : Numbered offers) (hoffer : offer ∈ offers) : 0 < offer.number := by
  obtain ⟨before, after, rfl⟩ := List.append_of_mem hoffer
  rw [h before offer after rfl]
  omega

theorem Numbered.increasing (h : Numbered offers) :
    offers.Pairwise fun a b => a.category = b.category → a.number < b.number := by
  induction offers using List.reverseRecOn with
  | nil => exact List.Pairwise.nil
  | append_singleton offers last ih =>
    have hinit : Numbered offers := by
      intro before offer after hsplit
      apply h before offer (after ++ [last])
      rw [hsplit, List.append_assoc, List.cons_append]
    rw [List.pairwise_append]
    refine ⟨ih hinit, List.pairwise_singleton _ _, ?_⟩
    intro a ha b hb hcategory
    obtain rfl := List.mem_singleton.mp hb
    have hle := hinit.le ha
    have hlast := h offers b [] rfl
    rw [hcategory] at hle
    omega

end Numbers

section Pass

variable {strings : Strings} {sourceUrl : Text} {warnings : List Text}

/-- The loop has read the offers, and accounts for `total` maps and groups. -/
structure Accounts (strings : Strings) (sourceUrl : Text) (offers : List Offer) (total : Nat)
    (pass : Pass) : Prop where
  numbered : Numbered offers
  counts : ∀ category, pass.counts category = offersOf offers category
  slots : pass.slots = firsts SlotSpec.beatmapId (candidates strings sourceUrl offers)
  seen : pass.seenBeatmaps = pass.slots.map SlotSpec.beatmapId
  skipped : pass.slots.length + pass.skipped = total

variable {offers : List Offer} {total : Nat} {pass : Pass} {category : Category} {beatmap : Json}

theorem candidates_addOffer (strings : Strings) (sourceUrl : Text) (offers : List Offer)
    (category : Category) (beatmap : Json) :
    candidates strings sourceUrl (addOffer offers category beatmap) =
    candidates strings sourceUrl offers ++
      if (nextOffer offers category beatmap).extra then [] else
        ((nextOffer offers category beatmap).slot strings sourceUrl).toList := by
  rw [candidates, addOffer, List.filter_append, List.filterMap_append]
  congr 1
  cases hextra : (nextOffer offers category beatmap).extra with
  | true => simp [hextra]
  | false =>
    rw [List.filter_cons_of_pos (by simp [hextra]), List.filter_nil]
    cases hslot : (nextOffer offers category beatmap).slot strings sourceUrl with
    | none => simp [hslot]
    | some slot => simp [hslot]

theorem warnChecksum_eq (strings : Strings) (beatmap : Json) (pass : Pass) (label : Text) :
    ∃ warnings, pass.warnChecksum strings label beatmap = { pass with warnings } := by
  unfold Pass.warnChecksum
  split
  · split
    · exact ⟨_, rfl⟩
    · exact ⟨_, rfl⟩
  · exact ⟨_, rfl⟩

theorem Accounts.countsNext (h : Accounts strings sourceUrl offers total pass) (other : Category) :
    Function.update pass.counts category (pass.counts category + 1) other =
      offersOf (addOffer offers category beatmap) other := by
  rw [offersOf_addOffer, ← h.counts other]
  by_cases hother : other = category
  · subst hother
    simp
  · simp [Function.update_of_ne hother, Ne.symm hother]

/-- A map that gets no slot is counted. -/
theorem Accounts.skip (h : Accounts strings sourceUrl offers total pass) {warnings : List Text}
    (hslots : firsts SlotSpec.beatmapId
        (candidates strings sourceUrl (addOffer offers category beatmap)) = pass.slots) :
    Accounts strings sourceUrl (addOffer offers category beatmap) (total + 1)
      { pass with
        counts := Function.update pass.counts category (pass.counts category + 1)
        skipped := pass.skipped + 1
        warnings } where
  numbered := h.numbered.addOffer
  counts := h.countsNext
  slots := hslots.symm
  seen := h.seen
  skipped := by
    have hskipped := h.skipped
    show pass.slots.length + (pass.skipped + 1) = total + 1
    omega

theorem Accounts.nextOffer_slot (h : Accounts strings sourceUrl offers total pass) :
    Pass.slotOf strings sourceUrl category (pass.counts category + 1) beatmap =
      (nextOffer offers category beatmap).slot strings sourceUrl := by
  rw [h.counts]
  rfl

theorem Accounts.nextOffer_extra (h : Accounts strings sourceUrl offers total pass) :
    (nextOffer offers category beatmap).extra = true ↔
      category = .tb ∧ 1 < pass.counts category + 1 := by
  rw [h.counts, Offer.extra, decide_eq_true_eq]
  exact Iff.rfl

/-- A map of a supported category takes the next number, and a slot if it is valid and new. -/
theorem Accounts.addMap (h : Accounts strings sourceUrl offers total pass) (category : Category)
    (beatmap : Json) :
    Accounts strings sourceUrl (addOffer offers category beatmap) (total + 1)
      (pass.addMap strings sourceUrl category beatmap) := by
  have hcandidates := candidates_addOffer strings sourceUrl offers category beatmap
  unfold Pass.addMap
  by_cases hextra : category = .tb ∧ 1 < pass.counts category + 1
  · rw [if_pos (h.nextOffer_extra.mpr hextra), List.append_nil] at hcandidates
    simp only [if_pos hextra]
    exact h.skip (by rw [hcandidates, h.slots])
  · rw [if_neg (h.nextOffer_extra.not.mpr hextra), ← h.nextOffer_slot] at hcandidates
    simp only [if_neg hextra]
    obtain ⟨warnings, hwarnings⟩ := warnChecksum_eq strings beatmap
      { pass with counts := Function.update pass.counts category (pass.counts category + 1) }
      (label category (pass.counts category + 1))
    rw [hwarnings]
    cases hslot : Pass.slotOf strings sourceUrl category (pass.counts category + 1) beatmap with
    | none =>
      rw [hslot, Option.toList_none, List.append_nil] at hcandidates
      exact h.skip (by rw [hcandidates, h.slots])
    | some slot =>
      rw [hslot, Option.toList_some] at hcandidates
      have hfirsts := @firsts_concat _ _ _ SlotSpec.beatmapId
        (candidates strings sourceUrl offers) slot
      rw [← hcandidates, ← h.slots, keepFirst] at hfirsts
      have hseen : slot.beatmapId ∈ pass.seenBeatmaps ↔
          (pass.slots.any fun other => other.beatmapId == slot.beatmapId) = true := by
        rw [h.seen]
        simp
      by_cases hmem : slot.beatmapId ∈ pass.seenBeatmaps
      · rw [if_pos (hseen.mp hmem)] at hfirsts
        simp only [if_pos hmem]
        exact h.skip hfirsts
      · rw [if_neg (hseen.not.mp hmem)] at hfirsts
        simp only [if_neg hmem]
        refine ⟨h.numbered.addOffer, h.countsNext, hfirsts.symm, ?_, ?_⟩
        · rw [List.map_append, ← h.seen]
          rfl
        · have hskipped := h.skipped
          show (pass.slots ++ [slot]).length + pass.skipped = total + 1
          rw [List.length_append, List.length_singleton]
          omega

theorem Accounts.addMaps (h : Accounts strings sourceUrl offers total pass) (category : Category)
    (maps : List Json) :
    Accounts strings sourceUrl (maps.foldl (addOffer · category) offers) (total + maps.length)
      (maps.foldl (Pass.addMap strings sourceUrl category) pass) := by
  induction maps generalizing offers total pass with
  | nil => exact h
  | cons beatmap maps ih =>
    have hmaps := ih (h.addMap category beatmap)
    rwa [show total + 1 + maps.length = total + (beatmap :: maps).length by
      rw [List.length_cons]
      omega] at hmaps

theorem Accounts.lose (h : Accounts strings sourceUrl offers total pass) (n : Nat) (text : Text) :
    Accounts strings sourceUrl offers (total + n) ((pass.warn text).skip n) where
  numbered := h.numbered
  counts := h.counts
  slots := h.slots
  seen := h.seen
  skipped := by
    have hskipped := h.skipped
    show pass.slots.length + (pass.skipped + n) = total + n
    omega

/-- What the count of a group comes to: its maps, or one for a group without a readable map. -/
def weight (strings : Strings) (group : Json) : Nat :=
  (listedIn group).length + if unreadable strings group then 1 else 0

theorem Accounts.addGroup (h : Accounts strings sourceUrl offers total pass) (group : Json)
    (index : Nat) :
    Accounts strings sourceUrl (addOffers strings offers group) (total + weight strings group)
      (pass.addGroup strings sourceUrl group index) := by
  cases group with
  | obj entries =>
    cases hmaps : Json.getD entries "maps" (.arr []) with
    | arr maps =>
      cases hcategory : Category.ofName (strings.upper (strings.str
          (Json.getD entries "mod" (.str [])))) with
      | some category =>
        have hadd := h.addMaps category maps
        simpa [addOffers, categoryOf, listedIn, weight, unreadable, Pass.addGroup, hmaps,
          hcategory] using hadd
      | none =>
        have hweight : weight strings (.obj entries) = max 1 maps.length := by
          cases maps <;> simp [weight, listedIn, unreadable, categoryOf, hmaps, hcategory]
        rw [hweight]
        simpa [addOffers, categoryOf, Pass.addGroup, hmaps, hcategory] using h.lose _ _
    | _ =>
      have hoffers : addOffers strings offers (.obj entries) = offers := by
        unfold addOffers
        split
        · simp [listedIn, hmaps]
        · rfl
      have hweight : weight strings (.obj entries) = 1 := by
        simp [weight, listedIn, unreadable, hmaps]
      rw [hoffers, hweight]
      simpa [Pass.addGroup, hmaps] using h.lose _ _
  | _ => exact h.lose 1 _

theorem Accounts.addGroups (h : Accounts strings sourceUrl offers total pass) (groups : List Json)
    (index : Nat) :
    Accounts strings sourceUrl (groups.foldl (addOffers strings) offers)
      (total + (groups.map (weight strings)).sum)
      ((groups.zipIdx index).foldl
        (fun pass group => pass.addGroup strings sourceUrl group.1 group.2) pass) := by
  induction groups generalizing index offers total pass with
  | nil => exact h
  | cons group groups ih =>
    have hrest := ih (h.addGroup group index) (index + 1)
    rwa [Nat.add_assoc, ← List.sum_cons, ← List.map_cons] at hrest

theorem accounts_start (strings : Strings) (sourceUrl : Text) (warnings : List Text) : Accounts strings sourceUrl [] 0
    { slots := [], counts := fun _ => 0, seenBeatmaps := [], skipped := 0, warnings } where
  numbered before offer after hsplit := by simp at hsplit
  counts _ := rfl
  slots := rfl
  seen := rfl
  skipped := rfl

/-- The loop over the groups accounts for all of them. -/
theorem accounts_run (strings : Strings) (sourceUrl : Text) (warnings : List Text)
    (groups : List Json) :
    Accounts strings sourceUrl (Pools.offers strings groups) (groups.map (weight strings)).sum
      (Pass.run strings sourceUrl warnings groups) := by
  have hrun := (accounts_start strings sourceUrl warnings).addGroups groups 1
  rwa [Nat.zero_add] at hrun

end Pass

section Slots

variable {strings : Strings} {sourceUrl : Text} {offers before after : List Offer} {offer : Offer}
  {slot : SlotSpec}

theorem Offer.slot_id (h : offer.slot strings sourceUrl = some slot) :
    slot.id = label offer.category offer.number := by
  unfold Offer.slot Pass.slotOf at h
  split at h
  · exact validate_id h
  · cases h

theorem mem_candidates : slot ∈ candidates strings sourceUrl offers ↔
    ∃ offer ∈ offers, offer.extra = false ∧ offer.slot strings sourceUrl = some slot := by
  simp [candidates, List.mem_filterMap, List.mem_filter, and_assoc]

/-- The numbers keep the labels apart. -/
theorem Numbered.labels (h : Numbered offers) :
    ((candidates strings sourceUrl offers).map SlotSpec.id).Nodup := by
  have hpairwise : (offers.filter fun offer => !offer.extra).Pairwise fun a b =>
      label a.category a.number ≠ label b.category b.number := by
    refine (h.increasing.filter _).imp_of_mem ?_
    intro a b ha hb hnumber hlabel
    obtain ⟨hcategory, hsame⟩ := label_eq hlabel
    have hlt := hnumber hcategory
    cases hsame with
    | inl htb =>
      have hextra : b.extra = false := by simpa using (List.mem_filter.mp hb).2
      have hpos := h.pos (List.mem_filter.mp ha).1
      have hb1 : ¬(b.category = .tb ∧ 1 < b.number) := by simpa [Offer.extra] using hextra
      exact hb1 ⟨hcategory ▸ htb, by omega⟩
    | inr hsame => omega
  rw [candidates, List.Nodup, List.pairwise_map]
  refine hpairwise.filterMap _ ?_
  intro a b hlabel slot hslot other hother
  rw [Offer.slot_id hslot, Offer.slot_id hother]
  exact hlabel

theorem candidates_append : candidates strings sourceUrl (before ++ after) =
    candidates strings sourceUrl before ++ candidates strings sourceUrl after := by
  simp [candidates]

theorem candidates_cons (hextra : offer.extra = false)
    (hslot : offer.slot strings sourceUrl = some slot) :
    candidates strings sourceUrl (offer :: after) =
      slot :: candidates strings sourceUrl after := by
  simp [candidates, hextra, hslot]

end Slots

end Soms.Pools

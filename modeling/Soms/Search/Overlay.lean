import Soms.Library.Overlay
import Soms.Search.Query

/-!
# Local ranks on search results

`overlay_local_ranked_beatmapsets` of `service/beatmap_search_overlay_service.py`: rows of sets with
a local policy are replaced or removed on every page, and sets that match only locally are put in
front of the first page.
-/

namespace Soms.Search

open Scores (UserId SetId EffectiveSetPolicy)

structure SearchBeatmapsetsResp where
  beatmapsets : List Item
  total : Int
  cursor : Option (List (String × String)) := none
  cursorString : Option String := none

variable (strings : Strings) (db : Database) (query : SearchQuery)

/-! ## One set -/

/-- `get_effective_beatmapset_policy` -/
def effectivePolicy (beatmapset : Beatmapset) : EffectiveSetPolicy :=
  db.policies.effectiveSetPolicy beatmapset.id beatmapset.beatmapStatus

/-- A stale checksum makes an otherwise active policy ineffective. -/
def overrides (beatmapset : Beatmapset) : Bool :=
  (effectivePolicy db beatmapset).source != .upstream

def metadataMatches (beatmapset : Beatmapset) : Bool :=
  if supportsLocalInjection query then queryMatches strings db beatmapset query else true

/-- Whether the set matches under a policy. -/
def policyMatches (policy : EffectiveSetPolicy) (beatmapset : Beatmapset) : Bool :=
  if query.isPersonal then metadataMatches strings db query beatmapset
  else metadataMatches strings db query beatmapset && categoryMatches query.s policy

def upstreamMatches (beatmapset : Beatmapset) : Bool :=
  policyMatches strings db query (Scores.upstreamSetPolicy beatmapset.beatmapStatus) beatmapset

def localMatches (beatmapset : Beatmapset) : Bool :=
  policyMatches strings db query (effectivePolicy db beatmapset) beatmapset

/-! ## The cached sets -/

/-- The cached sets that an active policy names. -/
def candidates : List Beatmapset :=
  db.beatmapsets.filter fun beatmapset => db.policies.hasLocalPolicy beatmapset.id

/-- What the loop over the candidates collects. -/
structure Collected where
  overriddenIds : List SetId := []
  injectableIds : List SetId := []
  /-- In the order of insertion. -/
  matchingLocal : List Item := []
  totalDelta : Int := 0

/-- `BeatmapsetModel.transform` -/
def transform (user : Option UserId) (beatmapset : Beatmapset) : Item :=
  ⟨beatmapset.id, db.details user beatmapset.id⟩

/-- One turn of the loop. -/
def Collected.add (user : Option UserId) (st : Collected) (beatmapset : Beatmapset) : Collected :=
  if !overrides db beatmapset then st
  else
    let upstream := upstreamMatches strings db query beatmapset
    let here := localMatches strings db query beatmapset
    let st : Collected :=
      { st with
        overriddenIds := st.overriddenIds ++ [beatmapset.id]
        totalDelta :=
          if supportsLocalInjection query then st.totalDelta + (here.toInt - upstream.toInt)
          else st.totalDelta }
    if !here then st
    else
      { st with
        matchingLocal := st.matchingLocal ++ [transform db user beatmapset]
        injectableIds :=
          if supportsLocalInjection query && !upstream then st.injectableIds ++ [beatmapset.id]
          else st.injectableIds }

def collect (user : Option UserId) : Collected :=
  (candidates db).foldl (Collected.add strings db query user) {}

/-! ## A page -/

/-- The row that stays of an upstream item. -/
def Collected.row (st : Collected) (item : Item) : Option Item :=
  if st.overriddenIds.contains item.id then st.matchingLocal.find? (·.id == item.id)
  else some item

/-- The page with its replacements. -/
def Collected.merged (st : Collected) (page : List Item) : List Item := page.filterMap st.row

/-- What the first page is preceded by. -/
def Collected.injected (st : Collected) (page : List Item) : List Item :=
  st.matchingLocal.filter fun item =>
    st.injectableIds.contains item.id && !((st.merged page).map Item.id).contains item.id

/-- The items of the response. -/
def Collected.items (st : Collected) (sort : SortOption) (firstPage : Bool) (page : List Item) :
    List Item :=
  let injected := injectedOrder strings (st.injected page)
  if !firstPage then st.merged page
  else if injected.isEmpty then st.merged page
  else sortMergedResults strings (injected ++ st.merged page) sort

/-- `overlay_local_ranked_beatmapsets` -/
def overlayLocalRankedBeatmapsets (user : Option UserId) (firstPage : Bool)
    (upstream : SearchBeatmapsetsResp) : SearchBeatmapsetsResp :=
  if (candidates db).isEmpty then upstream
  else
    let st := collect strings db query user
    let items := st.items strings query.sort firstPage upstream.beatmapsets
    { upstream with
      beatmapsets := items
      total := max items.length (upstream.total + st.totalDelta) }

/-! ## What the loop collects -/

section Collect

variable (user : Option UserId)

/-- The sets whose policy is not the upstream one, with what upstream and the policy say. -/
def decisions : Decisions SetId Beatmapset where
  rows := (candidates db).filter (overrides db)
  key := Beatmapset.id
  nodup := db.nodup.sublist ((List.filter_sublist.trans List.filter_sublist).map Beatmapset.id)
  before := upstreamMatches strings db query
  after := localMatches strings db query

variable {strings db query user}

/-- One turn of the loop over a set that is overridden. -/
theorem add_eq (hsupports : supportsLocalInjection query = true) (st : Collected)
    {beatmapset : Beatmapset} (hover : overrides db beatmapset = true) :
    Collected.add strings db query user st beatmapset =
      { overriddenIds := st.overriddenIds ++ [beatmapset.id]
        injectableIds := st.injectableIds ++ ([beatmapset].filter fun beatmapset =>
          localMatches strings db query beatmapset &&
            !upstreamMatches strings db query beatmapset).map Beatmapset.id
        matchingLocal := st.matchingLocal ++
          ([beatmapset].filter (localMatches strings db query)).map (transform db user)
        totalDelta := st.totalDelta + ((localMatches strings db query beatmapset).toInt -
          (upstreamMatches strings db query beatmapset).toInt) } := by
  cases hlocal : localMatches strings db query beatmapset <;>
    cases hupstream : upstreamMatches strings db query beatmapset <;>
      simp [Collected.add, hover, hsupports, hlocal, hupstream]

theorem foldl_add (hsupports : supportsLocalInjection query = true) (l : List Beatmapset)
    (st : Collected) :
    l.foldl (Collected.add strings db query user) st =
      { overriddenIds := st.overriddenIds ++ (l.filter (overrides db)).map Beatmapset.id
        injectableIds := st.injectableIds ++ ((l.filter (overrides db)).filter fun beatmapset =>
          localMatches strings db query beatmapset &&
            !upstreamMatches strings db query beatmapset).map Beatmapset.id
        matchingLocal := st.matchingLocal ++
          ((l.filter (overrides db)).filter (localMatches strings db query)).map (transform db user)
        totalDelta := st.totalDelta + ((l.filter (overrides db)).map fun beatmapset =>
          (localMatches strings db query beatmapset).toInt -
            (upstreamMatches strings db query beatmapset).toInt).sum } := by
  induction l generalizing st with
  | nil => simp
  | cons beatmapset l ih =>
    rw [List.foldl_cons, ih]
    cases hover : overrides db beatmapset with
    | false => simp [Collected.add, hover]
    | true =>
      have hsplit (p : Beatmapset → Bool) :
          (beatmapset :: l.filter (overrides db)).filter p =
            [beatmapset].filter p ++ (l.filter (overrides db)).filter p :=
        List.filter_append [beatmapset] _
      rw [add_eq hsupports st hover, List.filter_cons_of_pos hover]
      simp only [hsplit, List.map_append, List.map_cons, List.sum_cons, List.append_assoc,
        List.cons_append, List.nil_append, add_assoc]

/-- **The loop collects the decisions.** -/
theorem collect_eq (hsupports : supportsLocalInjection query = true) :
    collect strings db query user =
      { overriddenIds := (decisions strings db query).rows.map Beatmapset.id
        injectableIds := (decisions strings db query).added
        matchingLocal := ((decisions strings db query).rows.filter
          (localMatches strings db query)).map (transform db user)
        totalDelta := (decisions strings db query).correction } := by
  rw [collect, foldl_add hsupports]
  simp [decisions, Decisions.added, Decisions.addedRows, Decisions.correction]

/-! ## What a page shows -/

/-- An item stays, replaced if its set is overridden, unless the set does not match locally. -/
theorem row_collect (hsupports : supportsLocalInjection query = true) (item : Item) :
    ((collect strings db query user).row item).map Item.id =
      Option.guard (fun setId => (decisions strings db query).rows.all fun row =>
        decide (row.id ≠ setId) || localMatches strings db query row) item.id := by
  rw [Collected.row, collect_eq hsupports, Option.guard]
  dsimp only
  by_cases hover : ∃ row ∈ (decisions strings db query).rows, row.id = item.id
  · obtain ⟨row, hrow, hid⟩ := hover
    have honly : ∀ row' ∈ (decisions strings db query).rows, row'.id = item.id → row' = row :=
      fun row' hrow' hid' =>
        (decisions strings db query).row_unique hrow' hrow (hid'.trans hid.symm)
    rw [if_pos (by simpa using ⟨row, hrow, hid⟩), List.find?_map]
    cases hlocal : localMatches strings db query row with
    | true =>
      have hall : ((decisions strings db query).rows.all fun row =>
          decide (row.id ≠ item.id) || localMatches strings db query row) = true := by
        refine List.all_eq_true.mpr fun row' hrow' => ?_
        by_cases hid' : row'.id = item.id
        · rw [honly row' hrow' hid', hlocal, Bool.or_true]
        · simp [hid']
      rw [if_pos hall]
      cases hfind : ((decisions strings db query).rows.filter (localMatches strings db query)).find?
          ((fun x : Item => x.id == item.id) ∘ transform db user) with
      | none =>
        have hnone := List.find?_eq_none.mp hfind row (List.mem_filter.mpr ⟨hrow, hlocal⟩)
        exact absurd (by simpa [transform] using hid) hnone
      | some found =>
        have hfound := List.find?_some hfind
        simpa [transform] using hfound
    | false =>
      have hnot : ((decisions strings db query).rows.all fun row =>
          decide (row.id ≠ item.id) || localMatches strings db query row) = false :=
        List.all_eq_false.mpr ⟨row, hrow, by simp [hid, hlocal]⟩
      rw [hnot, if_neg (by simp)]
      have hnone : ((decisions strings db query).rows.filter (localMatches strings db query)).find?
          ((fun x : Item => x.id == item.id) ∘ transform db user) = none := by
        refine List.find?_eq_none.mpr fun row' hrow' hid' => ?_
        obtain ⟨hrow', hlocal'⟩ := List.mem_filter.mp hrow'
        rw [honly row' hrow' (by simpa [transform] using hid'), hlocal] at hlocal'
        cases hlocal'
      rw [hnone]
      rfl
  · have hall : ((decisions strings db query).rows.all fun row =>
        decide (row.id ≠ item.id) || localMatches strings db query row) = true := by
      refine List.all_eq_true.mpr fun row hrow => ?_
      have hid : row.id ≠ item.id := fun hid => hover ⟨row, hrow, hid⟩
      simp [hid]
    rw [if_neg (by simpa using hover), if_pos hall]
    rfl

theorem map_id_merged (hsupports : supportsLocalInjection query = true) (page : List Item) :
    ((collect strings db query user).merged page).map Item.id =
      (decisions strings db query).kept (page.map Item.id) := by
  rw [Collected.merged, List.map_filterMap, Decisions.kept, ← List.filterMap_eq_filter,
    List.filterMap_map]
  exact congrArg (List.filterMap · page) (funext (row_collect hsupports))

/-- **The first page is preceded by the sets that match only locally.** -/
theorem map_id_injected (hsupports : supportsLocalInjection query = true) {listing : List SetId}
    (hbefore : ∀ row ∈ (decisions strings db query).rows,
      row.id ∈ listing ↔ upstreamMatches strings db query row = true)
    {page : List Item} (hpage : page.map Item.id ⊆ listing) :
    ((collect strings db query user).injected page).map Item.id =
      (decisions strings db query).added := by
  rw [Collected.injected, map_id_merged hsupports, collect_eq hsupports]
  dsimp only
  rw [List.filter_map, List.map_map, List.filter_filter, Decisions.added, Decisions.addedRows]
  refine congrArg (List.map Beatmapset.id) (List.filter_congr fun row hrow => ?_)
  show (_ && !((decisions strings db query).kept (page.map Item.id)).contains row.id &&
    localMatches strings db query row) = (localMatches strings db query row &&
      !upstreamMatches strings db query row)
  rw [Bool.eq_iff_iff]
  simp only [Bool.and_eq_true, Bool.not_eq_true', List.contains_eq_mem, decide_eq_true_eq,
    decide_eq_false_iff_not]
  constructor
  · rintro ⟨⟨hadded, -⟩, hlocal⟩
    obtain ⟨row', hrow', hid, -, hoff⟩ := (decisions strings db query).mem_added.mp hadded
    obtain rfl := (decisions strings db query).row_unique hrow' hrow hid
    exact ⟨hlocal, hoff⟩
  · rintro ⟨hlocal, hoff⟩
    refine ⟨⟨(decisions strings db query).mem_added.mpr ⟨row, hrow, rfl, hlocal, hoff⟩, ?_⟩, hlocal⟩
    intro hkept
    have hlisted := (hbefore row hrow).mp (hpage ((decisions strings db query).mem_kept.mp hkept).1)
    rw [hoff] at hlisted
    cases hlisted

theorem map_id_items (hsupports : supportsLocalInjection query = true) (sort : SortOption)
    (page : List Item) :
    ((collect strings db query user).items strings sort false page).map Item.id =
      (decisions strings db query).kept (page.map Item.id) :=
  map_id_merged hsupports page

theorem map_id_items_first (hsupports : supportsLocalInjection query = true)
    {listing : List SetId} (hbefore : ∀ row ∈ (decisions strings db query).rows,
      row.id ∈ listing ↔ upstreamMatches strings db query row = true)
    (sort : SortOption) {page : List Item} (hpage : page.map Item.id ⊆ listing) :
    (((collect strings db query user).items strings sort true page).map Item.id).Perm
      ((decisions strings db query).added ++
        (decisions strings db query).kept (page.map Item.id)) := by
  have hmerged : ((collect strings db query user).merged page).map Item.id = _ :=
    map_id_merged hsupports page
  have hinjected : ((collect strings db query user).injected page).map Item.id = _ :=
    map_id_injected hsupports hbefore hpage
  have horder := injectedOrder_perm strings ((collect strings db query user).injected page)
  rw [← hmerged, ← hinjected, ← List.map_append]
  refine List.Perm.map Item.id ?_
  unfold Collected.items
  rw [if_neg (by simp)]
  split
  · next hempty =>
    rw [List.isEmpty_iff.mp hempty] at horder
    rw [List.nil_perm.mp horder, List.nil_append]
  · exact (sortMergedResults_perm strings _ sort).trans (horder.append_right _)

/-! ## The response -/

theorem collect_of_no_candidates (hnone : (candidates db).isEmpty = true) :
    collect strings db query user = {} := by
  rw [collect, List.isEmpty_iff.mp hnone, List.foldl_nil]

/-- A page that nothing was collected for stays as it is. -/
theorem items_empty (sort : SortOption) (firstPage : Bool) (page : List Item) :
    Collected.items strings {} sort firstPage page = page := by
  have hrow : Collected.row {} = some := rfl
  have hmerged : Collected.merged {} page = page := by
    rw [Collected.merged, hrow, List.filterMap_some]
  have hinjected : injectedOrder strings (Collected.injected {} page) = [] :=
    List.perm_nil.mp (injectedOrder_perm strings [])
  unfold Collected.items
  rw [hinjected, hmerged]
  simp

/-- The early return answers what the loop would have. -/
theorem overlay_beatmapsets (firstPage : Bool) (upstream : SearchBeatmapsetsResp) :
    (overlayLocalRankedBeatmapsets strings db query user firstPage upstream).beatmapsets =
      (collect strings db query user).items strings query.sort firstPage upstream.beatmapsets := by
  unfold overlayLocalRankedBeatmapsets
  split
  · next hnone => rw [collect_of_no_candidates hnone, items_empty]
  · rfl

theorem overlay_total (firstPage : Bool) {upstream : SearchBeatmapsetsResp}
    (htotal : upstream.beatmapsets.length ≤ upstream.total) :
    (overlayLocalRankedBeatmapsets strings db query user firstPage upstream).total =
      max (((collect strings db query user).items strings query.sort firstPage
        upstream.beatmapsets).length : Int)
        (upstream.total + (collect strings db query user).totalDelta) := by
  unfold overlayLocalRankedBeatmapsets
  split
  · next hnone =>
    rw [collect_of_no_candidates hnone, items_empty]
    show upstream.total = max (upstream.beatmapsets.length : Int) (upstream.total + 0)
    omega
  · rfl

/-! ## All pages -/

/-- The items of the pages of a result. -/
def results (first : SearchBeatmapsetsResp) (rest : List SearchBeatmapsetsResp) : List Item :=
  ((first :: rest).map SearchBeatmapsetsResp.beatmapsets).flatten

/-- A cached set matches under its effective status, another one if upstream lists it. -/
def Matches (strings : Strings) (db : Database) (query : SearchQuery) (listed : List SetId)
    (setId : SetId) : Prop :=
  (∃ beatmapset ∈ db.beatmapsets, beatmapset.id = setId ∧
    queryMatches strings db beatmapset query = true ∧
    categoryMatches query.s (effectivePolicy db beatmapset) = true) ∨
  (setId ∈ listed ∧ ∀ beatmapset ∈ db.beatmapsets, beatmapset.id ≠ setId)

theorem policyMatches_iff (hsupports : supportsLocalInjection query = true)
    (policy : EffectiveSetPolicy) (beatmapset : Beatmapset) :
    policyMatches strings db query policy beatmapset = true ↔
      queryMatches strings db beatmapset query = true ∧ categoryMatches query.s policy = true := by
  rw [policyMatches, isPersonal_of_supports hsupports, metadataMatches, if_pos hsupports,
    if_neg (by simp), Bool.and_eq_true]

/-- A set without a decision follows upstream. -/
theorem effectivePolicy_of_not_mem {beatmapset : Beatmapset} (hcached : beatmapset ∈ db.beatmapsets)
    (hnot : beatmapset ∉ (decisions strings db query).rows) :
    effectivePolicy db beatmapset = Scores.upstreamSetPolicy beatmapset.beatmapStatus := by
  by_cases hpolicy : db.policies.hasLocalPolicy beatmapset.id = true
  · have hover : overrides db beatmapset = false := by
      by_contra hover
      have hcandidate : beatmapset ∈ candidates db := List.mem_filter.mpr ⟨hcached, hpolicy⟩
      exact hnot (List.mem_filter.mpr ⟨hcandidate, by simpa using hover⟩)
    have hsource : (effectivePolicy db beatmapset).source = .upstream := by
      simpa [overrides] using hover
    exact Scores.State.effectiveSetPolicy_eq_upstream hsource
  · exact db.policyRows.effectiveSetPolicy _ (by simpa using hpolicy)

section Agrees

variable {listed : List SetId} (hsupports : supportsLocalInjection query = true)
  (hagrees : ∀ beatmapset ∈ db.beatmapsets, beatmapset.id ∈ listed ↔
    queryMatches strings db beatmapset query = true ∧
    categoryMatches query.s (Scores.upstreamSetPolicy beatmapset.beatmapStatus) = true)
include hsupports hagrees

theorem before_iff : ∀ row ∈ (decisions strings db query).rows,
    row.id ∈ listed ↔ upstreamMatches strings db query row = true := by
  intro row hrow
  rw [hagrees row (List.mem_of_mem_filter (List.mem_of_mem_filter hrow))]
  exact (policyMatches_iff hsupports _ row).symm

/-- **What the decisions show is what matches under the effective status.** -/
theorem shown_iff (setId : SetId) :
    setId ∈ (decisions strings db query).added ++ (decisions strings db query).kept listed ↔
      Matches strings db query listed setId := by
  rw [(decisions strings db query).mem_added_append_kept (before_iff hsupports hagrees), Matches]
  have hrows : ∀ row ∈ (decisions strings db query).rows, row ∈ db.beatmapsets :=
    fun row hrow => List.mem_of_mem_filter (List.mem_of_mem_filter hrow)
  by_cases hcached : ∃ beatmapset ∈ db.beatmapsets, beatmapset.id = setId
  · obtain ⟨beatmapset, hmem, rfl⟩ := hcached
    have honly : ∀ other ∈ db.beatmapsets, other.id = beatmapset.id → other = beatmapset :=
      fun other hother hid => List.inj_on_of_nodup_map db.nodup hother hmem hid
    by_cases hrow : beatmapset ∈ (decisions strings db query).rows
    · -- the decision is the effective status
      have hlocal : localMatches strings db query beatmapset = true ↔
          queryMatches strings db beatmapset query = true ∧
            categoryMatches query.s (effectivePolicy db beatmapset) = true :=
        policyMatches_iff hsupports _ beatmapset
      constructor
      · rintro (⟨row, hrow', hid, hafter⟩ | ⟨-, hnone⟩)
        · obtain rfl := honly row (hrows row hrow') hid
          exact .inl ⟨row, hmem, rfl, hlocal.mp hafter⟩
        · exact absurd rfl (hnone beatmapset hrow)
      · rintro (⟨other, hother, hid, hmatches⟩ | ⟨-, hnone⟩)
        · obtain rfl := honly other hother hid
          exact .inl ⟨other, hrow, rfl, hlocal.mpr hmatches⟩
        · exact absurd rfl (hnone beatmapset hmem)
    · -- the effective status is what upstream filtered on
      have hupstream := hagrees beatmapset hmem
      rw [← effectivePolicy_of_not_mem hmem hrow] at hupstream
      constructor
      · rintro (⟨row, hrow', hid, -⟩ | ⟨hlisted, -⟩)
        · obtain rfl := honly row (hrows row hrow') hid
          exact absurd hrow' hrow
        · exact .inl ⟨beatmapset, hmem, rfl, hupstream.mp hlisted⟩
      · rintro (⟨other, hother, hid, hmatches⟩ | ⟨-, hnone⟩)
        · obtain rfl := honly other hother hid
          refine .inr ⟨hupstream.mpr hmatches, fun row hrow' hid' => hrow ?_⟩
          rw [← honly row (hrows row hrow') hid']
          exact hrow'
        · exact absurd rfl (hnone beatmapset hmem)
  · have hnone : ∀ beatmapset ∈ db.beatmapsets, beatmapset.id ≠ setId :=
      fun beatmapset hmem hid => hcached ⟨beatmapset, hmem, hid⟩
    constructor
    · rintro (⟨row, hrow, hid, -⟩ | ⟨hlisted, -⟩)
      · exact absurd hid (hnone row (hrows row hrow))
      · exact .inr ⟨hlisted, hnone⟩
    · rintro (⟨beatmapset, hmem, hid, -⟩ | ⟨hlisted, -⟩)
      · exact absurd hid (hnone beatmapset hmem)
      · exact .inr ⟨hlisted, fun row hrow => hnone row (hrows row hrow)⟩

/-- The items of all pages are those that the decisions show of the whole listing. -/
theorem map_id_results {first : SearchBeatmapsetsResp} {rest : List SearchBeatmapsetsResp}
    (hlisted : (results first rest).map Item.id = listed) (user : Option UserId) :
    ((results (overlayLocalRankedBeatmapsets strings db query user true first)
      (rest.map (overlayLocalRankedBeatmapsets strings db query user false))).map Item.id).Perm
      ((decisions strings db query).added ++ (decisions strings db query).kept listed) := by
  have hfirst : first.beatmapsets.map Item.id ⊆ listed := by
    rw [← hlisted]
    exact List.map_subset Item.id (List.subset_append_left _ _)
  have hpages : ((rest.map (overlayLocalRankedBeatmapsets strings db query user false)).map
      fun page => page.beatmapsets.map Item.id) =
      rest.map fun page => (decisions strings db query).kept (page.beatmapsets.map Item.id) := by
    rw [List.map_map]
    refine List.map_congr_left fun page _ => ?_
    show List.map Item.id
      (overlayLocalRankedBeatmapsets strings db query user false page).beatmapsets = _
    rw [overlay_beatmapsets, map_id_items hsupports]
  have hkept : (decisions strings db query).kept listed =
      (decisions strings db query).kept (first.beatmapsets.map Item.id) ++
        (rest.map fun page =>
          (decisions strings db query).kept (page.beatmapsets.map Item.id)).flatten := by
    rw [← hlisted, results, List.map_flatten, List.map_map, Decisions.kept_flatten, List.map_map]
    rfl
  rw [results, List.map_flatten, List.map_map, List.map_cons, List.flatten_cons]
  show ((overlayLocalRankedBeatmapsets strings db query user true first).beatmapsets.map Item.id ++
    ((rest.map (overlayLocalRankedBeatmapsets strings db query user false)).map
      fun page => page.beatmapsets.map Item.id).flatten).Perm _
  rw [hpages, hkept, overlay_beatmapsets, ← List.append_assoc]
  have hbefore := before_iff hsupports hagrees
  exact (map_id_items_first hsupports hbefore query.sort hfirst).append_right _

end Agrees

/-- **The pages show every set that matches under its effective local status, once.**  Upstream
divides its results into pages, and agrees with the cached sets on what matches.  Then the overlaid
pages hold exactly the sets that match, each once, and every page has the corrected total, which is
their number. -/
theorem overlay_pages (user : Option UserId) {first : SearchBeatmapsetsResp}
    {rest : List SearchBeatmapsetsResp} (hsupports : supportsLocalInjection query = true)
    (hnodup : ((results first rest).map Item.id).Nodup)
    (htotal : ∀ page ∈ first :: rest, page.total = (results first rest).length)
    (hagrees : ∀ beatmapset ∈ db.beatmapsets, beatmapset.id ∈ (results first rest).map Item.id ↔
      queryMatches strings db beatmapset query = true ∧
      categoryMatches query.s (Scores.upstreamSetPolicy beatmapset.beatmapStatus) = true) :
    let overlay := overlayLocalRankedBeatmapsets strings db query user
    let shown := results (overlay true first) (rest.map (overlay false))
    (shown.map Item.id).Nodup ∧
    (∀ setId, setId ∈ shown.map Item.id ↔
      Matches strings db query ((results first rest).map Item.id) setId) ∧
    (results first rest).length + (collect strings db query user).totalDelta = shown.length ∧
    (overlay true first).total = shown.length ∧
    ∀ page ∈ rest, (overlay false page).total = shown.length := by
  intro overlay shown
  have hperm := map_id_results hsupports hagrees rfl user
  have hbefore := before_iff hsupports hagrees
  have hcount : (results first rest).length + (collect strings db query user).totalDelta =
      shown.length := by
    have hlength := hperm.length_eq
    rw [List.length_map] at hlength
    rw [hlength, ← (decisions strings db query).length_add_correction hnodup hbefore,
      List.length_map, collect_eq hsupports]
  -- a page is a part of all pages, before and after
  have hpage : ∀ firstPage, ∀ page ∈ first :: rest,
      (overlay firstPage page).beatmapsets.length ≤ shown.length →
      (overlay firstPage page).total = shown.length := by
    intro firstPage page hpage hle
    have hpart : page.beatmapsets.length ≤ (results first rest).length :=
      (List.sublist_flatten_of_mem (List.mem_map_of_mem hpage)).length_le
    have htotal := htotal page hpage
    have hmax : (overlay firstPage page).total =
        max ((overlay firstPage page).beatmapsets.length : Int)
          (page.total + (collect strings db query user).totalDelta) := by
      show (overlayLocalRankedBeatmapsets strings db query user firstPage page).total =
        max ((overlayLocalRankedBeatmapsets strings db query user firstPage
          page).beatmapsets.length : Int) _
      rw [overlay_beatmapsets]
      exact overlay_total firstPage (by omega)
    rw [hmax, htotal, hcount]
    omega
  refine ⟨hperm.nodup_iff.mpr ((decisions strings db query).nodup_added_append_kept hnodup hbefore),
    fun setId => hperm.mem_iff.trans (shown_iff hsupports hagrees setId), hcount,
    hpage true first List.mem_cons_self ?_, fun page hmem =>
      hpage false page (List.mem_cons_of_mem _ hmem) ?_⟩
  · exact (List.sublist_flatten_of_mem (List.mem_map_of_mem List.mem_cons_self)).length_le
  · exact (List.sublist_flatten_of_mem (List.mem_map_of_mem (List.mem_cons_of_mem _
      (List.mem_map_of_mem hmem)))).length_le

end Collect

/-! ## A locally ranked set -/

/-- The set 1, which upstream keeps in the graveyard. -/
def graveyardSet : Beatmapset where
  id := 1
  artist := "camellia"
  artistUnicode := "camellia"
  title := "exit"
  titleUnicode := "exit"
  creator := "soms"
  source := ""
  tags := ""
  beatmapStatus := .graveyard
  nsfw := false
  spotlight := false
  trackId := none
  beatmapGenre := .unspecified
  beatmapLanguage := .unspecified
  video := false
  storyboard := false

/-- The set has one difficulty, whose chart staff have ranked with the set. -/
def rankedHere : Database where
  policies :=
    { Scores.State.empty with
      sets := fun setId => setId == 1
      beatmaps := Catalog.empty.put 10 { setId := 1, checksum := 4, status := .graveyard }
      setPolicy := fun setId =>
        if setId = 1 then
          some { status := .ranked, leaderboardEnabled := true, ppEnabled := true
                 forceUnranked := false, revisionManifest := fun _ => some 4 }
        else none }
  policyRows :=
    { override_set := fun _ _ h => by cases h
      tombstone := fun _ _ h => by cases h }
  beatmapsets := [graveyardSet]
  nodup := by decide
  mode _ := .osu
  version _ := "normal"
  details _ _ := ⟨"exit", "camellia", none, none, none, none, none, none, none⟩

/-- Ranked sets in the order of their relevance. -/
def rankedQuery : SearchQuery := { s := .ranked, sort := ⟨.relevance, true⟩ }

/-- A page with one set. -/
def onePage (setId : SetId) : SearchBeatmapsetsResp where
  beatmapsets := [⟨setId, ⟨"", "", none, none, none, none, none, none, none⟩⟩]
  total := 2

theorem overlay_pages_rankedHere :
    let overlay := overlayLocalRankedBeatmapsets ascii rankedHere rankedQuery none
    let shown := results (overlay true (onePage 2)) ([onePage 3].map (overlay false))
    1 ∈ shown.map Item.id ∧ shown.length = 3 := by
  intro overlay shown
  obtain ⟨-, hshown, hcount, -⟩ := @overlay_pages ascii rankedHere rankedQuery none (onePage 2)
    [onePage 3] (by decide) (by decide) (by decide) (by decide)
  have hmatches : Matches ascii rankedHere rankedQuery [2, 3] 1 :=
    .inl ⟨graveyardSet, List.mem_cons_self, rfl, by decide, by decide⟩
  have hdelta : (collect ascii rankedHere rankedQuery none).totalDelta = 1 := by decide
  refine ⟨(hshown 1).mpr hmatches, Int.ofNat_inj.mp ?_⟩
  rw [← hcount, hdelta]
  rfl

end Soms.Search

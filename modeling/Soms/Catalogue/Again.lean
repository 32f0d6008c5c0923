import Soms.Catalogue.Import
import Soms.Library.Assoc
import Soms.Library.Run

/-!
# The import of a page over again

What the import never writes of a stored set decides which of its entries refresh it, and of these
the last one counts.  So a page that is imported again changes nothing, whatever it has twice.
-/

namespace Soms.Catalogue

open Soms.Scores (BeatmapRankStatus)

variable {existing other parent parent' : Beatmapset}

/-! ## What the import leaves alone -/

/-- The file of a difficulty and its marks. -/
def Beatmap.revision (m : Beatmap) : BeatmapId × String × BeatmapRankStatus × Option Int :=
  (m.id, m.checksum, m.beatmapStatus, m.deletedAt)

/-- Two copies of a set whose revisions are the same. -/
structure Beatmapset.SameRevision (s t : Beatmapset) : Prop where
  lastUpdated : s.lastUpdated = t.lastUpdated
  beatmapStatus : s.beatmapStatus = t.beatmapStatus
  beatmaps : s.beatmaps.map Beatmap.revision = t.beatmaps.map Beatmap.revision

theorem Beatmap.revision_refreshFrom (items : List Beatmap) (m : Beatmap) :
    (m.refreshFrom items).revision = m.revision := by
  unfold refreshFrom
  split <;> rfl

namespace Beatmapset

theorem sameRevision_withMetadata (existing parent : Beatmapset) :
    (existing.withMetadata parent).SameRevision existing where
  lastUpdated := rfl
  beatmapStatus := rfl
  beatmaps := by
    rw [withMetadata, List.map_map]
    exact List.map_congr_left fun m _ => m.revision_refreshFrom _

/-- The set after an entry. -/
def after (existing parent : Beatmapset) : Beatmapset := (existing.update parent).2

theorem sameRevision_after (existing parent : Beatmapset) :
    (existing.after parent).SameRevision existing := by
  unfold after update
  split
  · exact ⟨rfl, rfl, rfl⟩
  · split
    · exact ⟨rfl, rfl, rfl⟩
    · exact existing.sameRevision_withMetadata parent

theorem SameRevision.symm (h : existing.SameRevision other) : other.SameRevision existing :=
  ⟨h.lastUpdated.symm, h.beatmapStatus.symm, h.beatmaps.symm⟩

theorem SameRevision.trans {last : Beatmapset} (h : existing.SameRevision other)
    (h' : other.SameRevision last) : existing.SameRevision last :=
  ⟨h.lastUpdated.trans h'.lastUpdated, h.beatmapStatus.trans h'.beatmapStatus,
    h.beatmaps.trans h'.beatmaps⟩

/-- The difficulties are compared by their revisions. -/
theorem SameRevision.any (h : existing.SameRevision other)
    (p : BeatmapId × String × BeatmapRankStatus × Option Int → Bool) :
    existing.beatmaps.any (fun m => p m.revision) = other.beatmaps.any fun m => p m.revision := by
  have hmap : ∀ s : Beatmapset, s.beatmaps.any (fun m => p m.revision) =
      (s.beatmaps.map Beatmap.revision).any p := fun s => by
    rw [List.any_map]
    rfl
  rw [hmap, hmap, h.beatmaps]

theorem SameRevision.revised (h : existing.SameRevision other) (parent : Beatmapset) :
    existing.revised parent = other.revised parent := by
  have hfound : ∀ item : Beatmap, (existing.beatmaps.any fun saved =>
      saved.id == item.id && saved.deletedAt == none) =
        other.beatmaps.any fun saved => saved.id == item.id && saved.deletedAt == none :=
    fun item => h.any fun r => r.1 == item.id && r.2.2.2 == none
  have hsame : ∀ item : Beatmap, (existing.beatmaps.any fun saved =>
      saved.id == item.id && saved.checksum == item.checksum &&
        saved.beatmapStatus == item.beatmapStatus && saved.deletedAt == item.deletedAt) =
        other.beatmaps.any fun saved => saved.id == item.id && saved.checksum == item.checksum &&
          saved.beatmapStatus == item.beatmapStatus && saved.deletedAt == item.deletedAt :=
    fun item => h.any fun r => r.1 == item.id && r.2.1 == item.checksum &&
      r.2.2.1 == item.beatmapStatus && r.2.2.2 == item.deletedAt
  have hkept : (existing.beatmaps.all fun saved => saved.deletedAt != none ||
      parent.beatmaps.any fun item => item.id == saved.id) =
        other.beatmaps.all fun saved => saved.deletedAt != none ||
          parent.beatmaps.any fun item => item.id == saved.id := by
    rw [List.all_eq_not_any_not, List.all_eq_not_any_not]
    exact congrArg (!·) (h.any fun r => !(r.2.2.2 != none ||
      parent.beatmaps.any fun item => item.id == r.1))
  simp only [Beatmapset.revised, h.beatmapStatus, hfound, hsame, hkept]

theorem SameRevision.outcome (h : existing.SameRevision other) (parent : Beatmapset) :
    (existing.update parent).1 = (other.update parent).1 := by
  unfold update
  rw [h.lastUpdated, h.revised parent]
  split
  · rfl
  · split <;> rfl

/-! ## The last one counts -/

/-- An entry that is no revision tells of the difficulties that are not deleted. -/
theorem exists_item_iff (h : existing.revised parent = false) {m : Beatmap}
    (hm : m ∈ existing.beatmaps) :
    (∃ item ∈ parent.beatmaps, item.id = m.id) ↔ m.deletedAt = none := by
  simp only [revised, Bool.or_eq_false_iff, Bool.not_eq_false', List.all_eq_true] at h
  obtain ⟨⟨⟨_, hitems⟩, hkept⟩, _⟩ := h
  constructor
  · intro ⟨item, hitem, hid⟩
    obtain ⟨saved, hsaved, hfound⟩ := List.any_eq_true.mp (hitems item hitem)
    rw [Bool.and_eq_true, beq_iff_eq, beq_iff_eq] at hfound
    rw [← List.inj_on_of_nodup_map existing.nodup hsaved hm (hfound.1.trans hid)]
    exact hfound.2
  · intro hdeleted
    have := hkept m hm
    rw [hdeleted, bne_self_eq_false, Bool.false_or, List.any_eq_true] at this
    obtain ⟨item, hitem, hid⟩ := this
    exact ⟨item, hitem, beq_iff_eq.mp hid⟩

end Beatmapset

/-- The metadata of a difficulty is overwritten by an item of its id. -/
theorem Beatmap.refreshFrom_refreshFrom {items items' : List Beatmap} {m : Beatmap}
    (h : (∃ item ∈ items, item.id = m.id) → ∃ item ∈ items', item.id = m.id) :
    (m.refreshFrom items).refreshFrom items' = m.refreshFrom items' := by
  have hnone : ∀ l : List Beatmap, (l.find? fun item => item.id == m.id) = none ↔
      ¬ ∃ item ∈ l, item.id = m.id := by
    intro l
    simp
  cases hfound : items'.find? fun item => item.id == m.id with
  | none =>
    have hnot := (hnone items).mpr fun hex => (hnone items').mp hfound (h hex)
    simp only [refreshFrom, hnot]
  | some item =>
    simp only [refreshFrom, hfound]
    cases items.find? fun item => item.id == m.id with
    | none => simp only [hfound]
    | some first => simp only [withMetadata, hfound]

namespace Beatmapset

/-- The metadata of a set is overwritten by an entry that tells of the same difficulties. -/
theorem withMetadata_withMetadata (h : ∀ m ∈ existing.beatmaps,
    (∃ item ∈ parent.beatmaps, item.id = m.id) → ∃ item ∈ parent'.beatmaps, item.id = m.id) :
    (existing.withMetadata parent).withMetadata parent' = existing.withMetadata parent' := by
  have hmaps : (existing.beatmaps.map (Beatmap.refreshFrom parent.beatmaps)).map
      (Beatmap.refreshFrom parent'.beatmaps) =
        existing.beatmaps.map (Beatmap.refreshFrom parent'.beatmaps) := by
    rw [List.map_map]
    exact List.map_congr_left fun m hm => Beatmap.refreshFrom_refreshFrom (h m hm)
  simp only [withMetadata, hmaps]

theorem update_cases (existing parent : Beatmapset) :
    existing.after parent = existing ∨ existing.revised parent = false ∧
      (existing.update parent).1 = .refreshed ∧
      existing.after parent = existing.withMetadata parent := by
  unfold after update
  split
  case isTrue => exact .inl rfl
  case isFalse =>
    split
    case isTrue => exact .inl rfl
    case isFalse h => exact .inr ⟨by simpa using h, rfl, rfl⟩

/-- An entry refreshes each copy of the same revision or none. -/
theorem after_eq_withMetadata (h : existing.SameRevision other)
    (hrefreshed : (existing.update parent).1 = .refreshed) :
    other.after parent = other.withMetadata parent ∧ other.revised parent = false := by
  rw [h.outcome parent] at hrefreshed
  unfold update at hrefreshed
  unfold after update
  split at hrefreshed
  case isTrue => cases hrefreshed
  case isFalse hnewer =>
    rw [if_neg hnewer]
    split at hrefreshed
    case isTrue => cases hrefreshed
    case isFalse hrevised =>
      rw [if_neg hrevised]
      exact ⟨rfl, by simpa using hrevised⟩

theorem after_eq_self (h : (existing.update parent).1 ≠ .refreshed) :
    existing.after parent = existing :=
  (update_cases existing parent).resolve_right fun hcase => h hcase.2.1

/-- An entry that refreshes a set overwrites what another has refreshed. -/
theorem withMetadata_after (h : existing.revised parent' = false) :
    (existing.after parent).withMetadata parent' = existing.withMetadata parent' := by
  rcases update_cases existing parent with heq | ⟨hrevised, _, heq⟩
  · rw [heq]
  · rw [heq]
    exact withMetadata_withMetadata fun m hm hitem =>
      (exists_item_iff h hm).mpr ((exists_item_iff hrevised hm).mp hitem)

theorem after_after (existing parent : Beatmapset) :
    (existing.after parent).after parent = existing.after parent := by
  have hsame := existing.sameRevision_after parent
  by_cases hrefreshed : (existing.update parent).1 = .refreshed
  · obtain ⟨heq, hrevised⟩ := after_eq_withMetadata ⟨rfl, rfl, rfl⟩ hrefreshed
    rw [(after_eq_withMetadata hsame.symm hrefreshed).1]
    exact (withMetadata_after hrevised).trans heq.symm
  · have hkept : ((existing.after parent).update parent).1 ≠ .refreshed := by
      rw [hsame.outcome parent]
      exact hrefreshed
    exact after_eq_self hkept

/-- Where an entry leads to one set, it does so after any other entry. -/
theorem after_congr {s t : Beatmapset} (h : s.after parent = t.after parent) :
    (s.after parent').after parent = (t.after parent').after parent := by
  have hsame : s.SameRevision t := by
    have hs := s.sameRevision_after parent
    have ht := t.sameRevision_after parent
    exact hs.symm.trans (h ▸ ht)
  by_cases hrefreshed : (s.update parent).1 = .refreshed
  · have hs' := (s.sameRevision_after parent').symm
    have ht' := hsame.trans (t.sameRevision_after parent').symm
    obtain ⟨heq, hrevised⟩ := after_eq_withMetadata ⟨rfl, rfl, rfl⟩ hrefreshed
    obtain ⟨heq', hrevised'⟩ := after_eq_withMetadata hsame hrefreshed
    rw [(after_eq_withMetadata hs' hrefreshed).1, (after_eq_withMetadata ht' hrefreshed).1]
    calc (s.after parent').withMetadata parent
        = s.withMetadata parent := withMetadata_after hrevised
      _ = t.withMetadata parent := heq.symm.trans (h.trans heq')
      _ = (t.after parent').withMetadata parent := (withMetadata_after hrevised').symm
  · have hone : s = t := by
      rw [after_eq_self hrefreshed, after_eq_self (hsame.outcome parent ▸ hrefreshed)] at h
      exact h
    rw [hone]

/-- A new set is not changed by its own entry. -/
theorem after_self (s : Beatmapset) : s.after s = s := by
  rcases update_cases s s with h | ⟨_, _, h⟩
  · exact h
  · have hmaps : s.beatmaps.map (Beatmap.refreshFrom s.beatmaps) = s.beatmaps := by
      conv_rhs => rw [← List.map_id s.beatmaps]
      refine List.map_congr_left fun m hm => ?_
      have hfound : (s.beatmaps.find? fun item => item.id == m.id) = some m :=
        (Assoc.find?_key s.nodup).mpr ⟨hm, rfl⟩
      simp only [Beatmap.refreshFrom, hfound]
      rfl
    rw [h]
    simp only [withMetadata, hmaps]

end Beatmapset

/-! ## A page -/

theorem RawSet.parse_eq_ok {raw : RawSet} {parent : Beatmapset} (h : raw.parse = .ok parent) :
    parent.id = raw.id ∧ parent.lastUpdated = raw.lastUpdated := by
  simp only [RawSet.parse, bind, Except.bind, pure, Except.pure] at h
  split at h
  · cases h
  · split at h
    · cases h
    · split at h
      · cases h
      · split at h
        · cases h
        · split at h
          · cases h
          · obtain rfl := Except.ok.inj h
            exact ⟨rfl, rfl⟩

/-- The set after an entry as the page has it. -/
def Beatmapset.afterRaw (existing : Beatmapset) (raw : RawSet) : Beatmapset :=
  match raw.parse with
  | .ok parent => existing.after parent
  | .error _ => existing

/-- An entry that is older than the stored copy leaves it alone. -/
theorem Beatmapset.afterRaw_of_newer {s : Beatmapset} {raw : RawSet}
    (h : raw.lastUpdated < s.lastUpdated) : s.afterRaw raw = s := by
  unfold afterRaw
  split
  case h_1 parent hparse =>
    rw [after, update, if_pos ((RawSet.parse_eq_ok hparse).2 ▸ h)]
  case h_2 => rfl

theorem Beatmapset.foldl_afterRaw_of_newer {s : Beatmapset} {entries : List RawSet}
    (h : ∀ raw ∈ entries, raw.lastUpdated < s.lastUpdated) : entries.foldl afterRaw s = s := by
  induction entries with
  | nil => rfl
  | cons raw rest ih =>
    obtain ⟨hraw, hrest⟩ := List.forall_mem_cons.mp h
    rw [List.foldl_cons, afterRaw_of_newer hraw, ih hrest]

theorem Beatmapset.foldl_afterRaw_again (entries : List RawSet) (s : Beatmapset) :
    entries.foldl afterRaw (entries.foldl afterRaw s) = entries.foldl afterRaw s := by
  refine foldl_again ?_ ?_ entries s
  · intro s raw
    unfold afterRaw
    cases raw.parse with
    | error => rfl
    | ok parent => exact s.after_after parent
  · intro s t raw raw' h
    unfold afterRaw at h ⊢
    cases hparse : raw.parse with
    | error =>
      rw [hparse] at h
      obtain rfl : s = t := h
      rfl
    | ok parent =>
      rw [hparse] at h
      cases raw'.parse with
      | error => exact h
      | ok parent' => exact Beatmapset.after_congr h

namespace Database

variable {db db' : Database} {raw : RawSet} {outcome : Outcome}

/-- What the import of an entry does: it is valid, and the row of its set is inserted or updated. -/
theorem importEntry_eq_ok (h : db.importEntry raw = .ok (outcome, db')) :
    ∃ parent, raw.parse = .ok parent ∧
      ((db.sets.row raw.id = none ∧ outcome = .inserted ∧ db'.sets = db.sets.put raw.id parent) ∨
        ∃ existing, db.sets.row raw.id = some existing ∧
          outcome = (existing.update parent).1 ∧
          db'.sets = db.sets.put raw.id (existing.after parent)) := by
  unfold importEntry at h
  cases hparse : raw.parse with
  | error => simp [hparse, bind, Except.bind] at h
  | ok parent =>
    obtain ⟨hid, _⟩ := RawSet.parse_eq_ok hparse
    refine ⟨parent, rfl, ?_⟩
    simp only [hparse, bind, Except.bind] at h
    split at h
    case h_1 hrow =>
      split at h
      case isTrue =>
        obtain ⟨rfl, rfl⟩ := Prod.mk.inj (Except.ok.inj h)
        exact .inl ⟨hid ▸ hrow, rfl, hid ▸ rfl⟩
      case isFalse => cases h
    case h_2 existing hrow =>
      obtain ⟨rfl, rfl⟩ := Prod.mk.inj (Except.ok.inj h)
      have hsame : (existing.update parent).2.id = raw.id := by
        rw [existing.id_update, db.keyed _ _ hrow, hid]
      exact .inr ⟨existing, hid ▸ hrow, rfl, hsame ▸ rfl⟩

/-- What the import of a page does to the row of a set: the first entry of a new set inserts it, and
every other entry updates it. -/
structure Imported (before after : Option Beatmapset) (entries : List RawSet) : Prop where
  stored : ∀ s, before = some s → after = some (entries.foldl Beatmapset.afterRaw s)
  absent : before = none → entries = [] ∧ after = none ∨ ∃ raw rest s, entries = raw :: rest ∧
    raw.parse = .ok s ∧ after = some (rest.foldl Beatmapset.afterRaw s)

theorem importEntries_row {entries : List RawSet} {outcomes : List (SetId × Outcome)}
    (h : db.importEntries entries = .ok (outcomes, db')) (k : SetId) :
    Imported (db.sets.row k) (db'.sets.row k) (entries.filter fun raw => raw.id == k) := by
  induction entries generalizing db outcomes with
  | nil =>
    obtain ⟨rfl, rfl⟩ := Prod.mk.inj (Except.ok.inj h)
    exact ⟨fun s hs => hs, fun hnone => .inl ⟨rfl, hnone⟩⟩
  | cons raw rest ih =>
    simp only [importEntries, bind, Except.bind] at h
    split at h
    case h_1 => cases h
    case h_2 first hfirst =>
      obtain ⟨outcome, middle⟩ := first
      split at h
      case h_1 => cases h
      case h_2 more hmore =>
        obtain ⟨outcomes', last⟩ := more
        obtain ⟨rfl, rfl⟩ := Prod.mk.inj (Except.ok.inj h)
        have hrest := ih hmore
        obtain ⟨parent, hparse, hcase⟩ := importEntry_eq_ok hfirst
        by_cases hk : raw.id = k
        · subst hk
          rw [List.filter_cons_of_pos (by simp)]
          rcases hcase with ⟨hnone, _, hput⟩ | ⟨existing, hsome, _, hput⟩
          · rw [hput, Catalog.row_put, if_pos rfl] at hrest
            rw [hnone]
            exact ⟨fun _ hs => (Option.some_ne_none _ hs.symm).elim,
              fun _ => .inr ⟨raw, _, parent, rfl, hparse, hrest.stored parent rfl⟩⟩
          · rw [hput, Catalog.row_put, if_pos rfl] at hrest
            rw [hsome]
            refine ⟨fun s hs => ?_, fun hnone => (Option.some_ne_none _ hnone).elim⟩
            obtain rfl := Option.some.inj hs
            have hafter : existing.afterRaw raw = existing.after parent := by
              rw [Beatmapset.afterRaw, hparse]
            rw [List.foldl_cons, hafter]
            exact hrest.stored _ rfl
        · rw [List.filter_cons_of_neg (by simpa using hk)]
          have hrow : middle.sets.row k = db.sets.row k := by
            rcases hcase with ⟨_, _, hput⟩ | ⟨_, _, _, hput⟩ <;>
              rw [hput, Catalog.row_put, if_neg (Ne.symm hk)]
          rw [← hrow]
          exact hrest

/-- Every entry of a page is valid, has an outcome and finds its set stored afterwards. -/
theorem importEntries_entry {entries : List RawSet} {outcomes : List (SetId × Outcome)}
    (h : db.importEntries entries = .ok (outcomes, db')) :
    outcomes.map (·.1) = entries.map (·.id) ∧
      ∀ raw ∈ entries, (∃ parent, raw.parse = .ok parent) ∧ (db'.sets.row raw.id).isSome := by
  have hrow := importEntries_row h
  suffices hparsed : outcomes.map (·.1) = entries.map (·.id) ∧
      ∀ raw ∈ entries, ∃ parent, raw.parse = .ok parent by
    refine ⟨hparsed.1, fun raw hraw => ⟨hparsed.2 raw hraw, ?_⟩⟩
    cases hbefore : db.sets.row raw.id with
    | some s => simp [(hrow raw.id).stored s hbefore]
    | none =>
      rcases (hrow raw.id).absent hbefore with ⟨hnil, _⟩ | ⟨_, _, _, _, _, hsome⟩
      · exact absurd (beq_self_eq_true raw.id) (List.filter_eq_nil_iff.mp hnil raw hraw)
      · simp [hsome]
  clear hrow
  induction entries generalizing db outcomes with
  | nil =>
    obtain ⟨rfl, rfl⟩ := Prod.mk.inj (Except.ok.inj h)
    exact ⟨rfl, by simp⟩
  | cons raw rest ih =>
    simp only [importEntries, bind, Except.bind] at h
    split at h
    case h_1 => cases h
    case h_2 first hfirst =>
      split at h
      case h_1 => cases h
      case h_2 more hmore =>
        obtain ⟨rfl, rfl⟩ := Prod.mk.inj (Except.ok.inj h)
        obtain ⟨parent, hparse, _⟩ := importEntry_eq_ok hfirst
        obtain ⟨hfst, hrest⟩ := ih hmore
        exact ⟨by rw [List.map_cons, List.map_cons, hfst],
          List.forall_mem_cons.mpr ⟨⟨parent, hparse⟩, hrest⟩⟩

/-- Valid entries of stored sets are imported, and no set is new. -/
theorem importEntries_of_stored {entries : List RawSet}
    (h : ∀ raw ∈ entries, (∃ parent, raw.parse = .ok parent) ∧ (db.sets.row raw.id).isSome) :
    ∃ outcomes db', db.importEntries entries = .ok (outcomes, db') ∧
      db'.sets.ids = db.sets.ids := by
  induction entries generalizing db with
  | nil => exact ⟨[], db, rfl, rfl⟩
  | cons raw rest ih =>
    obtain ⟨⟨⟨parent, hparse⟩, hstored⟩, hrest⟩ := List.forall_mem_cons.mp h
    obtain ⟨hid, _⟩ := RawSet.parse_eq_ok hparse
    obtain ⟨existing, hrow⟩ := Option.isSome_iff_exists.mp hstored
    obtain ⟨outcome, middle, hentry⟩ :
        ∃ outcome middle, db.importEntry raw = .ok (outcome, middle) := by
      simp only [importEntry, hparse, bind, Except.bind]
      split
      case h_1 hnone => exact absurd (hid ▸ hnone) (by simp [hrow])
      case h_2 => exact ⟨_, _, rfl⟩
    have hkept : middle.sets.ids = db.sets.ids := by
      obtain ⟨_, _, ⟨hnone, _⟩ | ⟨_, _, _, hput⟩⟩ := importEntry_eq_ok hentry
      · exact absurd hnone (by simp [hrow])
      · rw [hput, Catalog.ids_put_of_mem (Catalog.mem_of_row hrow)]
    have hmiddle : ∀ raw' ∈ rest, (∃ parent, raw'.parse = .ok parent) ∧
        (middle.sets.row raw'.id).isSome := by
      intro raw' hraw'
      refine ⟨(hrest raw' hraw').1, ?_⟩
      rw [← Catalog.mem_ids, hkept, Catalog.mem_ids]
      exact (hrest raw' hraw').2
    obtain ⟨outcomes, db', hmore, hids⟩ := ih hmiddle
    refine ⟨(raw.id, outcome) :: outcomes, db', ?_, hids.trans hkept⟩
    simp only [importEntries, hentry, hmore, bind, Except.bind]
    rfl

theorem ext_sets (h : db.sets = db'.sets) : db = db' := by
  cases db
  cases db'
  simpa using h

end Database

variable {db db' : Database} {sets : List RawSet} {outcomes : List (SetId × Outcome)}

/-- A page that has been imported changes nothing when it is imported again. -/
theorem importSearchPage_again (h : importSearchPage db sets = .ok (outcomes, db')) :
    ∃ outcomes', importSearchPage db' sets = .ok (outcomes', db') := by
  obtain ⟨outcomes', last, hagain, hids⟩ :=
    Database.importEntries_of_stored (Database.importEntries_entry h).2
  refine ⟨outcomes', ?_⟩
  have hrow : last.sets.row = db'.sets.row := by
    funext k
    have hfirst := Database.importEntries_row h k
    have hsecond := Database.importEntries_row hagain k
    cases hbefore : db.sets.row k with
    | some s =>
      have hafter := hfirst.stored s hbefore
      rw [hsecond.stored _ hafter, hafter, Beatmapset.foldl_afterRaw_again]
    | none =>
      rcases hfirst.absent hbefore with ⟨hnil, hafter⟩ | ⟨raw, rest, s, hentries, hparse, hafter⟩
      · rcases hsecond.absent hafter with ⟨_, hlast⟩ | ⟨_, _, _, hentries, _⟩
        · rw [hlast, hafter]
        · exact absurd (hnil.symm.trans hentries) (List.cons_ne_nil _ _).symm
      · -- the entry that has inserted the set does not change it
        have hself : s.afterRaw raw = s := by
          rw [Beatmapset.afterRaw, hparse]
          exact s.after_self
        have hfold : rest.foldl Beatmapset.afterRaw s =
            (raw :: rest).foldl Beatmapset.afterRaw s := by
          rw [List.foldl_cons, hself]
        rw [hsecond.stored _ hafter, hafter, hentries, hfold, Beatmapset.foldl_afterRaw_again]
  have hsame : last = db' := Database.ext_sets (Catalog.ext_rows hids hrow)
  exact hsame ▸ hagain

/-- What the import of a page leaves alone. -/
structure LeavesAlone (db db' : Database) (sets : List RawSet) : Prop where
  /-- The difficulties of a stored set, their checksums, statuses and deletion marks. -/
  difficulties : ∀ k s, db.sets.row k = some s → ∃ s', db'.sets.row k = some s' ∧
    s'.beatmaps.map Beatmap.revision = s.beatmaps.map Beatmap.revision
  /-- A set whose stored copy is newer than the page. -/
  newer : ∀ k s, db.sets.row k = some s →
    (∀ raw ∈ sets, raw.id = k → raw.lastUpdated < s.lastUpdated) → db'.sets.row k = some s

theorem leavesAlone (h : importSearchPage db sets = .ok (outcomes, db')) :
    LeavesAlone db db' sets where
  difficulties k s hs := by
    refine ⟨_, (Database.importEntries_row h k).stored s hs, ?_⟩
    refine foldl_leaves (fun s : Beatmapset => s.beatmaps.map Beatmap.revision) ?_ _ s
    intro s raw
    show (s.afterRaw raw).beatmaps.map Beatmap.revision = s.beatmaps.map Beatmap.revision
    unfold Beatmapset.afterRaw
    split
    · exact (s.sameRevision_after _).beatmaps
    · rfl
  newer k s hs hnewer := by
    rw [(Database.importEntries_row h k).stored s hs]
    refine congrArg some (Beatmapset.foldl_afterRaw_of_newer fun raw hraw => ?_)
    obtain ⟨hmem, hid⟩ := List.mem_filter.mp hraw
    exact hnewer raw ((List.mem_insertionSort _).mp hmem) (beq_iff_eq.mp hid)

end Soms.Catalogue

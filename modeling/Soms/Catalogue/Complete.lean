import Soms.Catalogue.Again
import Soms.Catalogue.Sync

/-!
# A complete catalogue

The cursor of a run separates the pages whose sets have been seen to from those ahead of it, in its
process as in Redis.  A run that is resumed goes on from the one it finds, or from the first page
where it finds none.
-/

namespace Soms.Catalogue

variable {upstream : Upstream} {db₀ : Database}

/-! ## The catalogue -/

/-- The page at a cursor names the next one. -/
def Follows (upstream : Upstream) (c c' : Option Cursor) : Prop :=
  c'.isSome ∧ truthy (upstream c).cursorString = c'

/-- A cursor that comes up when the pages are read from another one on. -/
abbrev Ahead (upstream : Upstream) : Option Cursor → Option Cursor → Prop :=
  Relation.ReflTransGen (Follows upstream)

/-- An entry of one of the pages that are read from the beginning. -/
def InCatalogue (upstream : Upstream) (raw : RawSet) : Prop :=
  ∃ c, Ahead upstream none c ∧ raw ∈ (upstream c).beatmapsets

theorem ahead_cases {c x : Option Cursor} (h : Ahead upstream c x) :
    x = c ∨ ∃ c', Follows upstream c c' ∧ Ahead upstream c' x := by
  rcases Relation.ReflTransGen.cases_head h with heq | hnext
  · exact .inl heq.symm
  · exact .inr hnext

/-! ## What has happened -/

abbrev History := List (Event × Sys)

def Event.isFresh : Event → Bool
  | .freshStart _ _ => true
  | _ => false

/-- The events since the last fresh start, the newest first. -/
def sinceFresh (past : History) : List Event := (past.map (·.1)).takeWhile fun e => !e.isFresh

/-- A committed import has had the outcome for the set. -/
def Imported (past : History) (id : SetId) (outcome : Outcome) : Prop :=
  ∃ outcomes, .imported outcomes ∈ sinceFresh past ∧ (id, outcome) ∈ outcomes

/-- The updater has returned for the set. -/
def Passed (past : History) (id : SetId) : Prop := ∃ db, .updated id db ∈ sinceFresh past

/-- What becomes of a set of the catalogue. -/
def SeenTo (past : History) (id : SetId) : Prop :=
  Imported past id .inserted ∨ Imported past id .refreshed ∨ Passed past id ∨
    Imported past id .newer

/-- The updater has returned for a missing set, or raised a 404, and the set is marked. -/
def Event.rechecks (e : Event) (id : SetId) : Prop :=
  (∃ db, e = .rechecked id db) ∨ e = .notFound id

/-- Since the tables have been asked for the known sets, all of them have been rechecked but those
of the catalogue and some others. -/
def Rechecked (upstream : Upstream) (past : History) (others : List SetId) : Prop :=
  ∃ later t earlier, past = later ++ (.queried, t) :: earlier ∧
    (∀ x ∈ later, x.1.isFresh = false) ∧
    ∀ id ∈ t.db.known, (∃ raw, InCatalogue upstream raw ∧ raw.id = id) ∨
      (∃ x ∈ later, x.1.rechecks id) ∨ id ∈ others

section Monotone

variable {past : History} {e : Event} {t : Sys} (hfresh : e.isFresh = false)

include hfresh

theorem sinceFresh_cons : sinceFresh ((e, t) :: past) = e :: sinceFresh past := by
  rw [sinceFresh, List.map_cons, List.takeWhile_cons, hfresh]
  rfl

theorem Imported.later {id : SetId} {outcome : Outcome} (h : Imported past id outcome) :
    Imported ((e, t) :: past) id outcome := by
  obtain ⟨outcomes, hmem, hout⟩ := h
  exact ⟨outcomes, sinceFresh_cons hfresh ▸ List.mem_cons_of_mem e hmem, hout⟩

theorem Passed.later {id : SetId} (h : Passed past id) : Passed ((e, t) :: past) id := by
  obtain ⟨db, hmem⟩ := h
  exact ⟨db, sinceFresh_cons hfresh ▸ List.mem_cons_of_mem e hmem⟩

theorem SeenTo.later {id : SetId} (h : SeenTo past id) : SeenTo ((e, t) :: past) id := by
  rcases h with h | h | h | h
  · exact .inl (h.later hfresh)
  · exact .inr (.inl (h.later hfresh))
  · exact .inr (.inr (.inl (h.later hfresh)))
  · exact .inr (.inr (.inr (h.later hfresh)))

theorem Rechecked.later {others : List SetId} (h : Rechecked upstream past others) :
    Rechecked upstream ((e, t) :: past) others := by
  obtain ⟨later, u, earlier, rfl, hnone, hall⟩ := h
  refine ⟨(e, t) :: later, u, earlier, rfl, List.forall_mem_cons.mpr ⟨hfresh, hnone⟩,
    fun id hid => ?_⟩
  rcases hall id hid with hcat | ⟨x, hx, hre⟩ | hother
  · exact .inl hcat
  · exact .inr (.inl ⟨x, List.mem_cons_of_mem _ hx, hre⟩)
  · exact .inr (.inr hother)

end Monotone

/-! ## The cursor -/

/-- The sets of a page have been seen to. -/
def Done (upstream : Upstream) (past : History) (c : Option Cursor) : Prop :=
  ∀ raw ∈ (upstream c).beatmapsets, SeenTo past raw.id

/-- The cursor is one of the catalogue, and what is not ahead of it is done. -/
structure Progress (upstream : Upstream) (past : History) (c : Option Cursor) : Prop where
  reached : Ahead upstream none c
  done : ∀ x, Ahead upstream none x → Done upstream past x ∨ Ahead upstream c x

def AllDone (upstream : Upstream) (past : History) : Prop :=
  ∀ x, Ahead upstream none x → Done upstream past x

theorem Progress.beginning (past : History) : Progress upstream past none :=
  ⟨.refl, fun _ hx => .inr hx⟩

theorem Progress.later {past : History} {c : Option Cursor} (h : Progress upstream past c)
    {e : Event} (hfresh : e.isFresh = false) (t : Sys) : Progress upstream ((e, t) :: past) c :=
  ⟨h.reached, fun x hx =>
    (h.done x hx).imp_left fun hdone raw hraw => (hdone raw hraw).later hfresh⟩

theorem AllDone.later {past : History} (h : AllDone upstream past) {e : Event}
    (hfresh : e.isFresh = false) (t : Sys) : AllDone upstream ((e, t) :: past) :=
  fun x hx raw hraw => (h x hx raw hraw).later hfresh

/-- A page that is done takes the cursor to the next one. -/
theorem Progress.advance {past : History} {c : Option Cursor} (h : Progress upstream past c)
    (hdone : Done upstream past c) (hnext : (truthy (upstream c).cursorString).isSome) :
    Progress upstream past (truthy (upstream c).cursorString) := by
  have hfollows : Follows upstream c (truthy (upstream c).cursorString) := ⟨hnext, rfl⟩
  refine ⟨h.reached.tail hfollows, fun x hx => ?_⟩
  rcases h.done x hx with hx | hx
  · exact .inl hx
  · rcases ahead_cases hx with rfl | ⟨c', ⟨_, rfl⟩, hrest⟩
    · exact .inl hdone
    · exact .inr hrest

/-- After the page without a next one all are done. -/
theorem Progress.finish {past : History} {c : Option Cursor} (h : Progress upstream past c)
    (hdone : Done upstream past c) (hlast : (truthy (upstream c).cursorString).isSome = false) :
    AllDone upstream past := by
  intro x hx
  rcases h.done x hx with hx | hx
  · exact hx
  · rcases ahead_cases hx with rfl | ⟨c', ⟨hsome, heq⟩, _⟩
    · exact hdone
    · rw [← heq, hlast] at hsome
      cases hsome

/-! ## Where a run is -/

def PhaseOk (upstream : Upstream) (past : History) : Phase → Prop
  | .idle => True
  | .clearing state | .starting state | .failing state _ => Progress upstream past state.position
  | .fetching _ state =>
    state.status = some .running ∧ Progress upstream past state.position
  | .importing _ state page =>
    state.status = some .running ∧ Progress upstream past state.position ∧
      page = upstream state.position
  | .refreshing _ state page refresh =>
    state.status = some .running ∧ Progress upstream past state.position ∧
      page = upstream state.position ∧
      ∀ raw ∈ page.beatmapsets, SeenTo past raw.id ∨ raw.id ∈ refresh
  | .counting _ state page =>
    state.status = some .running ∧ Progress upstream past state.position ∧
      page = upstream state.position ∧ Done upstream past state.position
  | .querying _ state =>
    state.status = some .running ∧ state.position = none ∧ AllDone upstream past
  | .rechecking _ state missing =>
    state.status = some .running ∧ state.position = none ∧ AllDone upstream past ∧
      Rechecked upstream past missing
  | .saving _ state | .extending _ state =>
    Progress upstream past state.position ∧ (state.status = some .running ∨
      state.status = some .complete ∧ AllDone upstream past ∧ Rechecked upstream past [])

structure Invariant (upstream : Upstream) (past : History) (s : Sys) : Prop where
  stored : ∀ state, s.stored = some state → state.isOver = false →
    Progress upstream past state.position
  seen : ∀ id ∈ s.seen, ∃ raw, InCatalogue upstream raw ∧ raw.id = id
  phase : PhaseOk upstream past s.phase

section Phases

variable {past : History} {phase : Phase} {state : State}

/-- The handler of an exception stores a cursor that is right. -/
theorem PhaseOk.progress (h : PhaseOk upstream past phase) (hstate : phase.state = some state) :
    Progress upstream past state.position := by
  cases phase with
  | idle | failing => cases hstate
  | clearing | starting =>
    obtain rfl := Option.some.inj hstate
    exact h
  | fetching =>
    obtain rfl := Option.some.inj hstate
    exact h.2
  | importing | refreshing | counting =>
    obtain rfl := Option.some.inj hstate
    exact h.2.1
  | querying | rechecking =>
    obtain rfl := Option.some.inj hstate
    exact h.2.1 ▸ .beginning past
  | saving | extending =>
    obtain rfl := Option.some.inj hstate
    exact h.1

theorem PhaseOk.later (h : PhaseOk upstream past phase) {e : Event} (hfresh : e.isFresh = false)
    (t : Sys) : PhaseOk upstream ((e, t) :: past) phase := by
  cases phase with
  | idle => trivial
  | clearing | starting | failing => exact Progress.later h hfresh t
  | fetching => exact ⟨h.1, h.2.later hfresh t⟩
  | importing => exact ⟨h.1, h.2.1.later hfresh t, h.2.2⟩
  | refreshing =>
    exact ⟨h.1, h.2.1.later hfresh t, h.2.2.1,
      fun raw hraw => (h.2.2.2 raw hraw).imp_left (SeenTo.later hfresh)⟩
  | counting =>
    exact ⟨h.1, h.2.1.later hfresh t, h.2.2.1, fun raw hraw => (h.2.2.2 raw hraw).later hfresh⟩
  | querying => exact ⟨h.1, h.2.1, h.2.2.later hfresh t⟩
  | rechecking => exact ⟨h.1, h.2.1, h.2.2.1.later hfresh t, h.2.2.2.later hfresh⟩
  | saving | extending =>
    exact ⟨h.1.later hfresh t,
      h.2.imp_right fun hall => ⟨hall.1, hall.2.1.later hfresh t, hall.2.2.later hfresh⟩⟩

end Phases

section Steps

variable {past : History} {s t : Sys} {e : Event}

/-- The steps that write neither key of Redis. -/
theorem Invariant.keep (h : Invariant upstream past s) (hfresh : e.isFresh = false)
    (hstored : t.stored = s.stored) (hseen : t.seen = s.seen)
    (hphase : PhaseOk upstream ((e, t) :: past) t.phase) :
    Invariant upstream ((e, t) :: past) t where
  stored state hstate hover := (h.stored state (hstored ▸ hstate) hover).later hfresh t
  seen := hseen ▸ h.seen
  phase := hphase

/-- The steps that store a state, and do not delete anything. -/
theorem Invariant.store (h : Invariant upstream past s) {state : State}
    (hstored : t.stored = some state) (hseen : t.seen = s.seen)
    (hprogress : Progress upstream ((e, t) :: past) state.position)
    (hphase : PhaseOk upstream ((e, t) :: past) t.phase) :
    Invariant upstream ((e, t) :: past) t where
  stored state' hstate _ := by
    rw [hstored, Option.some.injEq] at hstate
    exact hstate ▸ hprogress
  seen := hseen ▸ h.seen
  phase := hphase

/-- A committed import has seen to the sets of its page but those that it has found revised. -/
theorem seenTo_imported {db' : Database} {sets : List RawSet} {outcomes : List (SetId × Outcome)}
    (h : importSearchPage s.db sets = .ok (outcomes, db')) {raw : RawSet} (hraw : raw ∈ sets) :
    SeenTo ((.imported outcomes, t) :: past) raw.id ∨ raw.id ∈ refreshList outcomes := by
  have hids := (Database.importEntries_entry h).1
  have hmem : raw.id ∈ outcomes.map (·.1) := by
    rw [hids]
    exact List.mem_map_of_mem ((List.mem_insertionSort _).mpr hraw)
  obtain ⟨⟨id, outcome⟩, hout, heq⟩ := List.mem_map.mp hmem
  obtain rfl : id = raw.id := heq
  have himported : Imported ((.imported outcomes, t) :: past) raw.id outcome :=
    ⟨outcomes, sinceFresh_cons (e := .imported outcomes) rfl ▸ List.mem_cons_self, hout⟩
  cases outcome with
  | inserted => exact .inl (.inl himported)
  | refreshed => exact .inl (.inr (.inl himported))
  | newer => exact .inl (.inr (.inr (.inr himported)))
  | revision =>
    refine .inr (List.mem_map.mpr ⟨_, List.mem_filter.mpr ⟨hout, ?_⟩, rfl⟩)
    rfl

/-- A query that is answered leaves the known sets that have not been seen. -/
theorem rechecked_queried (hseen : ∀ id ∈ s.seen, ∃ raw, InCatalogue upstream raw ∧ raw.id = id)
    (hdb : t.db = s.db) : Rechecked upstream ((.queried, t) :: past)
      ((s.db.known.filter (· ∉ s.seen)).insertionSort (· ≤ ·)) := by
  refine ⟨[], t, past, rfl, by simp, fun id hid => ?_⟩
  by_cases hmem : id ∈ s.seen
  · exact .inl (hseen id hmem)
  · refine .inr (.inr ((List.mem_insertionSort _).mpr (List.mem_filter.mpr ⟨hdb ▸ hid, ?_⟩)))
    simpa using hmem

/-- A set that has been rechecked is no longer among the others. -/
theorem Rechecked.done {id : SetId} {rest : List SetId} (h : Rechecked upstream past (id :: rest))
    (hfresh : e.isFresh = false) (he : e.rechecks id) :
    Rechecked upstream ((e, t) :: past) rest := by
  obtain ⟨later, u, earlier, rfl, hnone, hall⟩ := h
  refine ⟨(e, t) :: later, u, earlier, rfl, List.forall_mem_cons.mpr ⟨hfresh, hnone⟩,
    fun id' hid => ?_⟩
  rcases hall id' hid with hcat | ⟨x, hx, hre⟩ | hother
  · exact .inl hcat
  · exact .inr (.inl ⟨x, List.mem_cons_of_mem _ hx, hre⟩)
  · rcases List.mem_cons.mp hother with rfl | hother
    · exact .inr (.inl ⟨(e, t), List.mem_cons_self, he⟩)
    · exact .inr (.inr hother)

theorem Invariant.step (h : Invariant upstream past s) (hstep : Step upstream s e t) :
    Invariant upstream ((e, t) :: past) t := by
  have hok := h.phase
  simp only [Step, Catalogue.step] at hstep
  split at hstep
  case h_1 force now hphase =>
    split at hstep
    case isTrue =>
      obtain rfl := Option.some.inj hstep
      exact h.keep rfl rfl rfl (hok.later rfl _)
    case isFalse => cases hstep
  case h_2 force now hphase =>
    split at hstep
    case isTrue hover =>
      obtain rfl := Option.some.inj hstep
      refine ⟨fun state hstate hnot => ?_, h.seen, Progress.beginning _⟩
      have hstored : s.stored = some state := hstate
      rw [hstored, Bool.and_eq_true] at hover
      exact absurd hover.2 (by simp [hnot])
    case isFalse => cases hstep
  case h_3 force now hphase =>
    split at hstep
    case isTrue hover =>
      obtain rfl := Option.some.inj hstep
      refine h.keep rfl rfl rfl ?_
      cases hstored : s.stored with
      | none =>
        rw [hstored] at hover
        exact absurd hover (by simp [State.isOver])
      | some state =>
        rw [hstored, Bool.and_eq_true] at hover
        exact (h.stored state hstored (by simpa using hover.2)).later rfl _
    case isFalse => cases hstep
  case h_4 error hphase =>
    obtain rfl := Option.some.inj hstep
    exact h.keep rfl rfl rfl (Progress.beginning _)
  case h_5 state hphase =>
    obtain rfl := Option.some.inj hstep
    rw [hphase] at hok
    refine ⟨fun state' hstate hover => (h.stored state' hstate hover).later rfl _, by simp, ?_⟩
    exact Progress.later hok rfl _
  case h_6 state hphase =>
    obtain rfl := Option.some.inj hstep
    rw [hphase] at hok
    have hprogress := Progress.later (e := .started) hok rfl
    exact h.store rfl rfl (hprogress _) ⟨rfl, hprogress _⟩
  case h_7 n state hphase =>
    rw [hphase] at hok
    split at hstep
    case h_1 =>
      obtain rfl := Option.some.inj hstep
      exact h.keep rfl rfl rfl ⟨hok.1, hok.2.later rfl _, rfl⟩
    case h_2 =>
      obtain rfl := Option.some.inj hstep
      exact h.keep rfl rfl rfl (hok.2.later rfl _)
  case h_8 outcomes n state page hphase =>
    rw [hphase] at hok
    split at hstep
    case h_1 outcomes' db himport =>
      split at hstep
      case isTrue heq =>
        obtain rfl := Option.some.inj hstep
        subst heq
        exact h.keep rfl rfl rfl ⟨hok.1, hok.2.1.later rfl _, hok.2.2,
          fun raw hraw => seenTo_imported himport hraw⟩
      case isFalse => cases hstep
    case h_2 => cases hstep
  case h_9 n state page hphase =>
    rw [hphase] at hok
    split at hstep
    case h_1 => cases hstep
    case h_2 =>
      obtain rfl := Option.some.inj hstep
      exact h.keep rfl rfl rfl (hok.2.1.later rfl _)
  case h_10 id db n state page next rest hphase =>
    rw [hphase] at hok
    split at hstep
    case isTrue heq =>
      obtain rfl := Option.some.inj hstep
      subst heq
      refine h.keep rfl rfl rfl ⟨hok.1, hok.2.1.later rfl _, hok.2.2.1, fun raw hraw => ?_⟩
      rcases hok.2.2.2 raw hraw with hseen | hmem
      · exact .inl (hseen.later rfl)
      · rcases List.mem_cons.mp hmem with heq | hmem
        · refine .inl (.inr (.inr (.inl ⟨db, ?_⟩)))
          rw [heq, sinceFresh_cons rfl]
          exact List.mem_cons_self
        · exact .inr hmem
    case isFalse => cases hstep
  case h_11 n state page hphase =>
    obtain rfl := Option.some.inj hstep
    rw [hphase] at hok
    obtain ⟨hstatus, hprogress, rfl, hall⟩ := hok
    refine ⟨fun state' hstate hover => (h.stored state' hstate hover).later rfl _, fun id hid => ?_,
      hstatus, hprogress.later rfl _, rfl, fun raw hraw => ?_⟩
    · rcases Finset.mem_union.mp hid with hid | hid
      · exact h.seen id hid
      · obtain ⟨raw, hraw, heq⟩ := List.mem_map.mp (List.mem_toFinset.mp hid)
        exact ⟨raw, ⟨_, hprogress.reached, hraw⟩, heq⟩
    · exact ((hall raw hraw).resolve_right List.not_mem_nil).later rfl
  case h_12 n state page hphase =>
    rw [hphase] at hok
    obtain ⟨hstatus, hprogress, rfl, hdone⟩ := hok
    have hdone' : ∀ u, Done upstream ((.counted, u) :: past) state.position :=
      fun u raw hraw => (hdone raw hraw).later rfl
    split at hstep
    case isTrue hnext =>
      obtain rfl := Option.some.inj hstep
      exact h.keep rfl rfl rfl ⟨(hprogress.later rfl _).advance (hdone' _) hnext, .inl hstatus⟩
    case isFalse hlast =>
      rw [Bool.not_eq_true] at hlast
      have hnone : (truthy (upstream state.position).cursorString) = none := by simpa using hlast
      split at hstep
      case isTrue =>
        obtain rfl := Option.some.inj hstep
        exact h.keep rfl rfl rfl
          (show Progress upstream _ (truthy _) from hnone ▸ Progress.beginning _)
      case isFalse =>
        obtain rfl := Option.some.inj hstep
        exact h.keep rfl rfl rfl
          ⟨hstatus, hnone, (hprogress.later rfl _).finish (hdone' _) hlast⟩
  case h_13 n state hphase =>
    obtain rfl := Option.some.inj hstep
    rw [hphase] at hok
    exact h.keep rfl rfl rfl ⟨hok.1, hok.2.1, hok.2.2.later rfl _, rechecked_queried h.seen rfl⟩
  case h_14 id db n state next rest hphase =>
    rw [hphase] at hok
    split at hstep
    case isTrue heq =>
      obtain rfl := Option.some.inj hstep
      subst heq
      exact h.keep rfl rfl rfl ⟨hok.1, hok.2.1, hok.2.2.1.later rfl _,
        hok.2.2.2.done rfl (.inl ⟨db, rfl⟩)⟩
    case isFalse => cases hstep
  case h_15 id n state next rest hphase =>
    rw [hphase] at hok
    split at hstep
    case isTrue heq =>
      obtain rfl := Option.some.inj hstep
      subst heq
      exact h.keep rfl rfl rfl ⟨hok.1, hok.2.1, hok.2.2.1.later rfl _,
        hok.2.2.2.done rfl (.inr rfl)⟩
    case isFalse => cases hstep
  case h_16 now n state hphase =>
    obtain rfl := Option.some.inj hstep
    rw [hphase] at hok
    obtain ⟨_, hposition, hall, hrechecked⟩ := hok
    refine h.keep rfl rfl rfl ⟨?_, .inr ⟨rfl, hall.later rfl _, hrechecked.later rfl⟩⟩
    exact (show Progress upstream _ state.position from hposition ▸ Progress.beginning _)
  case h_17 n state hphase =>
    obtain rfl := Option.some.inj hstep
    rw [hphase] at hok
    have hlater : ∀ u, PhaseOk upstream ((.saved, u) :: past) (.extending n state) :=
      PhaseOk.later hok rfl
    exact h.store rfl rfl (hlater _).1 (hlater _)
  case h_18 n state hphase =>
    rw [hphase] at hok
    split at hstep
    case isTrue =>
      obtain rfl := Option.some.inj hstep
      exact h.keep rfl rfl rfl trivial
    case isFalse hstatus =>
      split at hstep
      case isTrue =>
        obtain rfl := Option.some.inj hstep
        have hrunning := hok.2.resolve_right fun hall => hstatus hall.1
        exact h.keep rfl rfl rfl ⟨hrunning, hok.1.later rfl _⟩
      case isFalse =>
        obtain rfl := Option.some.inj hstep
        exact h.keep rfl rfl rfl (hok.1.later rfl _)
  case h_19 error phase =>
    obtain ⟨state, hstate, rfl⟩ := Option.map_eq_some_iff.mp hstep
    exact h.keep rfl rfl rfl ((hok.progress hstate).later rfl _)
  case h_20 state error hphase =>
    obtain rfl := Option.some.inj hstep
    rw [hphase] at hok
    exact h.store rfl rfl (Progress.later hok rfl _) trivial
  case h_21 =>
    obtain rfl := Option.some.inj hstep
    exact h.keep rfl rfl rfl trivial
  case h_22 db phase =>
    obtain rfl := Option.some.inj hstep
    exact h.keep rfl rfl rfl (hok.later rfl _)
  case h_23 => cases hstep

/-- What holds when the stored state becomes complete. -/
structure Caught (upstream : Upstream) (past : History) : Prop where
  sets : ∀ raw, InCatalogue upstream raw → SeenTo past raw.id
  known : Rechecked upstream past []

def Sys.isComplete (s : Sys) : Prop :=
  ∃ state, s.stored = some state ∧ state.status = some .complete

/-- The state is stored at the start of a run, after a page and by the handler. -/
theorem stored_step (hstep : Step upstream s e t) : t.stored = s.stored ∨
    (∃ state, t.stored = some state ∧ state.status ≠ some .complete) ∨
    ∃ n state, s.phase = .saving n state ∧ t.stored = some state := by
  simp only [Step, Catalogue.step] at hstep
  split at hstep
  case h_6 state hphase =>
    obtain rfl := Option.some.inj hstep
    exact .inr (.inl ⟨_, rfl, by simp⟩)
  case h_17 n state hphase =>
    obtain rfl := Option.some.inj hstep
    exact .inr (.inr ⟨n, state, hphase, rfl⟩)
  case h_19 =>
    obtain ⟨_, _, rfl⟩ := Option.map_eq_some_iff.mp hstep
    exact .inl rfl
  case h_20 state error hphase =>
    obtain rfl := Option.some.inj hstep
    exact .inr (.inl ⟨_, rfl, by simp⟩)
  -- the others change the phase, the tables or what has been seen
  all_goals
    refine .inl ?_
    repeat' split at hstep
    all_goals first
      | cases hstep; done
      | exact (congrArg Sys.stored (Option.some.inj hstep)).symm

/-- A state becomes complete where it is stored after the last page. -/
theorem Invariant.caught (h : Invariant upstream past s) (hstep : Step upstream s e t)
    (hbefore : ¬ s.isComplete) (hafter : t.isComplete) : Caught upstream past := by
  obtain ⟨state, hstored, hcomplete⟩ := hafter
  rcases stored_step hstep with hsame | ⟨state', hstored', hnot⟩ | ⟨n, state', hphase, hstored'⟩
  · exact absurd ⟨state, hsame ▸ hstored, hcomplete⟩ hbefore
  · rw [hstored, Option.some.injEq] at hstored'
    exact absurd hcomplete (hstored' ▸ hnot)
  · rw [hstored, Option.some.injEq] at hstored'
    subst hstored'
    have hok := h.phase
    rw [hphase] at hok
    rcases hok.2 with hrunning | ⟨_, hall, hrechecked⟩
    · exact absurd (hrunning.symm.trans hcomplete) (by simp)
    · exact ⟨fun raw ⟨c, hc, hraw⟩ => hall c hc raw hraw, hrechecked⟩

end Steps

/-! ## Whole runs -/

theorem Invariant.start (upstream : Upstream) (db : Database) :
    Invariant upstream [] (Sys.start db) where
  stored _ hstate := by cases hstate
  seen := by simp [Sys.start]
  phase := trivial

/-- The step makes the stored state complete. -/
def BecomesComplete (s t : Sys) : Prop := ¬ s.isComplete ∧ t.isComplete

/-- Whenever the stored state has become complete, all had been seen to. -/
def CaughtWhenComplete (upstream : Upstream) (db₀ : Database) (h : History) : Prop :=
  Every (fun past _ t =>
    BecomesComplete (endState (Sys.start db₀) past) t → Caught upstream past) h

/-- The sync of one upstream catalogue and its import.  A set whose stored copy is newer is left
alone. -/
structure CompleteAndResumable (upstream : Upstream) (db₀ : Database) : Prop where
  /-- In every sequence of runs the state becomes complete after all has been seen to. -/
  complete : ∀ h s, Trace (Step upstream) (fun _ _ => True) (Sys.start db₀) h s →
    CaughtWhenComplete upstream db₀ h
  /-- A page that is imported again changes nothing. -/
  again : ∀ db db' sets outcomes, importSearchPage db sets = .ok (outcomes, db') →
    ∃ outcomes', importSearchPage db' sets = .ok (outcomes', db')
  /-- The import leaves the difficulties of stored sets and newer copies alone. -/
  leaves : ∀ db db' sets outcomes, importSearchPage db sets = .ok (outcomes, db') →
    LeavesAlone db db' sets

theorem complete_and_resumable (upstream : Upstream) (db₀ : Database) :
    CompleteAndResumable upstream db₀ where
  complete h s hrun := by
    suffices hboth : Invariant upstream h s ∧ CaughtWhenComplete upstream db₀ h from hboth.2
    induction hrun with
    | refl => exact ⟨Invariant.start upstream db₀, trivial⟩
    | tail hpast _ hlast ih =>
      obtain ⟨hinv, hall⟩ := ih
      exact ⟨hinv.step hlast, hall, fun hbecomes =>
        hinv.caught hlast (hpast.endState_eq ▸ hbecomes.1) hbecomes.2⟩
  again _ _ _ _ h := importSearchPage_again h
  leaves _ _ _ _ h := leavesAlone h

/-! ## A newer copy

The catalogue has one set, of which a newer copy is stored. -/

def olderEntry : RawSet where
  id := 1
  trackId := some 42
  ranked := some 1
  lastUpdated := 5
  beatmaps := [⟨10, 1, false, some "a", 1, none, 4, 100, 90, 4, []⟩]

def newerCopy : Beatmapset where
  id := 1
  lastUpdated := 10
  beatmapStatus := .ranked
  trackId := some 42
  downloadDisabled := false
  availabilityInfo := none
  others := []
  beatmaps := [⟨10, "b", .ranked, none, 4, 100, 90, 4, []⟩]
  nodup := by decide

def withNewerCopy : Database where
  sets := Catalog.empty.put 1 newerCopy
  keyed i set h := by
    rw [Catalog.row_put, Catalog.row_empty] at h
    split at h
    case isTrue hi =>
      obtain rfl := Option.some.inj h
      exact hi.symm
    case isFalse => cases h
  distinct i j a b ha hb := by
    rw [Catalog.row_put, Catalog.row_empty] at ha hb
    split at ha
    case isTrue hi =>
      split at hb
      case isTrue hj => exact fun _ _ _ _ _ => hi.trans hj.symm
      case isFalse => cases hb
    case isFalse => cases ha

def olderUpstream : Upstream := fun _ => ⟨[olderEntry], none, some 1⟩

/-- The run that reads the page and finds the newer copy, the newest event first. -/
def leavesNewer : List Event :=
  [.finished 0, .queried, .counted, .recorded, .imported [(1, .newer)], .fetched, .started,
    .cleared, .freshStart false 0]

/-- As stated the sets that are left alone are missing. -/
theorem not_seen_to_newer : ¬ ∀ upstream db₀ h s,
    Trace (Step upstream) (fun _ _ => True) (Sys.start db₀) h s →
    Every (fun past _ t => BecomesComplete (endState (Sys.start db₀) past) t →
      (∀ raw, InCatalogue upstream raw → Imported past raw.id .inserted ∨
        Imported past raw.id .refreshed ∨ Passed past raw.id) ∧ Rechecked upstream past []) h := by
  intro hall
  have hbefore : ((historyOf? (step olderUpstream) (Sys.start withNewerCopy) leavesNewer).map
      fun h => (endState (Sys.start withNewerCopy) h).stored.map (·.status)) =
        some (some (some .running)) := by decide +kernel
  have hafter : ((historyOf? (step olderUpstream) (Sys.start withNewerCopy)
      (.saved :: leavesNewer)).map fun h =>
        (endState (Sys.start withNewerCopy) h).stored.map (·.status)) =
        some (some (some .complete)) := by decide +kernel
  obtain ⟨h, hh, hcomplete⟩ := Option.map_eq_some_iff.mp hafter
  obtain ⟨past, hpast, hlast⟩ := Option.bind_eq_some_iff.mp hh
  obtain ⟨t, ht, rfl⟩ := Option.map_eq_some_iff.mp hlast
  rw [hpast, Option.map_some, Option.some.injEq] at hbefore
  have hevents := (trace_historyOf? hpast).2
  have hlater := hall _ _ _ _ (trace_historyOf? hh).1
  have hbecomes : BecomesComplete (endState (Sys.start withNewerCopy) past) t := by
    constructor
    · intro ⟨state, hstored, hstatus⟩
      rw [hstored, Option.map_some, Option.some.injEq, hstatus] at hbefore
      cases hbefore
    · exact Option.map_eq_some_iff.mp hcomplete
  obtain ⟨hseen, _⟩ := hlater.2 hbecomes
  have hin : InCatalogue olderUpstream olderEntry := ⟨none, .refl, List.mem_cons_self⟩
  have hsince : sinceFresh past = leavesNewer.take 8 := by
    rw [sinceFresh, hevents]
    rfl
  rcases hseen olderEntry hin with ⟨outcomes, hmem, hout⟩ | ⟨outcomes, hmem, hout⟩ | ⟨db, hmem⟩
  · simp [hsince, leavesNewer] at hmem
    simp [hmem] at hout
  · simp [hsince, leavesNewer] at hmem
    simp [hmem] at hout
  · simp [hsince, leavesNewer] at hmem

end Soms.Catalogue

import Mathlib.Logic.Function.Basic
import Soms.Library.Run
import Soms.Pools.Saving

/-!
# Administrators who edit pools at the same time

Each request runs in a transaction of its own. `SELECT … FOR UPDATE` waits for the row and reads
its last committed version, and the row stays locked until the transaction ends; the catalogue is
read as it was when the transaction began.
-/

namespace Soms.Pools

/-- How far the request of an administrator has come. -/
inductive Phase where
  | idle
  /-- The transaction has begun, with what it sees of the catalogue. -/
  | opened (view : MapCatalog)
  /-- The row is locked and has passed the checks. -/
  | locked (view : MapCatalog) (edit : Edit) (before : Option Pool)

/-- What is committed, and the transactions under way. -/
structure Desk where
  pools : Nat → Option Pool
  catalog : MapCatalog
  phase : Nat → Phase

/-- A server without pools, over some catalogue. -/
def Desk.start (catalog : MapCatalog) : Desk :=
  { pools := fun _ => none, catalog, phase := fun _ => .idle }

/-- The request of an administrator has come to a phase. -/
def Desk.move (s : Desk) (admin : Nat) (phase : Phase) : Desk :=
  { s with phase := Function.update s.phase admin phase }

/-- A pool is committed, with the rows that were inserted for its maps. -/
def Desk.store (s : Desk) (id : Nat) (pool : Pool) (metadata : Metadata) : Desk :=
  { s with pools := Function.update s.pools id (some pool), catalog := s.catalog.add metadata }

/-- What `SELECT … FOR UPDATE` returns. -/
def Desk.row (s : Desk) (edit : Edit) : Option Pool := edit.poolId.bind s.pools

/-- The transaction holds the lock of the row. -/
def Desk.Holds (s : Desk) (admin id : Nat) : Prop :=
  ∃ view edit before, s.phase admin = .locked view edit before ∧ edit.poolId = some id

/-- A row to insert that the transaction does not see and another one has committed. -/
def duplicates {α : Type} (seen committed : Int → Option α) (rows : List (Int × α)) : Bool :=
  rows.any fun row => (seen row.1).isNone && (committed row.1).isSome

def Desk.duplicateKey (s : Desk) (view : MapCatalog) (edit : Edit) : Bool :=
  duplicates view.beatmapsets s.catalog.beatmapsets edit.metadata.beatmapsets ||
    duplicates view.beatmaps s.catalog.beatmaps edit.metadata.beatmaps

inductive Event where
  | opened (admin : Nat)
  | locked (admin : Nat) (edit : Edit)
  /-- The checks on the locked row refuse the edit. -/
  | refused (admin : Nat) (edit : Edit) (failure : Failure)
  /-- The edit is committed as the pool `id`. -/
  | saved (admin : Nat) (edit : Edit) (id : Nat)
  /-- The edit fails behind the checks and is rolled back. -/
  | failed (admin : Nat) (edit : Edit)
  /-- The transaction is given up. -/
  | aborted (admin : Nat)

inductive Step (strings : Strings) : Desk → Event → Desk → Prop
  | opened {s : Desk} {admin : Nat} (hphase : s.phase admin = .idle) :
      Step strings s (.opened admin)
        (s.move admin (.opened s.catalog))
  | locked {s : Desk} {admin : Nat} {view : MapCatalog} {edit : Edit} {before : Option Pool}
      (hphase : s.phase admin = .opened view)
      (hfree : ∀ id, edit.poolId = some id → ∀ other, ¬s.Holds other id)
      (hchecks : lockedPool edit (s.row edit) = .ok before) :
      Step strings s (.locked admin edit)
        (s.move admin (.locked view edit before))
  | refused {s : Desk} {admin : Nat} {view : MapCatalog} {edit : Edit} {failure : Failure}
      (hphase : s.phase admin = .opened view)
      (hfree : ∀ id, edit.poolId = some id → ∀ other, ¬s.Holds other id)
      (hchecks : lockedPool edit (s.row edit) = .error failure) :
      Step strings s (.refused admin edit failure)
        (s.move admin .idle)
  | saved {s : Desk} {admin id : Nat} {view : MapCatalog} {edit : Edit} {before : Option Pool}
      {pool : Pool} (hphase : s.phase admin = .locked view edit before)
      (hwritten : writtenPool strings view edit before = .ok pool)
      (hkeys : s.duplicateKey view edit = false)
      -- A new pool gets an id that no pool has.
      (hid : edit.poolId = some id ∨ edit.poolId = none ∧ s.pools id = none) :
      Step strings s (.saved admin edit id)
        ((s.store id pool edit.metadata).move admin .idle)
  | failed {s : Desk} {admin : Nat} {view : MapCatalog} {edit : Edit} {before : Option Pool}
      (hphase : s.phase admin = .locked view edit before)
      (hfailure : (∃ failure, writtenPool strings view edit before = .error failure) ∨
        s.duplicateKey view edit = true) :
      Step strings s (.failed admin edit)
        (s.move admin .idle)
  | aborted {s : Desk} {admin : Nat} :
      Step strings s (.aborted admin) (s.move admin .idle)

/-- A request that nobody interrupts does what `save_pool` does. -/
theorem savePool_steps {strings : Strings} {s : Desk} {admin id : Nat} {view : MapCatalog}
    {edit : Edit} {before : Option Pool} {pool : Pool} (hphase : s.phase admin = .opened view)
    (hfree : ∀ id, edit.poolId = some id → ∀ other, ¬s.Holds other id)
    (hsave : savePool strings view edit (s.row edit) = .ok (before, pool))
    (hkeys : s.duplicateKey view edit = false)
    (hid : edit.poolId = some id ∨ edit.poolId = none ∧ s.pools id = none) :
    ∃ locked saved, Step strings s (.locked admin edit) locked ∧
      Step strings locked (.saved admin edit id) saved ∧ saved.pools id = some pool := by
  obtain ⟨before', hchecks, hsave⟩ := Failure.bind_eq_ok hsave
  obtain ⟨pool', hwritten, hsave⟩ := Failure.bind_eq_ok hsave
  cases hsave
  have hlocked : (s.move admin (.locked view edit before)).phase admin = .locked view edit before :=
    Function.update_self _ _ _
  exact ⟨_, _, .locked hphase hfree hchecks, .saved hlocked hwritten hkeys hid,
    Function.update_self _ _ _⟩

/-- What holds of the committed pools and of the transactions under way. -/
structure Consistent (s : Desk) : Prop where
  ids : ∀ id pool, s.pools id = some pool → (pool.fields.slots.map SlotSpec.id).Nodup
  beatmaps : ∀ id pool, s.pools id = some pool →
    (pool.fields.slots.map SlotSpec.beatmapId).Nodup
  playable : ∀ id pool, s.pools id = some pool → pool.fields.active = true →
    Playable s.catalog pool.fields
  opened : ∀ admin view, s.phase admin = .opened view → view.Within s.catalog
  locked : ∀ admin view edit before, s.phase admin = .locked view edit before →
    view.Within s.catalog ∧ lockedPool edit (s.row edit) = .ok before
  exclusive : ∀ id admin other, s.Holds admin id → s.Holds other id → admin = other

section Rows

variable {α : Type} {seen committed : Int → Option α} {rows : List (Int × α)}

theorem or_lookup_within (hwithin : ∀ id row, seen id = some row → committed id = some row)
    (hkeys : duplicates seen committed rows = false) (id : Int) (row : α)
    (h : (seen id).or (rows.lookup id) = some row) :
    (committed id).or (rows.lookup id) = some row := by
  cases hseen : seen id with
  | some old =>
    rw [hseen, Option.some_or] at h
    rw [hwithin id old hseen, Option.some_or, h]
  | none =>
    rw [hseen, Option.none_or] at h
    cases hcommitted : committed id with
    | none => rwa [Option.none_or]
    | some old =>
      obtain ⟨before, after, hrows, -⟩ := List.lookup_eq_some_iff.mp h
      have hdup : duplicates seen committed rows = true := by
        rw [duplicates, List.any_eq_true]
        exact ⟨(id, row), by simp [hrows], by simp [hseen, hcommitted]⟩
      rw [hkeys] at hdup
      cases hdup

end Rows

section Steps

variable {strings : Strings} {s t : Desk} {e : Event} {view : MapCatalog} {edit : Edit}

theorem within_add (catalog : MapCatalog) (metadata : Metadata) :
    catalog.Within (catalog.add metadata) := by
  constructor <;> intro id row hrow
  · simp [MapCatalog.add, hrow]
  · simp [MapCatalog.add, hrow]

/-- What the transaction sees of its own writes is committed with them. -/
theorem add_within_add (h : view.Within s.catalog) (hkeys : s.duplicateKey view edit = false) :
    (view.add edit.metadata).Within (s.catalog.add edit.metadata) := by
  rw [Desk.duplicateKey, Bool.or_eq_false_iff] at hkeys
  exact ⟨or_lookup_within h.beatmaps hkeys.2, or_lookup_within h.beatmapsets hkeys.1⟩

theorem Desk.phase_move {admin other : Nat} {phase phase' : Phase}
    (h : (s.move admin phase).phase other = phase') :
    other = admin ∧ phase = phase' ∨ other ≠ admin ∧ s.phase other = phase' := by
  unfold Desk.move at h
  by_cases hother : other = admin
  · subst hother
    exact .inl ⟨rfl, (Function.update_self _ _ _).symm.trans h⟩
  · exact .inr ⟨hother, (Function.update_of_ne hother _ _).symm.trans h⟩

/-- A transaction that holds no lock moves on. -/
theorem Consistent.move (h : Consistent s) {admin : Nat} {phase : Phase}
    (hopened : ∀ view, phase = .opened view → view.Within s.catalog)
    (hlocked : ∀ view edit before, phase ≠ .locked view edit before) :
    Consistent (s.move admin phase) where
  ids := h.ids
  beatmaps := h.beatmaps
  playable := h.playable
  opened other view hphase := by
    obtain ⟨-, hphase⟩ | ⟨-, hphase⟩ := Desk.phase_move hphase
    · exact hopened view hphase
    · exact h.opened other view hphase
  locked other view edit before hphase := by
    obtain ⟨-, hphase⟩ | ⟨-, hphase⟩ := Desk.phase_move hphase
    · exact absurd hphase (hlocked view edit before)
    · exact h.locked other view edit before hphase
  exclusive id a b ha hb := by
    have hholds : ∀ c, (s.move admin phase).Holds c id → s.Holds c id := by
      rintro c ⟨view, edit, before, hphase, hid⟩
      obtain ⟨-, hphase⟩ | ⟨-, hphase⟩ := Desk.phase_move hphase
      · exact absurd hphase (hlocked view edit before)
      · exact ⟨view, edit, before, hphase, hid⟩
    exact h.exclusive id a b (hholds a ha) (hholds b hb)

theorem Consistent.lock (h : Consistent s) {admin : Nat} {before : Option Pool}
    (hphase : s.phase admin = .opened view)
    (hfree : ∀ id, edit.poolId = some id → ∀ other, ¬s.Holds other id)
    (hchecks : lockedPool edit (s.row edit) = .ok before) :
    Consistent (s.move admin (.locked view edit before)) where
  ids := h.ids
  beatmaps := h.beatmaps
  playable := h.playable
  opened other seen hother := by
    obtain ⟨-, hother⟩ | ⟨-, hother⟩ := Desk.phase_move hother
    · cases hother
    · exact h.opened other seen hother
  locked other seen edit' before' hother := by
    obtain ⟨-, hother⟩ | ⟨-, hother⟩ := Desk.phase_move hother
    · cases hother
      exact ⟨h.opened admin view hphase, hchecks⟩
    · exact h.locked other seen edit' before' hother
  exclusive id a b ha hb := by
    have hholds : ∀ c, (s.move admin (.locked view edit before)).Holds c id →
        c = admin ∧ edit.poolId = some id ∨ s.Holds c id := by
      rintro c ⟨seen, edit', before', hother, hid⟩
      obtain ⟨hc, hother⟩ | ⟨-, hother⟩ := Desk.phase_move hother
      · cases hother
        exact .inl ⟨hc, hid⟩
      · exact .inr ⟨seen, edit', before', hother, hid⟩
    obtain ⟨rfl, hid⟩ | ha := hholds a ha
    · obtain ⟨rfl, -⟩ | hb := hholds b hb
      · rfl
      · exact absurd hb (hfree id hid b)
    · obtain ⟨-, hid⟩ | hb := hholds b hb
      · exact absurd ha (hfree id hid a)
      · exact h.exclusive id a b ha hb

/-- The lock of a pool that is written is held by the transaction that writes it. -/
theorem Consistent.row_store (h : Consistent s) {admin other id : Nat} {pool : Pool}
    {before before' : Option Pool} {edit' : Edit} {view' : MapCatalog} (metadata : Metadata)
    (hphase : s.phase admin = .locked view edit before)
    (hid : edit.poolId = some id ∨ edit.poolId = none ∧ s.pools id = none)
    (hother : other ≠ admin) (hphase' : s.phase other = .locked view' edit' before') :
    (s.store id pool metadata).row edit' = s.row edit' := by
  cases hpool : edit'.poolId with
  | none => rw [Desk.row, Desk.row, hpool, Option.bind_none, Option.bind_none]
  | some id' =>
    have hne : id' ≠ id := by
      rintro rfl
      cases hid with
      | inl hid =>
        exact hother (h.exclusive id' other admin ⟨_, _, _, hphase', hpool⟩
          ⟨_, _, _, hphase, hid⟩)
      | inr hid =>
        have hchecks := (h.locked other view' edit' before' hphase').2
        rw [Desk.row, hpool, Option.bind_some, hid.2] at hchecks
        unfold lockedPool at hchecks
        rw [hpool] at hchecks
        cases hchecks
    rw [Desk.row, Desk.row, hpool, Option.bind_some, Option.bind_some]
    exact Function.update_of_ne hne _ _

theorem Consistent.save (h : Consistent s) {admin id : Nat} {before : Option Pool} {pool : Pool}
    (hphase : s.phase admin = .locked view edit before)
    (hwritten : writtenPool strings view edit before = .ok pool)
    (hkeys : s.duplicateKey view edit = false)
    (hid : edit.poolId = some id ∨ edit.poolId = none ∧ s.pools id = none) :
    Consistent ((s.store id pool edit.metadata).move admin .idle) := by
  obtain ⟨hids, hbeatmaps, hplayable, -⟩ := writtenPool_eq_ok hwritten
  have hpools : ∀ id' pool', (s.store id pool edit.metadata).pools id' = some pool' →
      pool' = pool ∨ s.pools id' = some pool' := by
    intro id' pool' hpool'
    by_cases hsame : id' = id
    · subst hsame
      exact .inl (Option.some.inj (hpool'.symm.trans (Function.update_self _ _ _)))
    · exact .inr ((Function.update_of_ne hsame _ _).symm.trans hpool')
  have hview : view.Within s.catalog := (h.locked admin view edit before hphase).1
  constructor
  · intro id' pool' hpool'
    obtain rfl | hold := hpools id' pool' hpool'
    · exact hids
    · exact h.ids id' pool' hold
  · intro id' pool' hpool'
    obtain rfl | hold := hpools id' pool' hpool'
    · exact hbeatmaps
    · exact h.beatmaps id' pool' hold
  · intro id' pool' hpool' hactive
    obtain rfl | hold := hpools id' pool' hpool'
    · exact (hplayable hactive).within (add_within_add hview hkeys)
    · exact (h.playable id' pool' hold hactive).within (within_add _ _)
  · intro other seen hother
    obtain ⟨-, hother⟩ | ⟨-, hother⟩ := Desk.phase_move hother
    · cases hother
    · exact (h.opened other seen hother).trans (within_add _ _)
  · intro other seen edit' before' hother
    obtain ⟨-, hother⟩ | ⟨hne, hother⟩ := Desk.phase_move hother
    · cases hother
    · obtain ⟨hseen, hchecks⟩ := h.locked other seen edit' before' hother
      refine ⟨hseen.trans (within_add _ _), ?_⟩
      rw [← hchecks]
      exact congrArg (lockedPool edit') (h.row_store edit.metadata hphase hid hne hother)
  · intro id' a b ha hb
    have hholds : ∀ c, ((s.store id pool edit.metadata).move admin .idle).Holds c id' →
        s.Holds c id' := by
      rintro c ⟨seen, edit', before', hother, hid'⟩
      obtain ⟨-, hother⟩ | ⟨-, hother⟩ := Desk.phase_move hother
      · cases hother
      · exact ⟨seen, edit', before', hother, hid'⟩
    exact h.exclusive id' a b (hholds a ha) (hholds b hb)

theorem Step.consistent (hstep : Step strings s e t) (h : Consistent s) : Consistent t := by
  cases hstep with
  | opened hphase =>
    exact h.move (fun view hview => by cases hview; exact .refl _) (by simp)
  | locked hphase hfree hchecks => exact h.lock hphase hfree hchecks
  | refused hphase hfree hchecks => exact h.move (by simp) (by simp)
  | saved hphase hwritten hkeys hid => exact h.save hphase hwritten hkeys hid
  | failed hphase hfailure => exact h.move (by simp) (by simp)
  | aborted => exact h.move (by simp) (by simp)

theorem consistent_start (catalog : MapCatalog) : Consistent (Desk.start catalog) := by
  constructor
  · intro id pool hpool
    cases hpool
  · intro id pool hpool
    cases hpool
  · intro id pool hpool
    cases hpool
  · intro admin view hphase
    cases hphase
  · intro admin view edit before hphase
    cases hphase
  · rintro id admin other ⟨view, edit, before, hphase, -⟩
    cases hphase

/-- The pool that an edit replaces is the one its checks have read, and the edit raises its
revision by one; a new pool has the revision one. -/
theorem Consistent.saved_revision (h : Consistent s) {admin id : Nat} {before : Option Pool}
    {pool : Pool} (hphase : s.phase admin = .locked view edit before)
    (hwritten : writtenPool strings view edit before = .ok pool)
    (hid : edit.poolId = some id ∨ edit.poolId = none ∧ s.pools id = none) :
    (∃ old, edit.poolId = some id ∧ s.pools id = some old ∧
        edit.expectedRevision = some old.revision ∧ pool.revision = old.revision + 1) ∨
      edit.poolId = none ∧ s.pools id = none ∧ edit.expectedRevision = none ∧
        pool.revision = 1 := by
  have hchecks := (h.locked admin view edit before hphase).2
  have hrevision := (writtenPool_eq_ok hwritten).2.2.2
  cases before with
  | none =>
    obtain ⟨hnone, hexpected⟩ := lockedPool_none hchecks
    cases hid with
    | inl hid => rw [hnone] at hid; cases hid
    | inr hid => exact .inr ⟨hnone, hid.2, hexpected, hrevision⟩
  | some old =>
    obtain ⟨hsome, hrow, hexpected⟩ := lockedPool_some hchecks
    cases hid with
    | inl hid =>
      rw [Desk.row, hid, Option.bind_some] at hrow
      exact .inl ⟨old, hid, hrow, hexpected, hrevision⟩
    | inr hid => rw [hid.1] at hsome; cases hsome

end Steps

/-! ## Runs -/

/-- What a state keeps of the pools of an earlier one: their revisions only grow, and a revision
has one content. -/
def Succeeds (s t : Desk) : Prop :=
  ∀ id pool, s.pools id = some pool → ∃ pool', t.pools id = some pool' ∧
    pool.revision ≤ pool'.revision ∧ (pool.revision = pool'.revision → pool' = pool)

/-- The revision that an edit names is not the one its pool has. -/
def Stale (s : Desk) (edit : Edit) : Prop :=
  ∃ id pool, edit.poolId = some id ∧ s.pools id = some pool ∧
    edit.expectedRevision ≠ some pool.revision

/-- Nothing is committed. -/
def Unchanged (s t : Desk) : Prop := t.pools = s.pools ∧ t.catalog = s.catalog

/-- The states that a run has gone through. -/
def states (s₀ : Desk) (past : List (Event × Desk)) : List Desk := s₀ :: past.map Prod.snd

/-- What a committed edit has replaced: the pool of the revision it names, as it was in every
state in which it had that revision, and its own revision is the next one. -/
def Replaces (s₀ : Desk) (past : List (Event × Desk)) (edit : Edit) (id : Nat) (pool : Pool) :
    Prop :=
  ∃ old, edit.poolId = some id ∧ (endState s₀ past).pools id = some old ∧
    edit.expectedRevision = some old.revision ∧ pool.revision = old.revision + 1 ∧
    ∀ s ∈ states s₀ past, ∀ seen, s.pools id = some seen →
      edit.expectedRevision = some seen.revision → seen = old

/-- A committed edit that makes a new pool. -/
def Creates (s₀ : Desk) (past : List (Event × Desk)) (edit : Edit) (id : Nat) (pool : Pool) :
    Prop :=
  edit.poolId = none ∧ (endState s₀ past).pools id = none ∧ edit.expectedRevision = none ∧
    pool.revision = 1

/-- No step loses an edit. -/
def NoneLost (s₀ : Desk) (past : List (Event × Desk)) : Event → Desk → Prop
  | .locked _ edit, t => ¬Stale (endState s₀ past) edit ∧ Unchanged (endState s₀ past) t
  | .refused _ edit failure, t =>
    (Stale (endState s₀ past) edit → ∃ detail, failure = .http 409 detail) ∧
      Unchanged (endState s₀ past) t
  | .saved _ edit id, t =>
    ∃ pool, t.pools = Function.update (endState s₀ past).pools id (some pool) ∧
      (Replaces s₀ past edit id pool ∨ Creates s₀ past edit id pool)
  | _, t => Unchanged (endState s₀ past) t

/-- The stored pools have one slot for each name and for each map, and an active one has no
validation errors. -/
def Stored (s : Desk) : Prop :=
  ∀ id pool, s.pools id = some pool → (pool.fields.slots.map SlotSpec.id).Nodup ∧
    (pool.fields.slots.map SlotSpec.beatmapId).Nodup ∧
    (pool.fields.active = true → Playable s.catalog pool.fields)

section Runs

variable {strings : Strings} {s t u s₀ : Desk} {e : Event} {past : List (Event × Desk)}

theorem Succeeds.refl (s : Desk) : Succeeds s s :=
  fun _ pool hpool => ⟨pool, hpool, le_rfl, fun _ => rfl⟩

theorem Succeeds.trans (hst : Succeeds s t) (htu : Succeeds t u) : Succeeds s u := by
  intro id pool hpool
  obtain ⟨pool', hpool', hle, hsame⟩ := hst id pool hpool
  obtain ⟨pool'', hpool'', hle', hsame'⟩ := htu id pool' hpool'
  refine ⟨pool'', hpool'', hle.trans hle', fun hrevision => ?_⟩
  rw [hsame' (by omega), hsame (by omega)]

theorem Step.succeeds (hstep : Step strings s e t) (h : Consistent s) : Succeeds s t := by
  cases hstep with
  | @saved admin id view edit before pool hphase hwritten hkeys hid =>
    intro id' old hold
    by_cases hsame : id' = id
    · subst hsame
      refine ⟨pool, Function.update_self _ _ _, ?_⟩
      obtain ⟨old', -, hold', -, hrevision⟩ | ⟨-, hnone, -⟩ :=
        h.saved_revision hphase hwritten hid
      · obtain rfl := Option.some.inj (hold.symm.trans hold')
        exact ⟨by omega, by omega⟩
      · rw [hnone] at hold
        cases hold
    · exact ⟨old, (Function.update_of_ne hsame _ _).trans hold, le_rfl, fun _ => rfl⟩
  | opened | locked | refused | failed | aborted => exact .refl _

theorem lockedPool_not_stale {edit : Edit} {before : Option Pool}
    (hchecks : lockedPool edit (s.row edit) = .ok before) : ¬Stale s edit := by
  rintro ⟨id, pool, hid, hpool, hstale⟩
  obtain ⟨detail, hrefused⟩ := lockedPool_stale hid hstale
  rw [Desk.row, hid, Option.bind_some, hpool, hrefused] at hchecks
  cases hchecks

/-- The step lemma: what the past states have kept, the next step keeps. -/
theorem Step.keepsEdits (hstep : Step strings s e t) (h : Consistent s) (hs : endState s₀ past = s)
    (hpast : ∀ x ∈ states s₀ past, Succeeds x s) : NoneLost s₀ past e t := by
  subst hs
  cases hstep with
  | opened hphase => exact ⟨rfl, rfl⟩
  | locked hphase hfree hchecks => exact ⟨lockedPool_not_stale hchecks, rfl, rfl⟩
  | refused hphase hfree hchecks =>
    refine ⟨?_, ⟨rfl, rfl⟩⟩
    rintro ⟨id, pool, hid, hpool, hstale⟩
    obtain ⟨detail, hrefused⟩ := lockedPool_stale hid hstale
    rw [Desk.row, hid, Option.bind_some, hpool, hrefused] at hchecks
    cases hchecks
    exact ⟨detail, rfl⟩
  | @saved admin id view edit before pool hphase hwritten hkeys hid =>
    refine ⟨pool, rfl, ?_⟩
    obtain ⟨old, hid, hold, hexpected, hrevision⟩ | ⟨hid, hnone, hexpected, hrevision⟩ :=
      h.saved_revision hphase hwritten hid
    · refine .inl ⟨old, hid, hold, hexpected, hrevision, ?_⟩
      intro x hx seen hseen hsame
      obtain ⟨pool', hpool', -, hcontent⟩ := hpast x hx id seen hseen
      obtain rfl := Option.some.inj (hold.symm.trans hpool')
      exact (hcontent (Option.some.inj (hsame.symm.trans hexpected))).symm
    · exact .inr ⟨hid, hnone, hexpected, hrevision⟩
  | failed hphase hfailure => exact ⟨rfl, rfl⟩
  | aborted => exact ⟨rfl, rfl⟩

theorem Consistent.stored (h : Consistent s) : Stored s :=
  fun id pool hpool => ⟨h.ids id pool hpool, h.beatmaps id pool hpool, h.playable id pool hpool⟩

/-- A pool of one map that is not offered to players. -/
def draft : PoolSpec where
  name := ['a', 'b']
  rulesetId := 0
  variantId := 0
  active := false
  ratingMin := 0
  ratingMax := 5000
  bestOf := 7
  bansPerTeam := 1
  slots := [⟨['N', 'M', '1'], 1, none, none⟩]
  sourceRankMin := none
  sourceRankMax := none
  valid := by decide

def draftEdit : Edit :=
  { spec := draft, poolId := none, expectedRevision := none, metadata := ⟨[], []⟩,
    provenance := none, append := false }

def noMaps : MapCatalog := { beatmaps := fun _ => none, beatmapsets := fun _ => none }

end Runs

end Soms.Pools

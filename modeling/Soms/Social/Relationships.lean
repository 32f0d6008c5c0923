import Soms.Library.Run
import Soms.Library.Table
import Soms.Library.Txn

/-!
# Follows and blocks

`add_relationship` and `delete_relationship` of `router/v2/relationship.py`.  A user has
at most one relationship to another one.  A block removes a follow the other way, but a
later follow is not held against it.
-/

namespace Soms.Social

abbrev UserId := Nat

inductive RelationshipType where
  | follow | block
  deriving DecidableEq, Repr

structure Relationship where
  userId : UserId
  targetId : UserId
  type : RelationshipType
  deriving DecidableEq, Repr

inductive ErrorType where
  | accountRestricted
  | targetUserNotFound
  | cannotAddRelationshipToSelf
  | relationshipNotFound
  | relationshipTypeMismatch
  deriving DecidableEq, Repr

structure State where
  /-- Whether a user is registered. -/
  registered : UserId → Bool
  restricted : UserId → Bool
  rows : Table Relationship

namespace State

/-- The relationship of a user to another one. -/
def relationship (uid target : UserId) (s : State) : Option (Nat × Relationship) :=
  s.rows.find fun x => x.userId == uid && x.targetId == target

/-- Set the type of the relationship, or add one. -/
def setRelationship (uid target : UserId) (type : RelationshipType) (s : State) : State :=
  match s.relationship uid target with
  | some (i, _) => { s with rows := s.rows.modify i fun x => { x with type := type } }
  | none => { s with rows := s.rows.insert ⟨uid, target, type⟩ }

/-- Delete the relationship if it is a follow. -/
def unfollow (uid target : UserId) (s : State) : State :=
  match s.relationship uid target with
  | some (i, x) => if x.type = .follow then { s with rows := s.rows.delete i } else s
  | none => s

/-- The target can be found. -/
def found (target : UserId) (s : State) : Bool := s.registered target && !s.restricted target

end State

def addRelationship (uid target : UserId) (type : RelationshipType) : Txn State ErrorType Unit := do
  Txn.refuse (fun s => s.restricted uid = true) .accountRestricted
  Txn.refuse (fun s => s.found target = false) .targetUserNotFound
  Txn.refuse (fun _ => target = uid) .cannotAddRelationshipToSelf
  Txn.write (State.setRelationship uid target type)
  Txn.when (type == .block) (Txn.write (State.unfollow target uid))

def deleteRelationship (uid target : UserId) (type : RelationshipType) :
    Txn State ErrorType Unit := do
  Txn.refuse (fun s => s.restricted uid = true) .accountRestricted
  Txn.refuse (fun s => s.found target = false) .targetUserNotFound
  let row ← Txn.require (State.relationship uid target) .relationshipNotFound
  Txn.refuse (fun _ => row.2.type ≠ type) .relationshipTypeMismatch
  Txn.write fun s => { s with rows := s.rows.delete row.1 }

inductive Event where
  | add (uid target : UserId) (type : RelationshipType)
  | delete (uid target : UserId) (type : RelationshipType)
  | register (uid : UserId)
  | setRestricted (uid : UserId) (restricted : Bool)

def State.after (s : State) : Event → State
  | .add uid target type => (addRelationship uid target type).commit s
  | .delete uid target type => (deleteRelationship uid target type).commit s
  | .register uid => { s with registered := Function.update s.registered uid true }
  | .setRestricted uid restricted =>
    { s with restricted := Function.update s.restricted uid restricted }

def State.empty : State := ⟨fun _ => false, fun _ => false, .empty⟩

inductive Step : State → Event → State → Prop
  | mk (s : State) (e : Event) : Step s e (s.after e)

/-- One user's relationship to another. -/
def State.Relates (s : State) (uid target : UserId) (type : RelationshipType) : Prop :=
  ∃ i, s.rows.row i = some ⟨uid, target, type⟩

/-- A user has at most one relationship to another, and none to themselves. -/
structure Distinct (s : State) : Prop where
  unique : ∀ i j x y, s.rows.row i = some x → s.rows.row j = some y → x.userId = y.userId →
    x.targetId = y.targetId → i = j
  notSelf : ∀ i x, s.rows.row i = some x → x.userId ≠ x.targetId

/-- What the relationships keep to. -/
structure Lawful (s : State) : Prop extends Distinct s where
  blocked : ∀ uid target, s.Relates uid target .block → ¬ s.Relates target uid .follow

/-- After the event the relationships are lawful. -/
def StaysLawful (_ : List (Event × State)) (_ : Event) (t : State) : Prop := Lawful t

/-- The event is no follow of a user who has blocked the follower. -/
def NoFollowBack (past : List (Event × State)) (e : Event) (_ : State) : Prop :=
  let s := endState State.empty past
  match e with
  | .add uid target .follow =>
    s.restricted uid = false → s.found target = true → target ≠ uid →
      ¬ s.Relates target uid .block
  | _ => True

variable {s t : State} {uid target uid' target' : UserId} {type type' : RelationshipType}

theorem relationship_some {i : Nat} {x : Relationship}
    (h : s.relationship uid target = some (i, x)) :
    s.rows.row i = some x ∧ x.userId = uid ∧ x.targetId = target := by
  obtain ⟨hrow, hx⟩ := Table.find_some h
  simp only [Bool.and_eq_true, beq_iff_eq] at hx
  exact ⟨hrow, hx⟩

theorem relationship_none (h : s.relationship uid target = none) {i : Nat} {x : Relationship}
    (hrow : s.rows.row i = some x) : ¬ (x.userId = uid ∧ x.targetId = target) := by
  have := Table.find_none h hrow
  simpa using this

theorem addRelationship_ok {u : Unit} : addRelationship uid target type s = (.ok u, t) ↔
    s.restricted uid = false ∧ s.found target = true ∧ target ≠ uid ∧
      t = if type = .block then (s.setRelationship uid target type).unfollow target uid
        else s.setRelationship uid target type := by
  simp only [addRelationship, Txn.bind_ok, Txn.refuse_ok, Txn.write_ok, Txn.when_ok]
  constructor
  · rintro ⟨_, _, ⟨hrestricted, rfl⟩, _, _, ⟨hfound, rfl⟩, _, _, ⟨hself, rfl⟩, _, _, rfl, hblock⟩
    refine ⟨by simpa using hrestricted, by simpa using hfound, hself, ?_⟩
    rcases hblock with ⟨htype, rfl⟩ | ⟨htype, rfl⟩
    · rw [if_pos (by simpa using htype)]
    · rw [if_neg (by simpa using htype)]
  · rintro ⟨hrestricted, hfound, hself, rfl⟩
    refine ⟨(), s, ⟨by simp [hrestricted], rfl⟩, (), s, ⟨by simp [hfound], rfl⟩, (), s, ⟨hself, rfl⟩,
      (), _, rfl, ?_⟩
    by_cases htype : type = .block
    · exact .inl ⟨by simpa using htype, by rw [if_pos htype]⟩
    · exact .inr ⟨by simpa using htype, by rw [if_neg htype]⟩

theorem deleteRelationship_ok {u : Unit} (h : deleteRelationship uid target type s = (.ok u, t)) :
    ∃ i, t = { s with rows := s.rows.delete i } := by
  simp only [deleteRelationship, Txn.bind_ok, Txn.refuse_ok, Txn.require_ok, Txn.write_ok] at h
  obtain ⟨_, _, ⟨-, rfl⟩, _, _, ⟨-, rfl⟩, row, _, ⟨-, rfl⟩, _, _, ⟨-, rfl⟩, rfl⟩ := h
  exact ⟨row.1, rfl⟩

/-! ## The rows after a request -/

/-- Fewer rows. -/
theorem Distinct.mono (h : Distinct s)
    (hrows : ∀ i x, t.rows.row i = some x → s.rows.row i = some x) : Distinct t where
  unique := fun i j x y hx hy => h.unique i j x y (hrows i x hx) (hrows j y hy)
  notSelf := fun i x hx => h.notSelf i x (hrows i x hx)

theorem Lawful.mono (h : Lawful s) (hrows : ∀ i x, t.rows.row i = some x → s.rows.row i = some x) :
    Lawful t where
  toDistinct := h.toDistinct.mono hrows
  blocked := by
    rintro uid target ⟨i, hi⟩ ⟨j, hj⟩
    exact h.blocked uid target ⟨i, hrows i _ hi⟩ ⟨j, hrows j _ hj⟩

theorem rows_delete {k : Nat} {i : Nat} {x : Relationship} (h : (s.rows.delete k).row i = some x) :
    s.rows.row i = some x := by
  rw [Table.row_delete] at h
  split at h
  · simp at h
  · exact h

theorem rows_unfollow {i : Nat} {x : Relationship}
    (h : (s.unfollow uid target).rows.row i = some x) : s.rows.row i = some x := by
  unfold State.unfollow at h
  split at h
  · split at h
    · exact rows_delete h
    · exact h
  · exact h

theorem not_follows_unfollow (h : Distinct s) :
    ¬ (s.unfollow uid target).Relates uid target .follow := by
  rintro ⟨i, hrow⟩
  have hold := rows_unfollow hrow
  cases hfound : s.relationship uid target with
  | none => exact relationship_none hfound hold ⟨rfl, rfl⟩
  | some found =>
    obtain ⟨k, x⟩ := found
    obtain ⟨hx, huser, htarget⟩ := relationship_some hfound
    obtain rfl := h.unique k i x _ hx hold huser htarget
    obtain rfl := Option.some.inj (hx.symm.trans hold)
    simp [State.unfollow, hfound] at hrow

/-- The relationships after one is set. -/
theorem relates_setRelationship (h : Distinct s) :
    (s.setRelationship uid target type).Relates uid' target' type' ↔
      if uid' = uid ∧ target' = target then type' = type else s.Relates uid' target' type' := by
  unfold State.setRelationship
  cases hfound : s.relationship uid target with
  | none =>
    simp only [State.Relates, Table.row_insert]
    constructor
    · rintro ⟨i, hrow⟩
      split at hrow
      · obtain ⟨rfl, rfl, rfl⟩ := Relationship.mk.inj (Option.some.inj hrow)
        rw [if_pos ⟨rfl, rfl⟩]
      · rw [if_neg (relationship_none hfound hrow)]
        exact ⟨i, hrow⟩
    · intro hrelates
      split at hrelates
      · next hpair =>
        obtain ⟨rfl, rfl⟩ := hpair
        exact ⟨s.rows.next, by rw [if_pos rfl, hrelates]⟩
      · obtain ⟨i, hrow⟩ := hrelates
        exact ⟨i, by rw [if_neg (Nat.ne_of_lt (Table.lt_next hrow)), hrow]⟩
  | some found =>
    obtain ⟨k, x⟩ := found
    obtain ⟨hx, rfl, rfl⟩ := relationship_some hfound
    simp only [State.Relates, Table.row_modify]
    constructor
    · rintro ⟨i, hrow⟩
      split at hrow
      · next hi =>
        subst hi
        rw [hx] at hrow
        obtain ⟨rfl, rfl, rfl⟩ := Relationship.mk.inj (Option.some.inj hrow)
        rw [if_pos ⟨rfl, rfl⟩]
      · next hi =>
        rw [if_neg fun hpair => hi (h.unique i k _ x hrow hx hpair.1 hpair.2)]
        exact ⟨i, hrow⟩
    · intro hrelates
      split at hrelates
      · next hpair =>
        obtain ⟨rfl, rfl⟩ := hpair
        exact ⟨k, by rw [if_pos rfl, hx, hrelates]; rfl⟩
      · next hpair =>
        obtain ⟨i, hrow⟩ := hrelates
        refine ⟨i, ?_⟩
        rw [if_neg, hrow]
        rintro rfl
        obtain rfl := Option.some.inj (hx.symm.trans hrow)
        exact hpair ⟨rfl, rfl⟩

theorem Distinct.setRelationship (h : Distinct s) (hself : target ≠ uid) :
    Distinct (s.setRelationship uid target type) := by
  unfold State.setRelationship
  cases hfound : s.relationship uid target with
  | none =>
    constructor
    · intro i j x y hx hy huser htarget
      simp only [Table.row_insert] at hx hy
      split at hx <;> split at hy
      · next hi hj => exact hi.trans hj.symm
      · obtain rfl := Option.some.inj hx
        exact absurd ⟨huser.symm, htarget.symm⟩ (relationship_none hfound hy)
      · obtain rfl := Option.some.inj hy
        exact absurd ⟨huser, htarget⟩ (relationship_none hfound hx)
      · exact h.unique i j x y hx hy huser htarget
    · intro i x hx
      simp only [Table.row_insert] at hx
      split at hx
      · obtain rfl := Option.some.inj hx
        exact hself.symm
      · exact h.notSelf i x hx
  | some found =>
    obtain ⟨k, row⟩ := found
    have hrows : ∀ i x, (s.rows.modify k fun x => { x with type := type }).row i = some x →
        ∃ y, s.rows.row i = some y ∧ x.userId = y.userId ∧ x.targetId = y.targetId := by
      intro i x hx
      rw [Table.row_modify] at hx
      split at hx
      · obtain ⟨y, hy, rfl⟩ := Option.map_eq_some_iff.mp hx
        exact ⟨y, hy, rfl, rfl⟩
      · exact ⟨x, hx, rfl, rfl⟩
    constructor
    · intro i j x y hx hy huser htarget
      obtain ⟨x', hx', huser', htarget'⟩ := hrows i x hx
      obtain ⟨y', hy', huser'', htarget''⟩ := hrows j y hy
      exact h.unique i j x' y' hx' hy' (by rw [← huser', huser, huser''])
        (by rw [← htarget', htarget, htarget''])
    · intro i x hx
      obtain ⟨y, hy, huser, htarget⟩ := hrows i x hx
      rw [huser, htarget]
      exact h.notSelf i y hy

/-- A block removes the follow the other way. -/
theorem Lawful.block (h : Lawful s) (hself : target ≠ uid) :
    Lawful ((s.setRelationship uid target .block).unfollow target uid) where
  toDistinct := (h.toDistinct.setRelationship hself).mono fun _ _ => rows_unfollow
  blocked := by
    have hset : Distinct (s.setRelationship uid target .block) := h.toDistinct.setRelationship hself
    have hrelates : ∀ {uid' target' type'},
        ((s.setRelationship uid target .block).unfollow target uid).Relates uid' target' type' →
          (s.setRelationship uid target .block).Relates uid' target' type' :=
      fun ⟨i, hrow⟩ => ⟨i, rows_unfollow hrow⟩
    intro uid' target' hblock hfollow
    have hblock' := (relates_setRelationship h.toDistinct).mp (hrelates hblock)
    have hfollow' := (relates_setRelationship h.toDistinct).mp (hrelates hfollow)
    split at hfollow'
    · exact absurd hfollow' (by simp)
    · split at hblock'
      · next hpair =>
        obtain ⟨rfl, rfl⟩ := hpair
        exact not_follows_unfollow hset hfollow
      · exact h.blocked uid' target' hblock' hfollow'

/-- A follow is lawful if the other user has not blocked the follower. -/
theorem Lawful.follow_iff (h : Lawful s) (hself : target ≠ uid) :
    Lawful (s.setRelationship uid target .follow) ↔ ¬ s.Relates target uid .block := by
  have hback : (s.setRelationship uid target .follow).Relates target uid .block ↔
      s.Relates target uid .block := by
    rw [relates_setRelationship h.toDistinct, if_neg fun hpair => hself hpair.1]
  constructor
  · intro hlawful hblock
    refine hlawful.blocked target uid (hback.mpr hblock) ?_
    rw [relates_setRelationship h.toDistinct, if_pos ⟨rfl, rfl⟩]
  · intro hfree
    refine ⟨h.toDistinct.setRelationship hself, fun uid' target' hblock hfollow => ?_⟩
    rw [relates_setRelationship h.toDistinct] at hblock hfollow
    split at hblock
    · exact absurd hblock (by simp)
    · split at hfollow
      · next hpair =>
        obtain ⟨rfl, rfl⟩ := hpair
        exact hfree hblock
      · exact h.blocked uid' target' hblock hfollow

/-! ## Runs -/

theorem Lawful.empty : Lawful State.empty where
  unique := by simp [State.empty]
  notSelf := by simp [State.empty]
  blocked := by simp [State.empty, State.Relates]

theorem Lawful.event (h : Lawful s) {past : List (Event × State)}
    (hend : endState State.empty past = s) (e : Event) :
    Lawful (s.after e) ↔ NoFollowBack past e (s.after e) := by
  unfold NoFollowBack
  rw [hend]
  cases e with
  | add uid target type =>
    rcases Txn.commit_cases (addRelationship uid target type) s with ⟨u, hu⟩ | ⟨⟨err, herr⟩, hsame⟩
    · obtain ⟨hrestricted, hfound, hself, hafter⟩ := addRelationship_ok.mp hu
      show Lawful ((addRelationship uid target type).commit s) ↔ _
      rw [hafter]
      cases type with
      | block =>
        rw [if_pos rfl]
        exact iff_of_true (h.block hself) trivial
      | follow =>
        rw [if_neg (by simp), h.follow_iff hself]
        simp [hrestricted, hfound, hself]
    · show Lawful ((addRelationship uid target type).commit s) ↔ _
      rw [hsame]
      refine iff_of_true h ?_
      cases type with
      | block => trivial
      | follow =>
        intro _ hrestricted hfound hself
        have hok : addRelationship uid target .follow s = (.ok (), _) :=
          addRelationship_ok.mpr ⟨hrestricted, hfound, hself, rfl⟩
        rw [hok] at herr
        simp at herr
  | delete uid target type =>
    refine iff_of_true ?_ trivial
    show Lawful ((deleteRelationship uid target type).commit s)
    rcases Txn.commit_cases (deleteRelationship uid target type) s with ⟨u, hu⟩ | ⟨-, hsame⟩
    · obtain ⟨i, hafter⟩ := deleteRelationship_ok hu
      rw [hafter]
      exact h.mono fun _ _ => rows_delete
    · rw [hsame]
      exact h
  | register uid => exact iff_of_true (h.mono fun _ _ => id) trivial
  | setRestricted uid restricted => exact iff_of_true (h.mono fun _ _ => id) trivial

/-- The relationships stay lawful as long as nobody follows a user who has blocked them. -/
theorem blocking_excludes_following {h : List (Event × State)}
    (hrun : Trace Step (fun _ _ => True) State.empty h s) :
    Every StaysLawful h ↔ Every NoFollowBack h := by
  refine Trace.every_iff (I := fun _ s => Lawful s) .empty (fun past u e v hlawful hend hstep => ?_)
    hrun
  cases hstep
  have hevent := hlawful.event hend e
  exact ⟨hevent, hevent.mpr⟩

/-- The history of some events, the newest first. -/
def socialRun (es : List Event) : List (Event × State) := historyOf State.after State.empty es

theorem trace_socialRun (es : List Event) : Trace Step (fun _ _ => True) State.empty
    (socialRun es) (endState State.empty (socialRun es)) :=
  trace_historyOf State.empty es fun e _ s => .mk s e

/-- User 2 follows user 1 and is blocked. -/
def blockedFollower : List Event := [.add 1 2 .block, .add 2 1 .follow, .register 2, .register 1]

theorem blocking_excludes_following_block :
    Every StaysLawful (socialRun blockedFollower) ∧
      (endState State.empty (socialRun blockedFollower)).rows.toList = [(2, ⟨1, 2, .block⟩)] := by
  refine ⟨(blocking_excludes_following (trace_socialRun blockedFollower)).mpr ?_, by decide +kernel⟩
  refine ⟨⟨⟨⟨trivial, trivial⟩, trivial⟩, fun _ _ _ => ?_⟩, trivial⟩
  rintro ⟨i, hrow⟩
  have hnone : (none : Option Relationship) = some ⟨1, 2, .block⟩ := hrow
  simp at hnone

/-- User 1 blocks user 2, who follows user 1 then. -/
def followingBack : List Event := [.add 2 1 .follow, .add 1 2 .block, .register 2, .register 1]

theorem blocked_user_follows : ∃ h s,
    Trace Step (fun _ _ => True) State.empty h s ∧ ¬ Every StaysLawful h := by
  refine ⟨_, _, trace_socialRun followingBack, fun hevery => ?_⟩
  exact hevery.2.blocked 1 2 ⟨1, by decide +kernel⟩ ⟨2, by decide +kernel⟩

end Soms.Social

import Soms.Somsai.Frames

/-!
# Parties and their members

An active party and its members point at each other, and a party has one or two
members, its captain among them.  A pointer that names an inactive party, or one
the user is not a member of, is stale and never followed.
-/

namespace Soms.Somsai

open Txn World

/-- The two-way link between a party and its members. -/
structure Party.Linked (w : World) (p : PartyId) (party : Party) : Prop where
  size : 1 ≤ party.members.length ∧ party.members.length ≤ 2
  nodup : party.members.Nodup
  captain : party.captainId ∈ party.members
  pointer : ∀ uid ∈ party.members, w.partyOf uid = some p

structure PartyInv (w : World) : Prop where
  linked : ∀ p party, w.parties.row p = some party → party.active = true → party.Linked w p
  invites : ∀ i invite, w.partyInvites.row i = some invite → invite.inviterId ≠ invite.targetId

namespace PartyInv

variable {w w' : World} {now : Time} {uid : UserId} {p : PartyId} {party : Party}

theorem of_view (hview : w'.partyView = w.partyView) (h : PartyInv w) : PartyInv w' := by
  simp only [partyView, Prod.mk.injEq] at hview
  obtain ⟨hparties, hinvites, hptr⟩ := hview
  constructor
  · intro p party hrow hactive
    rw [hparties] at hrow
    have hl := h.linked p party hrow hactive
    exact ⟨hl.size, hl.nodup, hl.captain, by rw [hptr]; exact hl.pointer⟩
  · rw [hinvites]
    exact h.invites

/-- A party that is changed together with the pointers of its own members. -/
theorem update (h : PartyInv w) (p : PartyId)
    (hrows : ∀ q, q ≠ p → w'.parties.row q = w.parties.row q)
    (hptr : ∀ q party, q ≠ p → w.parties.row q = some party → party.active = true →
      ∀ uid ∈ party.members, w'.partyOf uid = w.partyOf uid)
    (hp : ∀ party, w'.parties.row p = some party → party.active = true → party.Linked w' p)
    (hinvites : w'.partyInvites = w.partyInvites) : PartyInv w' := by
  constructor
  · intro q party hrow hactive
    by_cases hq : q = p
    · subst hq
      exact hp party hrow hactive
    · rw [hrows q hq] at hrow
      have hl := h.linked q party hrow hactive
      refine ⟨hl.size, hl.nodup, hl.captain, fun uid huid => ?_⟩
      rw [hptr q party hq hrow hactive uid huid]
      exact hl.pointer uid huid
  · rw [hinvites]
    exact h.invites

/-- A user is a member of one active party at most. -/
theorem unique (h : PartyInv w) {q : PartyId} {other : Party}
    (hp : w.parties.row p = some party) (hpa : party.active = true)
    (hq : w.parties.row q = some other) (hqa : other.active = true)
    (hup : uid ∈ party.members) (huq : uid ∈ other.members) : p = q := by
  have h₁ := (h.linked p party hp hpa).pointer uid hup
  have h₂ := (h.linked q other hq hqa).pointer uid huq
  exact Option.some.inj (h₁.symm.trans h₂)

end PartyInv

/-! ## The party of a user -/

theorem getParty_some {w : World} {uid : UserId} {x : PartyId × Party}
    (h : w.getParty uid = some x) :
    w.partyOf uid = some x.1 ∧ w.parties.row x.1 = some x.2 ∧ x.2.active = true ∧
      uid ∈ x.2.members := by
  unfold World.getParty at h
  split at h
  · simp at h
  · next p hp =>
    split at h
    · simp at h
    · next party hrow =>
      split at h
      · next hcond =>
        obtain rfl := Option.some.inj h
        simp only [Bool.and_eq_true, decide_eq_true_eq] at hcond
        exact ⟨hp, hrow, hcond.1, hcond.2⟩
      · simp at h

/-- A user without a party is a member of no active one. -/
theorem getParty_none {w : World} (hw : PartyInv w) {uid : UserId} (h : w.getParty uid = none)
    {p : PartyId} {party : Party} (hrow : w.parties.row p = some party)
    (hactive : party.active = true) : uid ∉ party.members := by
  intro hmem
  have hptr := (hw.linked p party hrow hactive).pointer uid hmem
  simp [World.getParty, hptr, hrow, hactive, hmem] at h

theorem partyOf_setParty (w : World) (now : Time) (uid : UserId) (p : Option PartyId) (x : UserId) :
    (w.setParty now uid p).partyOf x = if x = uid then p else w.partyOf x := by
  by_cases hx : x = uid <;> simp [partyOf, setParty, setActivity, hx]

/-! ## Leaving and joining -/

/-- The store after a member left its party. -/
def World.left (w : World) (now : Time) (uid : UserId) (p : PartyId) : World :=
  let w := w.setParty now uid none
  { w with parties := w.parties.modify p fun party => party.leave uid }

theorem Party.Linked.leave {w w' : World} {p : PartyId} {party : Party} {uid : UserId}
    (h : party.Linked w p) (hactive : (party.leave uid).active = true)
    (hptr : ∀ x, x ≠ uid → w'.partyOf x = w.partyOf x) : (party.leave uid).Linked w' p := by
  have hne : (party.members.filter (· ≠ uid)) ≠ [] := by
    intro hempty
    have : (party.leave uid).active = false := by simp only [Party.leave, hempty]; rfl
    rw [this] at hactive
    simp at hactive
  have hlen : (party.members.filter (· ≠ uid)).length ≤ party.members.length :=
    List.length_filter_le _ _
  have hpos := List.length_pos_of_ne_nil hne
  refine ⟨⟨hpos, hlen.trans h.size.2⟩, h.nodup.filter _, ?_, fun x hx => ?_⟩
  · show (if party.captainId = uid then _ else _) ∈ party.members.filter (· ≠ uid)
    split
    · cases hm : party.members.filter (· ≠ uid) with
      | nil => exact absurd hm hne
      | cons a rest => simp
    · next hc => simp [h.captain, hc]
  · simp only [Party.leave, List.mem_filter, decide_eq_true_eq] at hx
    rw [hptr x hx.2]
    exact h.pointer x hx.1

theorem left_inv {w : World} (hw : PartyInv w) {now : Time} {uid : UserId} {p : PartyId}
    {party : Party} (hrow : w.parties.row p = some party) (hactive : party.active = true)
    (hmem : uid ∈ party.members) : PartyInv (w.left now uid p) := by
  have hptr : ∀ x, x ≠ uid → (w.left now uid p).partyOf x = w.partyOf x := by
    intro x hx
    exact (partyOf_setParty w now uid none x).trans (if_neg hx)
  refine hw.update p (fun q hq => by simp [World.left, setParty, setActivity, hq])
    (fun q other hq hrowq hactiveq x hx => hptr x ?_) (fun party' hrow' hactive' => ?_) rfl
  · rintro rfl
    exact hq (hw.unique hrowq hactiveq hrow hactive hx hmem)
  · have hrow' : some (party.leave uid) = some party' := by
      simpa [World.left, setParty, setActivity, hrow] using hrow'
    obtain rfl := Option.some.inj hrow'
    exact (hw.linked p party hrow hactive).leave hactive' hptr

/-- What `leave_party` does: nothing without a party, else the user leaves it. -/
theorem leaveParty_ok {w t : World} {now : Time} {uid : UserId} {u : Unit}
    (h : leaveParty now uid w = (.ok u, t)) :
    (∃ v : World, v.partyView = w.partyView ∧ v.getParty uid = none ∧ t = v) ∨
      ∃ (v : World) (x : _), v.partyView = w.partyView ∧ v.getParty uid = some x ∧
        t = v.left now uid x.1 := by
  obtain ⟨found, v, hget, h⟩ := bind_ok.mp h
  have hview := (inferInstance : Leaves partyView (Somsai.getParty now uid)).ok hget
  have hfound : v.getParty uid = found := by
    obtain ⟨_, v', hv', hread⟩ := bind_ok.mp hget
    obtain ⟨rfl, rfl⟩ := read_ok.mp hread
    rfl
  rcases onSome_ok.mp h with ⟨x, rfl, h⟩ | ⟨rfl, rfl⟩
  · obtain ⟨_, v', hidle, h⟩ := bind_ok.mp h
    have hidle' := (inferInstance : Leaves partyView (assertPartyIdle now x.2)).ok hidle
    obtain ⟨_, v'', hset, h⟩ := bind_ok.mp h
    obtain rfl := write_ok.mp hset
    obtain rfl := write_ok.mp h
    refine .inr ⟨v', x, hidle'.trans hview, ?_, rfl⟩
    simp only [partyView, Prod.mk.injEq] at hidle'
    simpa [World.getParty, hidle'] using hfound
  · exact .inl ⟨v, hview, hfound, rfl⟩

theorem leaveParty_inv {w t : World} (hw : PartyInv w) {now : Time} {uid : UserId} {u : Unit}
    (h : leaveParty now uid w = (.ok u, t)) :
    PartyInv t ∧ (∀ p party, t.parties.row p = some party → party.active = true →
      uid ∉ party.members) ∧
      ∀ p party, w.parties.row p = some party → party.active = true → uid ∉ party.members →
        t.parties.row p = some party := by
  rcases leaveParty_ok h with ⟨v, hview, hnone, rfl⟩ | ⟨v, x, hview, hsome, rfl⟩
  · have ht := hw.of_view hview
    refine ⟨ht, fun p party => getParty_none ht hnone, fun p party hrow _ _ => ?_⟩
    simp only [partyView, Prod.mk.injEq] at hview
    rw [hview.1]
    exact hrow
  · have hv := hw.of_view hview
    obtain ⟨-, hrow, hactive, hmem⟩ := getParty_some hsome
    have ht : PartyInv (v.left now uid x.1) := left_inv hv hrow hactive hmem
    refine ⟨ht, fun p party hp ha hm => ?_, fun p party hp ha hnot => ?_⟩
    · have hnone : (v.left now uid x.1).partyOf uid = none :=
        (partyOf_setParty v now uid none uid).trans (if_pos rfl)
      have hptr := (ht.linked p party hp ha).pointer uid hm
      rw [hnone] at hptr
      simp at hptr
    · simp only [partyView, Prod.mk.injEq] at hview
      rw [← hview.1] at hp
      have hne : p ≠ x.1 := by
        rintro rfl
        rw [hrow] at hp
        exact hnot (Option.some.inj hp ▸ hmem)
      simpa [World.left, setParty, setActivity, hne] using hp

/-- The store after a user joined a party. -/
def World.joined (w : World) (now : Time) (uid : UserId) (p : PartyId) : World :=
  { w with parties := w.parties.modify p fun party =>
      { party with members := party.members ++ [uid], revision := party.revision + 1 } }.setParty
    now uid (some p)

theorem joined_inv {w : World} (hw : PartyInv w) {now : Time} {uid : UserId} {p : PartyId}
    {party : Party} (hrow : w.parties.row p = some party) (hactive : party.active = true)
    (hsize : party.members.length < 2)
    (hfree : ∀ q other, w.parties.row q = some other → other.active = true →
      uid ∉ other.members) : PartyInv (w.joined now uid p) := by
  have hptr : ∀ x, (w.joined now uid p).partyOf x = if x = uid then some p else w.partyOf x :=
    fun x => partyOf_setParty _ now uid (some p) x
  refine hw.update p (fun q hq => by simp [World.joined, setParty, setActivity, hq])
    (fun q other hq hrowq hactiveq x hx => ?_) (fun party' hrow' hactive' => ?_) rfl
  · have hne : x ≠ uid := by
      rintro rfl
      exact hfree q other hrowq hactiveq hx
    rw [hptr, if_neg hne]
  · have hrow' : some { party with
        members := party.members ++ [uid], revision := party.revision + 1 } = some party' := by
      simpa [World.joined, setParty, setActivity, hrow] using hrow'
    obtain rfl := Option.some.inj hrow'
    have hl := hw.linked p party hrow hactive
    refine ⟨by simp; omega, ?_, by simp [hl.captain], fun x hx => ?_⟩
    · simpa [List.nodup_append, hl.nodup] using fun a ha (h : a = uid) =>
        hfree p party hrow hactive (h ▸ ha)
    · simp only [List.mem_append, List.mem_singleton] at hx
      rw [hptr]
      split
      · rfl
      · next hne => exact hl.pointer x (hx.resolve_right hne)

/-! ## Party actions -/

theorem acceptInvite_inv {now : Time} {uid : UserId} {invite : PartyInvite}
    (hne : invite.inviterId ≠ uid) : Keeps PartyInv (acceptInvite now uid invite) where
  ok := by
    intro w _ t h hw
    obtain ⟨party, _, hopen, h⟩ := bind_ok.mp h
    obtain ⟨hreq, rfl⟩ := require_ok.mp hopen
    simp only [Option.filter_eq_some_iff, Bool.and_eq_true, decide_eq_true_eq] at hreq
    obtain ⟨hrow, hactive, hsize⟩ := hreq
    obtain ⟨_, _, hsender, h⟩ := bind_ok.mp h
    obtain ⟨hcaptain, rfl⟩ := refuse_ok.mp hsender
    obtain ⟨_, w₁, h₁, h⟩ := bind_ok.mp h
    obtain ⟨_, w₂, h₂, h⟩ := bind_ok.mp h
    obtain ⟨_, w₃, h₃, h⟩ := bind_ok.mp h
    obtain ⟨_, w₄, h₄, h⟩ := bind_ok.mp h
    have hview : w₄.partyView = w.partyView :=
      ((inferInstance : Leaves partyView _).ok h₄).trans <|
        ((inferInstance : Leaves partyView _).ok h₃).trans <|
          ((inferInstance : Leaves partyView _).ok h₂).trans <|
            (inferInstance : Leaves partyView _).ok h₁
    have hw₄ := hw.of_view hview
    simp only [partyView, Prod.mk.injEq] at hview
    have hrow₄ : w₄.parties.row invite.partyId = some party := by rw [hview.1]; exact hrow
    -- A party of one is its captain, who sent the invitation.
    have hnot : uid ∉ party.members := by
      intro hmem
      have hl := hw.linked _ _ hrow hactive
      have hpos := hl.size.1
      have hone : party.members.length = 1 := Nat.le_antisymm (Nat.le_of_lt_succ hsize) hpos
      obtain ⟨a, ha⟩ := List.length_eq_one_iff.mp hone
      have hc := hl.captain
      simp only [ha, List.mem_singleton] at hc hmem
      exact hcaptain (fun heq => hne (by rw [← heq, hc, hmem]))
    obtain ⟨_, w₅, hleave, h⟩ := bind_ok.mp h
    obtain ⟨hw₅, hfree, hkept⟩ := leaveParty_inv hw₄ hleave
    have hrow₅ := hkept _ _ hrow₄ hactive hnot
    obtain ⟨_, _, hmod, h⟩ := bind_ok.mp h
    obtain rfl := write_ok.mp hmod
    obtain rfl := write_ok.mp h
    exact joined_inv hw₅ hrow₅ hactive hsize hfree

theorem pendingInvite_some {w : World} {now : Time} {uid : UserId} {invitation : Option Nat}
    {x : Nat × PartyInvite} (h : w.pendingInvite now uid invitation = some x) :
    w.partyInvites.row x.1 = some x.2 ∧ x.2.targetId = uid := by
  unfold World.pendingInvite at h
  split at h
  · simp at h
  · split at h
    · simp at h
    · next hrow =>
      split at h
      · next hcond =>
        obtain rfl := Option.some.inj h
        exact ⟨hrow, hcond.1⟩
      · simp at h

/-- Changing the status of an invitation keeps its two players. -/
theorem answered_inv {w : World} (hw : PartyInv w) (i : Nat) (status : InviteStatus) :
    PartyInv { w with partyInvites := w.partyInvites.modify i fun invite =>
      { invite with status := status } } := by
  refine ⟨fun p party hrow hactive => ?_, fun j invite hrow => ?_⟩
  · have hl := hw.linked p party hrow hactive
    exact ⟨hl.size, hl.nodup, hl.captain, hl.pointer⟩
  · simp only [Table.row_modify] at hrow
    split at hrow
    · obtain ⟨old, hold, rfl⟩ := Option.map_eq_some_iff.mp hrow
      exact hw.invites j old hold
    · exact hw.invites j invite hrow

instance {now : Time} {uid : UserId} {invitation : Option Nat} {accept : Bool} :
    Keeps PartyInv (answerInvite now uid invitation accept) where
  ok := by
    intro w _ t h hw
    obtain ⟨x, _, hpending, h⟩ := bind_ok.mp h
    obtain ⟨hreq, rfl⟩ := require_ok.mp hpending
    obtain ⟨hrow, htarget⟩ := pendingInvite_some hreq
    have hne : x.2.inviterId ≠ uid := htarget ▸ hw.invites _ _ hrow
    obtain ⟨_, v, hwhen, h⟩ := bind_ok.mp h
    have : Keeps PartyInv (acceptInvite now uid x.2) := acceptInvite_inv hne
    have hv : PartyInv v := (inferInstance : Keeps PartyInv _).ok hwhen hw
    obtain rfl := write_ok.mp h
    exact answered_inv hv _ _

instance {now : Time} {uid : UserId} : Keeps PartyInv (leaveParty now uid) where
  ok h hw := (leaveParty_inv hw h).1

/-- A new party of a user who is in none. -/
theorem created_inv {w : World} (hw : PartyInv w) {now : Time} {uid : UserId}
    (hfree : ∀ q other, w.parties.row q = some other → other.active = true →
      uid ∉ other.members) :
    PartyInv ({ w with parties := w.parties.insert { captainId := uid, members := [uid] } }.setParty
      now uid (some w.parties.next)) := by
  have hptr := partyOf_setParty
    { w with parties := w.parties.insert { captainId := uid, members := [uid] } }
    now uid (some w.parties.next)
  refine hw.update w.parties.next (fun q hq => by simp [setParty, setActivity, hq])
    (fun q other hq hrow hactive x hx => ?_) (fun party hrow _ => ?_) rfl
  · have hne : x ≠ uid := by
      rintro rfl
      exact hfree q other hrow hactive hx
    rw [hptr, if_neg hne]
    rfl
  · have hrow : some { captainId := uid, members := [uid] : Party } = some party := by
      simpa [setParty, setActivity] using hrow
    obtain rfl := Option.some.inj hrow
    refine ⟨by simp, by simp, by simp, fun x hx => ?_⟩
    obtain rfl := List.mem_singleton.mp hx
    rw [hptr, if_pos rfl]

instance {now : Time} {uid : UserId} : Keeps PartyInv (ensureParty now uid) where
  ok := by
    intro w _ t h hw
    obtain ⟨found, v, hget, h⟩ := bind_ok.mp h
    have hv := hw.of_view ((inferInstance : Leaves partyView _).ok hget)
    obtain ⟨_, _, _, hread⟩ := bind_ok.mp hget
    obtain ⟨hfound, rfl⟩ := read_ok.mp hread
    cases found with
    | some party =>
      obtain ⟨-, rfl⟩ := pure_ok.mp h
      exact hv
    | none =>
      have hfree : ∀ q other, _ → _ → _ := fun q other => @getParty_none _ hv uid hfound q other
      obtain ⟨_, v₁, hidle, h⟩ := bind_ok.mp h
      have hview := (inferInstance : Leaves partyView _).ok hidle
      have hv₁ := hv.of_view hview
      simp only [partyView, Prod.mk.injEq] at hview
      rw [← hview.1] at hfree
      obtain ⟨p, _, hread', h⟩ := bind_ok.mp h
      obtain ⟨rfl, rfl⟩ := read_ok.mp hread'
      obtain ⟨_, _, hins, h⟩ := bind_ok.mp h
      obtain rfl := write_ok.mp hins
      obtain ⟨_, _, hset, h⟩ := bind_ok.mp h
      obtain rfl := write_ok.mp hset
      obtain ⟨-, rfl⟩ := pure_ok.mp h
      exact created_inv hv₁ hfree

/-- A new invitation names another player than its sender. -/
theorem invited_inv {w : World} (hw : PartyInv w) {invite : PartyInvite}
    (hne : invite.inviterId ≠ invite.targetId) :
    PartyInv { w with partyInvites := w.partyInvites.insert invite } := by
  refine ⟨fun p party hrow hactive => ?_, fun j other hrow => ?_⟩
  · have hl := hw.linked p party hrow hactive
    exact ⟨hl.size, hl.nodup, hl.captain, hl.pointer⟩
  · simp only [Table.row_insert] at hrow
    split at hrow
    · obtain rfl := Option.some.inj hrow
      exact hne
    · exact hw.invites j other hrow

set_option synthInstance.maxSize 2000

/-- A body that leaves parties alone keeps the invariant. -/
instance {α : Type} {x : Act α} [h : Leaves partyView x] : Keeps PartyInv x :=
  h.follows fun _ _ hview hw => hw.of_view hview

instance {now : Time} {uid : UserId} {p : PartyId} {party : Party} {targetId : Option UserId} :
    Keeps PartyInv (inviteTo now uid p party targetId) where
  ok := by
    intro w _ t h hw
    obtain ⟨target, _, hreq, h⟩ := bind_ok.mp h
    obtain ⟨htarget, rfl⟩ := require_ok.mp hreq
    simp only [Option.filter_eq_some_iff, decide_eq_true_eq] at htarget
    let invite : PartyInvite :=
      { partyId := p, inviterId := uid, targetId := target, expiresAt := now + seconds 300 }
    have hinsert : Keeps PartyInv (write fun v : World =>
        { v with partyInvites := v.partyInvites.insert invite } : Act Unit) :=
      keeps_write fun v hv => invited_inv hv htarget.2.symm
    dsimp only at h
    exact (inferInstance : Keeps PartyInv _).ok h hw

instance {action : PartyAction} {targetId : Option UserId} {name : Option String} :
    Leaves partyView (resolveTarget action targetId name) := by
  unfold resolveTarget
  split <;> infer_instance

instance {now : Time} {uid : UserId} {action : PartyAction} {targetId : Option UserId}
    {invitation : Option Nat} {name : Option String} :
    Keeps PartyInv (partyAction now uid action targetId invitation name) := by
  unfold partyAction
  cases action <;> infer_instance

/-! ## Stale parties -/

theorem partyOf_dropPartyLink (w : World) (p : PartyId) (uid x : UserId)
    (h : x ≠ uid ∨ w.partyOf x ≠ some p) : (w.dropPartyLink p uid).partyOf x = w.partyOf x := by
  unfold World.dropPartyLink
  cases ha : w.activity uid with
  | none => rfl
  | some a =>
    simp only
    split
    · next hp =>
      have hne : x ≠ uid := by
        rcases h with h | h
        · exact h
        · rintro rfl
          exact h (by simp [partyOf, ha, hp])
      simp [partyOf, hne]
    · rfl

/-- Pointers of members who stay, and pointers to other parties, are kept. -/
theorem partyOf_dropPartyLinks (p : PartyId) (dropped : List UserId) (x : UserId) (w : World)
    (h : x ∉ dropped ∨ w.partyOf x ≠ some p) :
    (dropped.foldl (dropPartyLink p) w).partyOf x = w.partyOf x := by
  induction dropped generalizing w with
  | nil => rfl
  | cons uid rest ih =>
    have hhead : (w.dropPartyLink p uid).partyOf x = w.partyOf x :=
      partyOf_dropPartyLink w p uid x (h.imp (fun hx => by simp_all) id)
    rw [List.foldl_cons, ih, hhead]
    rw [hhead]
    exact h.imp (fun hx => by simp_all) id

theorem dropPartyLinks_tables (p : PartyId) (dropped : List UserId) (w : World) :
    (dropped.foldl (dropPartyLink p) w).parties = w.parties ∧
      (dropped.foldl (dropPartyLink p) w).partyInvites = w.partyInvites := by
  have hone : ∀ (v : World) uid, ((dropPartyLink p v uid).parties,
      (dropPartyLink p v uid).partyInvites) = (v.parties, v.partyInvites) := by
    intro v uid
    unfold World.dropPartyLink
    split
    · rfl
    · split <;> rfl
  have h := foldl_leaves (fun w : World => (w.parties, w.partyInvites)) hone dropped w
  simpa using h

theorem Party.Linked.keep {w w' : World} {p : PartyId} {party : Party} {retained : List UserId}
    (h : party.Linked w p) (hsub : retained.Sublist party.members)
    (hactive : (party.keep retained).active = true)
    (hptr : ∀ x ∈ retained, w'.partyOf x = w.partyOf x) : (party.keep retained).Linked w' p := by
  have hne : retained ≠ [] := by
    rintro rfl
    simp [Party.keep] at hactive
  refine ⟨⟨List.length_pos_of_ne_nil hne, hsub.length_le.trans h.size.2⟩, h.nodup.sublist hsub, ?_,
    fun x hx => ?_⟩
  · show (if party.captainId ∈ retained then _ else _) ∈ retained
    split
    · next hc => exact hc
    · cases retained with
      | nil => exact absurd rfl hne
      | cons a rest => simp
  · rw [hptr x hx]
    exact h.pointer x (hsub.subset hx)

theorem expireStaleParty_inv {w : World} (hw : PartyInv w) (cutoff : Time) (p : PartyId) :
    PartyInv (w.expireStaleParty cutoff p) := by
  unfold expireStaleParty
  cases hrow : w.parties.row p with
  | none => exact hw
  | some party =>
    simp only
    split
    · next hactive =>
      have hl := hw.linked p party hrow hactive
      obtain ⟨hparties, hinvites⟩ := dropPartyLinks_tables p
        (party.members.filter fun uid => !w.retains cutoff uid) w
      have hptr := partyOf_dropPartyLinks p (party.members.filter fun uid => !w.retains cutoff uid)
      split
      · next hall =>
        have hnone : party.members.filter (fun uid => !w.retains cutoff uid) = [] := by
          rw [List.filter_eq_self] at hall
          simpa [List.filter_eq_nil_iff] using hall
        rw [hnone]
        exact hw
      · refine hw.update p (fun q hq => by simp [hparties, hq])
          (fun q other hq hrowq hactiveq x hx => hptr x w (.inr ?_))
          (fun party' hrow' hactive' => ?_) hinvites
        · rw [(hw.linked q other hrowq hactiveq).pointer x hx]
          simpa using hq
        · have hrow' : some (party.keep (party.members.filter (w.retains cutoff))) =
              some party' := by
            simpa [hparties, hrow] using hrow'
          obtain rfl := Option.some.inj hrow'
          refine hl.keep List.filter_sublist hactive' fun x hx => hptr x w (.inl ?_)
          simp only [List.mem_filter] at hx
          simp [hx.2]
    · exact hw

theorem lockSomsai_partyInv {w : World} (hw : PartyInv w) (now : Time) :
    PartyInv (w.lockSomsai now) := by
  have hstale : PartyInv (w.expireStaleParties now) := by
    unfold expireStaleParties
    exact List.foldlRecOn _ _ hw fun v hv p _ => expireStaleParty_inv hv _ p
  exact hstale.of_view (Bystander.eq _ _ rest_expireReservations)

/-! ## Every request -/

instance {ctx : Ctx} {uid : UserId} {mode : Mode} {action : Action} :
    Keeps PartyInv (dispatch ctx uid mode action) := by
  cases action <;> unfold dispatch <;> infer_instance

theorem serve_partyInv (ctx : Ctx) (request : Request) : Keeps PartyInv (serve ctx request) := by
  cases request <;> unfold serve
  case action => unfold handleAction; infer_instance
  case leaderboard => unfold leaderboard; infer_instance
  case view => unfold somsaiMatch; infer_instance
  case room => unfold internalSomsaiRoom; infer_instance
  case reserve => unfold nativeReserve; infer_instance
  case renew => unfold renewReservation; infer_instance
  all_goals infer_instance

theorem Step.partyInv {w w' : World} {e : Event} (h : Step w e w') (hw : PartyInv w) :
    PartyInv w' := by
  refine h.keeps hw (fun now => lockSomsai_partyInv hw now) (fun ctx request u t _ hlock hrun => ?_)
    (fun o _ _ => hw.of_view (show (w.outside o).partyView = w.partyView from rfl))
  exact (serve_partyInv ctx request).ok hrun hlock

theorem World.Initial.partyInv {w : World} (h : w.Initial) : PartyInv w := by
  refine ⟨fun p party hrow => ?_, fun i invite hrow => ?_⟩
  · simp [h.parties] at hrow
  · simp [h.partyInvites] at hrow

theorem Reaches.partyInv {P : World → Event → Prop} {w : World} (h : Reaches P w) :
    PartyInv w := by
  obtain ⟨w₀, h₀, hrun⟩ := h
  exact hrun.invariant (fun _ _ _ hs _ hstep => hstep.partyInv hs) h₀.partyInv

/-- In every reachable store the active parties have one or two distinct members,
the captain among them, who all point at the party; no user is in two; and a
rejected request leaves the store as it was. -/
theorem parties_linked {P : World → Event → Prop} {w : World} (h : Reaches P w) :
    (∀ p party, w.parties.row p = some party → party.active = true →
      (party.members.length = 1 ∨ party.members.length = 2) ∧ party.members.Nodup ∧
        party.captainId ∈ party.members ∧ ∀ uid ∈ party.members, w.partyOf uid = some p) ∧
    (∀ p q party other uid, w.parties.row p = some party → party.active = true →
      w.parties.row q = some other → other.active = true →
      uid ∈ party.members → uid ∈ other.members → p = q) ∧
    ∀ ctx request failure, (transaction ctx request w).1 = .error failure →
      w.after ctx request = w := by
  have hw := h.partyInv
  refine ⟨fun p party hrow hactive => ?_, fun p q party other uid hp hpa hq hqa hup huq => ?_,
    fun ctx request failure hfail => commit_error hfail⟩
  · have hl := hw.linked p party hrow hactive
    have hpos := hl.size.1
    have hle := hl.size.2
    exact ⟨by omega, hl.nodup, hl.captain, hl.pointer⟩
  · exact hw.unique hp hpa hq hqa hup huq

/-- The second of two players accepts the first one's invitation. -/
def acceptedStore : World :=
  (((World.fresh (players 2) (.sample (.division .bronze 0) 550)).after (.steady 0)
    (.action 1 ⟨.two, 0, 0⟩ (.party .create none none none))).after (.steady 0)
    (.action 1 ⟨.two, 0, 0⟩ (.party .invite (some 2) none none))).after (.steady 0)
    (.action 2 ⟨.two, 0, 0⟩ (.party .accept none (some 1) none))

theorem parties_linked_accepted :
    acceptedStore.parties.row 1 =
        some { captainId := 1, members := [1, 2], active := true, revision := 2 } ∧
      ∀ uid ∈ [1, 2], acceptedStore.partyOf uid = some 1 := by
  have hrow : acceptedStore.parties.row 1 =
      some { captainId := 1, members := [1, 2], active := true, revision := 2 } := by
    decide +kernel
  have hreach : Reaches anyEvent acceptedStore :=
    (((Reaches.initial (World.initial_fresh _ _)).after _ _ trivial).after _ _ trivial).after _ _
      trivial
  exact ⟨hrow, ((parties_linked hreach).1 1 _ hrow rfl).2.2.2⟩

end Soms.Somsai

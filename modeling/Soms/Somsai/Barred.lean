import Soms.Somsai.Frames
import Soms.Somsai.Links

/-!
# Who may queue

`join_queue` reads the dodge status of its caller and then queues the caller's
whole party; `reserve_members` checks the accounts of all of them but no penalty.
-/

namespace Soms.Somsai

open Txn World

namespace World

/-- The user's latest dodge penalty, if there is one, has run out. -/
def PenaltyOver (w : World) (now : Time) (uid : UserId) : Prop :=
  ∀ p ∈ w.latestPenalty uid, ∀ e ∈ p.expiresAt, e ≤ now

/-- Neither an account ban nor an unexpired dodge penalty, as `dodge_status` reads
them. -/
def Clear (w : World) (now : Time) (uid : UserId) : Prop :=
  (∃ user, w.users.row uid = some user ∧ user.isActive = true) ∧ w.PenaltyOver now uid

/-- The users who enter the queue when the user joins it. -/
def joiners (w : World) (uid : UserId) (format : Format) : List UserId :=
  queueUnit uid format (w.getParty uid)

/-! ## The accounts and their penalties -/

def bans (w : World) : Table User × List DodgePenalty := (w.users, w.penalties)

variable {w t : World} {now : Time} {uid : UserId}

theorem penaltyOver_of_bans (h : t.bans = w.bans) : t.PenaltyOver now uid ↔ w.PenaltyOver now uid := by
  have hpenalties : t.penalties = w.penalties := congrArg Prod.snd h
  simp only [PenaltyOver, latestPenalty, hpenalties]

theorem clear_of_bans (h : t.bans = w.bans) : t.Clear now uid ↔ w.Clear now uid := by
  have husers : t.users = w.users := congrArg Prod.fst h
  simp only [Clear, penaltyOver_of_bans h, husers]

theorem isActive_of_bans (h : t.bans = w.bans) : t.isActive uid = w.isActive uid := by
  have husers : t.users = w.users := congrArg Prod.fst h
  simp only [isActive, husers]

instance : Frame bans (touchActivity now uid) := ⟨fun _ => rfl⟩

instance {key : RatingKey} : Frame bans fun w : World => w.ensureRating key where
  eq w := by
    unfold ensureRating
    split <;> rfl

instance {keys : World → List RatingKey} : Frame bans fun w : World => w.ensureRatings (keys w) :=
  ⟨fun w => foldl_leaves bans (fun v key => Frame.eq (f := fun v : World => v.ensureRating key) v) _ w⟩

instance : Leaves bans (checkReservable now uid) := by
  unfold checkReservable activeUser assertIdle
  infer_instance

instance : Leaves bans (Somsai.getParty now uid) := by
  unfold Somsai.getParty
  infer_instance

instance {g : World → Table Reservation} : Frame bans fun w => { w with reservations := g w } :=
  ⟨fun _ => rfl⟩

instance {members : List UserId} {r : Option ReservationId} :
    Frame bans fun w : World => members.foldl (fun w uid => w.setReservation now uid r) w :=
  ⟨fun w => foldl_leaves bans (by intro _ _; rfl) members w⟩

instance {captain : UserId} {members : List UserId} {kind : ReservationKind}
    {partyId : Option PartyId} : Leaves bans (reserveMembers now captain members kind partyId) := by
  unfold reserveMembers
  infer_instance

theorem getParty_of_view (h : t.partyView = w.partyView) : t.getParty uid = w.getParty uid := by
  simp only [partyView, Prod.mk.injEq] at h
  simp only [getParty, h.1, h.2.2]

end World

section Joining

variable {ctx : Ctx} {uid : UserId} {w t : World}

/-- `dodge_status` shows the account and the latest penalty. -/
theorem dodgeStatus_ok {status : DodgeStatus} (h : dodgeStatus uid w = (.ok status, t)) : w = t ∧
    (∃ user, w.users.row uid = some user ∧ status.accountBanned = !user.isActive) ∧
    status.expiresAt = (w.latestPenalty uid).bind (·.expiresAt) := by
  obtain ⟨user, _, hreq, h⟩ := bind_ok.mp h
  obtain ⟨hrow, rfl⟩ := require_ok.mp hreq
  obtain ⟨previous, _, hread, h⟩ := bind_ok.mp h
  obtain ⟨rfl, rfl⟩ := read_ok.mp hread
  obtain ⟨rfl, rfl⟩ := pure_ok.mp h
  refine ⟨rfl, ⟨user, hrow, rfl⟩, ?_⟩
  cases w.latestPenalty uid <;> rfl

theorem isActive_account (h : w.isActive uid = true) :
    ∃ user, w.users.row uid = some user ∧ user.isActive = true := by
  unfold isActive at h
  split at h
  · next user hrow =>
    simp only [Bool.and_eq_true] at h
    exact ⟨user, hrow, h.1.1⟩
  · simp at h

/-- `reserve_members` takes only players with accounts in good standing. -/
theorem reserveMembers_active {now : Time} {captain : UserId} {members : List UserId}
    {kind : ReservationKind} {partyId : Option PartyId} {r : ReservationId}
    (h : reserveMembers now captain members kind partyId w = (.ok r, t)) :
    ∀ x ∈ members, w.isActive x = true := by
  obtain ⟨_, _, hrefuse, h⟩ := bind_ok.mp h
  obtain ⟨-, rfl⟩ := refuse_ok.mp hrefuse
  obtain ⟨_, v, hcheck, -⟩ := bind_ok.mp h
  have hall : ∀ (uids : List UserId) (w v : World) (u : Unit),
      uids.forM (checkReservable now) w = (.ok u, v) → ∀ x ∈ uids, w.isActive x = true := by
    intro uids
    induction uids with
    | nil => simp
    | cons uid rest ih =>
      intro w v u hrun x hx
      obtain ⟨_, w₁, hone, hrest⟩ := bind_ok.mp hrun
      rcases List.mem_cons.mp hx with rfl | hx
      · obtain ⟨_, _, hactive, -⟩ := bind_ok.mp hone
        simpa using (refuse_ok.mp hactive).1
      · rw [← isActive_of_bans ((inferInstance : Leaves bans (checkReservable now uid)).ok hone)]
        exact ih w₁ v u hrest x hx
  exact fun x hx => hall _ w v _ hcheck x ((List.mem_insertionSort _).mpr hx)

/-- What `join_queue` has done when it calls `match_queues`, and what it checked. -/
theorem joinQueue_ok {mode : Mode} {u : Unit} (h : joinQueue ctx uid mode w = (.ok u, t)) :
    ∃ v entry, matchQueues ctx v = (.ok u, t) ∧ v.queue = w.queue.insert entry ∧
      entry.captainId = uid ∧ entry.members = w.joiners uid mode.format ∧ v.bans = w.bans ∧
      w.PenaltyOver ctx.now uid ∧ ∀ x ∈ entry.members, w.isActive x = true := by
  obtain ⟨status, _, hstatus, h⟩ := bind_ok.mp h
  obtain ⟨rfl, -, hexpires⟩ := dodgeStatus_ok hstatus
  obtain ⟨_, _, hblock, h⟩ := bind_ok.mp h
  obtain ⟨hopen, rfl⟩ := refuse_ok.mp hblock
  obtain ⟨_, _, hformat, h⟩ := bind_ok.mp h
  obtain ⟨-, rfl⟩ := refuse_ok.mp hformat
  obtain ⟨_, w₁, hensure, h⟩ := bind_ok.mp h
  obtain ⟨party, w₂, hparty, h⟩ := bind_ok.mp h
  have hfound : party = w.getParty uid := by
    obtain ⟨_, w', htouch, hget⟩ := bind_ok.mp hparty
    rw [← (read_ok.mp hget).1, getParty_of_view ((inferInstance : Leaves partyView _).ok htouch),
      getParty_of_view ((inferInstance : Leaves partyView _).ok hensure)]
  subst hfound
  obtain ⟨_, _, hcaptain, h⟩ := bind_ok.mp h
  obtain ⟨-, rfl⟩ := refuse_ok.mp hcaptain
  obtain ⟨_, w₃, hratings, h⟩ := bind_ok.mp h
  obtain ⟨rating, _, hmean, h⟩ := bind_ok.mp h
  obtain ⟨-, rfl⟩ := read_ok.mp hmean
  obtain ⟨pool, _, hpool, h⟩ := bind_ok.mp h
  obtain ⟨-, rfl⟩ := attempt_ok.mp hpool
  obtain ⟨r, w₄, hreserve, h⟩ := bind_ok.mp h
  obtain ⟨_, _, hinsert, h⟩ := bind_ok.mp h
  obtain rfl := write_ok.mp hinsert
  obtain ⟨_, v, hclear, h⟩ := bind_ok.mp h
  have hquiet : Quiet w w₃ := (((inferInstance : Follows Quiet _).ok hensure).trans
    ((inferInstance : Follows Quiet _).ok hparty)).trans
      ((inferInstance : Follows Quiet _).ok hratings)
  have hbans : w₃.bans = w.bans := ((inferInstance : Leaves bans _).ok hratings).trans
    (((inferInstance : Leaves bans _).ok hparty).trans ((inferInstance : Leaves bans _).ok hensure))
  have hbans' : w₄.bans = w.bans := ((inferInstance : Leaves bans _).ok hreserve).trans hbans
  have hqueue : w₄.queue = w.queue := by
    obtain ⟨hl, -⟩ := reserveMembers_leases rfl hreserve
    exact (World.Leases.queue hl).trans (congrArg Core.queue hquiet.core)
  obtain rfl := write_ok.mp hclear
  let entry : QueueEntry :=
    { reservationId := r, captainId := uid, members := w.joiners uid mode.format,
      format := mode.format, rulesetId := mode.rulesetId, variantId := mode.variantId,
      rating := rating, joinedAt := ctx.now, expiresAt := ctx.now + seconds 90 }
  refine ⟨_, entry, h, ?_, rfl, rfl, ?_, fun p hp e he => ?_, fun x hx => ?_⟩
  · refine (foldl_leaves World.queue (by intro _ _; rfl) _ _).trans ?_
    simp only [hqueue]
    rfl
  · exact (foldl_leaves bans (by intro _ _; rfl) _ _).trans hbans'
  · rw [hp, Option.bind_some] at hexpires
    have hlate : ¬ ctx.now < e := fun hlt => hopen (.inr ⟨e, hexpires.trans he, hlt⟩)
    exact Int.not_lt.mp hlate
  · rw [← isActive_of_bans hbans]
    exact reserveMembers_active hreserve x hx

end Joining

/-- The entry of a `join_queue` that succeeds has no barred member exactly when the
penalties of the caller's fellow members are over. -/
theorem join_clear {ctx : Ctx} {uid : UserId} {mode : Mode} {w t : World}
    (h : joinQueue ctx uid mode (w.lockSomsai ctx.now) = (.ok (), t)) :
    ∃ v entry, matchQueues ctx v = (.ok (), t) ∧
      v.queue = (w.lockSomsai ctx.now).queue.insert entry ∧ entry.captainId = uid ∧
      ((∀ x ∈ entry.members, v.Clear ctx.now x) ↔
        ∀ x ∈ (w.lockSomsai ctx.now).joiners uid mode.format, x ≠ uid →
          (w.lockSomsai ctx.now).PenaltyOver ctx.now x) := by
  obtain ⟨v, entry, hmatch, hqueue, hcaptain, hmembers, hbans, hcaller, hactive⟩ := joinQueue_ok h
  refine ⟨v, entry, hmatch, hqueue, hcaptain, ?_⟩
  rw [hmembers] at hactive ⊢
  simp only [clear_of_bans hbans]
  refine ⟨fun hclear x hx _ => (hclear x hx).2, fun hover x hx => ⟨?_, ?_⟩⟩
  · exact isActive_account (hactive x hx)
  · by_cases hx' : x = uid
    · rw [hx']
      exact hcaller
    · exact hover x hx hx'

/-- Player 2 declined a ready check with player 3 and then joined the party of player 1. -/
def partnerStore : World :=
  let met := (threePlayers.acts 2 .queueJoin).acts 3 .queueJoin
  let declined := met.acts 2 (.play (some 1) .decline none none none)
  (declined.acts 1 (.party .invite (some 2) none none)).acts 2 (.party .accept none (some 1) none)

theorem reaches_partnerStore : Reaches anyEvent partnerStore :=
  ((((reaches_threePlayers.acts 2 _ trivial).acts 3 _ trivial).acts 2 _ trivial).acts 1 _
    trivial).acts 2 _ trivial

/-- The store when player 1 has queued for 2v2. -/
def partneredStore : World := (joinQueue (.steady 0) 1 ⟨.two, 0, 0⟩ (partnerStore.lockSomsai 0)).2

theorem joinQueue_partner : joinQueue (.steady 0) 1 ⟨.two, 0, 0⟩ (partnerStore.lockSomsai 0) =
    (.ok (), partneredStore) :=
  ok_of_isOk (by decide +kernel)

/-- Player 2 queues with player 1 five minutes before the penalty is over. -/
theorem penalised_partner_queues : Reaches anyEvent partnerStore ∧
    joinQueue (.steady 0) 1 ⟨.two, 0, 0⟩ (partnerStore.lockSomsai 0) = (.ok (), partneredStore) ∧
      ∃ entry, partneredStore.queue.row 3 = some entry ∧ 2 ∈ entry.members ∧
        ¬ partneredStore.Clear 0 2 := by
  have hrow : (partneredStore.queue.row 3).map (·.members) = some [1, 2] := by decide +kernel
  have hlate : (partneredStore.latestPenalty 2).map (·.expiresAt) = some (some (seconds 300)) := by
    decide +kernel
  obtain ⟨entry, hentry, hmembers⟩ := Option.map_eq_some_iff.mp hrow
  obtain ⟨p, hp, hexpires⟩ := Option.map_eq_some_iff.mp hlate
  refine ⟨reaches_partnerStore, joinQueue_partner, entry, hentry, by simp [hmembers], fun hclear => ?_⟩
  have hover := hclear.2 p hp _ hexpires
  simp [seconds] at hover

theorem join_clear_partner : ∃ v entry, matchQueues (.steady 0) v = (.ok (), partneredStore) ∧
    v.queue = (partnerStore.lockSomsai 0).queue.insert entry ∧ ¬ ∀ x ∈ entry.members, v.Clear 0 x := by
  obtain ⟨v, entry, hmatch, hqueue, -, hclear⟩ := join_clear joinQueue_partner
  refine ⟨v, entry, hmatch, hqueue, fun hall => ?_⟩
  have hunit : 2 ∈ (partnerStore.lockSomsai 0).joiners 1 .two := by decide +kernel
  have hlate : ((partnerStore.lockSomsai 0).latestPenalty 2).map (·.expiresAt) =
      some (some (seconds 300)) := by
    decide +kernel
  obtain ⟨p, hp, hexpires⟩ := Option.map_eq_some_iff.mp hlate
  have hover := hclear.mp hall 2 hunit (by decide) p hp _ hexpires
  simp [Ctx.steady, seconds] at hover

end Soms.Somsai

import Soms.Somsai.LeaseInvariant
import Soms.Somsai.Rounds

/-!
# Exclusive members

Every change keeps the lease invariant, so that nobody queues twice or plays two
matches.  The departures keep it under conditions on the request; two of them
break it otherwise, and the runs at the end show how.
-/

namespace Soms.Somsai

open Txn World

namespace World

/-! ## Releases -/

theorem releaseMembers (now : Time) (r : ReservationId) (l : List UserId) (w : World)
    (x : UserId) :
    (l.foldl (releaseMember now r) w).reservationOf x =
        (if x ∈ l ∧ w.reservationOf x = some r then none else w.reservationOf x) ∧
      (l.foldl (releaseMember now r) w).matchOf x =
        (if x ∈ l ∧ w.reservationOf x = some r then none else w.matchOf x) := by
  induction l generalizing w with
  | nil => simp
  | cons uid rest ih =>
    have hone : (releaseMember now r w uid).reservationOf x =
          (if x = uid ∧ w.reservationOf x = some r then none else w.reservationOf x) ∧
        (releaseMember now r w uid).matchOf x =
          (if x = uid ∧ w.reservationOf x = some r then none else w.matchOf x) := by
      unfold releaseMember touchActivity
      split
      · rw [reservationOf_setActivity, matchOf_setActivity]
        by_cases hx : x = uid <;> simp_all
      · rw [reservationOf_setActivity, matchOf_setActivity, id_eq, activityRow_reservationId,
          activityRow_matchId]
        by_cases hx : x = uid <;> simp_all
    obtain ⟨hr, hm⟩ := ih (releaseMember now r w uid)
    rw [List.foldl_cons, hr, hm, hone.1, hone.2]
    by_cases hx : x = uid <;> by_cases hheld : w.reservationOf x = some r <;>
      by_cases hrest : x ∈ rest <;> simp_all

theorem released_one (now : Time) {w : World} (h : w.core.Held) (r : ReservationId) :
    Core.Released w.core (w.releaseReservation now r).core [r] := by
  unfold releaseReservation
  split
  · next hnone =>
    have hfree : ∀ uid, ¬ ∃ r' ∈ [r], w.core.reservationOf uid = some r' := by
      rintro uid ⟨r', hr', hheld⟩
      obtain rfl := List.mem_singleton.mp hr'
      obtain ⟨x, hx, -⟩ := h.holder uid r' hheld
      rw [show w.core.reservations.row r' = none from hnone] at hx
      simp at hx
    refine ⟨fun r' => ?_, rfl, fun uid => (if_neg (hfree uid)).symm,
      fun uid => (if_neg (hfree uid)).symm, rfl, rfl, rfl⟩
    split
    · next hr' =>
      obtain rfl := List.mem_singleton.mp hr'
      exact hnone
    · rfl
  · next x hx =>
    have hkind := h.kind r x hx
    have hiff : ∀ uid, (uid ∈ x.members ∧ w.reservationOf uid = some r) ↔
        ∃ r' ∈ [r], w.core.reservationOf uid = some r' := by
      intro uid
      simp only [List.mem_singleton, exists_eq_left]
      refine ⟨And.right, fun hheld => ⟨?_, hheld⟩⟩
      obtain ⟨y, hy, hmem⟩ := h.holder uid r hheld
      obtain rfl := Option.some.inj (hx.symm.trans hy)
      exact hmem
    have hmembers := releaseMembers now r x.members w
    obtain ⟨activity, hfold⟩ := releaseMember_fold now r x.members w
    simp only [hkind, Bool.false_eq_true, if_false]
    rw [hfold] at hmembers ⊢
    refine ⟨fun r' => ?_, rfl, fun uid => ?_, fun uid => ?_, rfl, rfl, rfl⟩
    · show (w.reservations.delete r).row r' = _
      rw [Table.row_delete]
      simp only [List.mem_singleton]
      rfl
    · refine (hmembers uid).1.trans ?_
      simp only [hiff uid]
      rfl
    · refine (hmembers uid).2.trans ?_
      simp only [hiff uid]
      rfl

theorem released_all (now : Time) (rs : List ReservationId) {w : World} (h : w.core.Held) :
    Core.Released w.core (rs.foldl (releaseReservation now) w).core rs := by
  induction rs generalizing w with
  | nil => exact ⟨by simp, rfl, by simp, by simp, rfl, rfl, rfl⟩
  | cons r rest ih =>
    have hone := released_one now h r
    have hrest := ih (h.released hone)
    refine ⟨fun r' => ?_, hrest.next.trans hone.next, fun uid => ?_, fun uid => ?_,
      hrest.queue.trans hone.queue, hrest.matchRows.trans hone.matchRows,
      hrest.account.trans hone.account⟩
    · rw [List.foldl_cons, hrest.row, hone.row]
      by_cases hr : r' ∈ rest <;> by_cases hr' : r' = r <;> simp [hr, hr']
    · rw [List.foldl_cons, hrest.held, hone.held]
      by_cases hr : w.core.reservationOf uid = some r
      · simp [hr]
      · simp [hr]
    · rw [List.foldl_cons, hrest.pointer, hone.pointer, hone.held]
      by_cases hr : w.core.reservationOf uid = some r
      · simp [hr]
      · simp [hr]

variable {live clock : Prop} {ctx : Ctx} {w t : World}

/-! ## Leasing and playing -/

/-- What `reserve_members` does to the core. -/
theorem core_reserve (now : Time) (captain : UserId) (members : List UserId)
    (kind : ReservationKind) (partyId : Option PartyId) (w : World) :
    (w.reserve now captain members kind partyId).core =
      { w.core with
        reservations := w.reservations.insert (leaseOf now captain members kind partyId)
        reservationOf := fun uid =>
          if uid ∈ members then some w.reservations.next else w.reservationOf uid } := by
  obtain ⟨activity, hframe⟩ := reserve_frame now captain members kind partyId w
  have hpointers := setReservations now (some w.reservations.next) members
    { w with reservations := w.reservations.insert (leaseOf now captain members kind partyId) }
  have hmatch : (w.reserve now captain members kind partyId).matchOf = w.matchOf :=
    funext fun uid => (hpointers uid).2
  have hheld : (w.reserve now captain members kind partyId).reservationOf = fun uid =>
      if uid ∈ members then some w.reservations.next else w.reservationOf uid :=
    funext fun uid => (hpointers uid).1
  simp only [core, hmatch, hheld]
  rw [hframe]
  rfl

theorem account_grows (w : World) (count : Nat) (name : Nat → String) (uid : UserId) (b : Bool)
    (hb : w.core.account uid = some b) : (w.addBots count name).account uid = some b := by
  rw [account_addBots]
  split
  · next hnew =>
    have hnone : w.core.account uid = none := by
      simp [core, account, w.users.fresh uid hnew.1]
    rw [hnone] at hb
    simp at hb
  · exact hb

theorem Lease.inv (h : Lease w t) (hw : w.core.Inv live) :
    t.core.Inv live ∧ t.queue = w.queue ∧ t.matchRows = w.matchRows := by
  cases h with
  | quiet hq =>
    rw [hq.core]
    exact ⟨hw, congrArg Core.queue hq.core, congrArg Core.matchRows hq.core⟩
  | @reserve now captain members kind partyId hidle hkind =>
    have hcore := core_reserve now captain members kind partyId w
    rw [hcore]
    refine ⟨hw.reserve (leaseOf now captain members kind partyId) hidle hkind _ fun _ => rfl, ?_, ?_⟩
    · exact congrArg Core.queue hcore
    · exact congrArg Core.matchRows hcore
  | bots count name => exact ⟨hw.grow _ (account_grows w count name), rfl, rfl⟩

theorem Leases.inv (h : Leases w t) (hw : w.core.Inv live) :
    t.core.Inv live ∧ t.queue = w.queue ∧ t.matchRows = w.matchRows := by
  induction h with
  | refl => exact ⟨hw, rfl, rfl⟩
  | tail _ hlast ih =>
    obtain ⟨hinv, hqueue, hrows⟩ := ih
    obtain ⟨hinv', hqueue', hrows'⟩ := hlast.inv hinv
    exact ⟨hinv', hqueue'.trans hqueue, hrows'.trans hrows⟩

theorem core_pointAt (ctx : Ctx) (k : MatchId) (members : List UserId) (w : World) :
    (w.pointAt ctx k members).core =
      { w.core with matchOf := fun uid => if uid ∈ members then some k else w.matchOf uid } := by
  have hpointers := setMatches ctx.now (some k) members w
  obtain ⟨activity, hframe⟩ := pointAt_frame ctx k members w
  have hr : (w.pointAt ctx k members).reservationOf = w.reservationOf :=
    funext fun uid => (hpointers uid).2
  have hm : (w.pointAt ctx k members).matchOf =
      fun uid => if uid ∈ members then some k else w.matchOf uid :=
    funext fun uid => (hpointers uid).1
  simp only [core, hr, hm]
  rw [hframe]
  rfl

theorem core_settle (ctx : Ctx) (w : World) (k : MatchId) (m : Match) (winner : Option Team)
    (cancelled : Bool) : ∃ l,
      (w.settle ctx k m winner cancelled).1.core = { w.core with settled := l } := by
  unfold settle
  split
  · obtain ⟨ratings, h⟩ := settleRatings_frame ctx w k m winner
    rw [h]
    exact ⟨_, rfl⟩
  · exact ⟨w.settled, rfl⟩

/-- The end of a live match frees its leases and leaves last-match pointers. -/
theorem finishMatch_inv {k : MatchId} {m : Match} (winner : Option Team) (cancelled : Bool)
    (reason : String) (hrow : w.matchRows.row k = some m) (hlive : m.stage.final = false)
    (hw : w.core.Inv live) : (w.finishMatch ctx k winner cancelled reason).core.Inv live := by
  unfold finishMatch
  simp only [hrow, hlive, Bool.false_eq_true, if_false]
  obtain ⟨l, hsettle⟩ := core_settle ctx w k (m.closed ctx winner cancelled reason) winner cancelled
  generalize w.settle ctx k _ winner cancelled = settled at hsettle ⊢
  have hsettled : settled.1.core.Inv live := by
    rw [hsettle]
    exact hw.settle l
  have hrow' : settled.1.core.matchRows.row k = some m := by
    rw [hsettle]
    exact hrow
  generalize hclosed : (m.closed ctx winner cancelled reason).withRatings winner settled.2 = m'
  have hfinal : m'.stage.final = true := by
    rw [← hclosed]
    exact final_finalStage cancelled
  have hput : (settled.1.putMatch k m').core.Inv live :=
    hsettled.put hrow' hlive (by rw [← hclosed]; rfl)
  -- Other live matches are the same before and after.
  have hothers : ∀ {j n}, (settled.1.putMatch k m').core.matchRows.row j = some n →
      n.stage.final = false → j ≠ k ∧ settled.1.core.matchRows.row j = some n := by
    intro j n hn hnlive
    have hn' : (settled.1.matchRows.modify k fun _ => m').row j = some n := hn
    rw [Table.row_modify] at hn'
    split at hn'
    · obtain ⟨_, -, rfl⟩ := Option.map_eq_some_iff.mp hn'
      rw [hfinal] at hnlive
      simp at hnlive
    · next hj => exact ⟨hj, hn'⟩
  have hreleased := released_all ctx.now m.state.reservations hput.held
  have hrelease := hput.release hreleased (settled.1.putMatch k m').queue
    (fun i e he => ⟨he, fun hmem => hsettled.queued.apart k m hrow' hlive _ hmem i e he rfl⟩)
    (fun hl j n hn hnlive uid hu r hr hheld => by
      obtain ⟨hj, hn⟩ := hothers hn hnlive
      obtain ⟨x, hx, hhuman⟩ := (hsettled.playing hl).lease k m hrow' hlive r hr
      obtain ⟨y, hy, hmem⟩ := hsettled.held.holder uid r hheld
      obtain rfl := Option.some.inj (hx.symm.trans hy)
      exact hj (hsettled.exclusive hl hn hnlive hrow' hlive (Core.mem_humansOf hu).1
        (Core.mem_humansOf (hhuman uid hmem)).1))
  have hqueue : (m.state.reservations.foldl (World.releaseReservation ctx.now)
      (settled.1.putMatch k m')).core.queue = (settled.1.putMatch k m').queue := hreleased.queue
  rw [core_pointAt]
  rw [← hqueue] at hrelease
  refine Core.Inv.point hrelease _ ?_
  · intro hl j n hn hnlive uid hu
    have hn := hreleased.matchRows ▸ hn
    obtain ⟨hj, hn⟩ := hothers hn hnlive
    refine if_neg fun hmem => hj ?_
    exact hsettled.exclusive hl hn hnlive hrow' hlive (Core.mem_humansOf hu).1 hmem

theorem Play.inv {k : MatchId} (h : Play clock ctx k w t) (hw : w.core.Inv live) : t.core.Inv live := by
  cases h with
  | quiet hq =>
    rw [hq.core]
    exact hw
  | move hrow hupdate => exact hw.put hrow hupdate.live hupdate.move.seats
  | finish hrow hlive => exact finishMatch_inv _ _ _ hrow hlive hw
  | @round m hrow slot winner totals players forfeit reason hslot hcounts champion cancelled why =>
    have hput : (w.putMatch k (m.record ctx slot winner totals players forfeit
        reason)).core.Inv live := hw.put hrow hcounts.live rfl
    exact finishMatch_inv champion cancelled why (row_putMatch hrow _) hcounts.live hput

/-! ## The other changes -/

/-- Leases of queue rows and of live matches were given before. -/
theorem Core.Inv.older (hw : w.core.Inv live) {r : ReservationId} (hr : w.reservations.next ≤ r) :
    (∀ i e, w.queue.row i = some e → e.reservationId ≠ r) ∧
      ∀ k m, w.matchRows.row k = some m → m.stage.final = false → r ∉ m.state.reservations := by
  refine ⟨fun i e he heq => ?_, fun k m hm hlive hmem => ?_⟩
  · obtain ⟨x, hx, -⟩ := hw.queued.lease i e he
    exact Nat.not_lt.mpr hr (heq ▸ Table.lt_next hx)
  · exact Nat.not_lt.mpr hr (hw.queued.given k m hm hlive r hmem)

/-- Queue rows go, and with them their leases. -/
theorem dropEntries_inv (now : Time) {rows : List QueueRow} (hw : w.core.Inv live)
    (hrows : w.Rows rows) :
    (((rows.map fun x => x.2.reservationId).foldl (releaseReservation now) w).deleteEntries
      rows).core.Inv live := by
  have hreleased := released_all now (rows.map fun x => x.2.reservationId) hw.held
  generalize (rows.map fun x => x.2.reservationId).foldl (releaseReservation now) w = v
    at hreleased ⊢
  have hqueue := row_deleteEntries v rows
  have hcore : (v.deleteEntries rows).core =
      { v.core with queue := (v.deleteEntries rows).queue } := by
    obtain ⟨queue, hframe⟩ := deleteEntries_frame rows v
    rw [hframe]
    rfl
  rw [hcore]
  refine hw.release hreleased (v.deleteEntries rows).queue (fun i e he => ?_)
    (fun hl k m hm hlive uid hu r hr => ?_)
  · rw [hqueue] at he
    split at he
    · simp at he
    · next hnot =>
      have he : w.core.queue.row i = some e := hreleased.queue ▸ he
      refine ⟨he, fun hmem => hnot ?_⟩
      obtain ⟨x, hx, hr⟩ := List.mem_map.mp hmem
      rw [hw.queued.unique i x.1 e x.2 he (hrows.current x hx) hr.symm]
      exact List.mem_map_of_mem hx
  · obtain ⟨x, hx, rfl⟩ := List.mem_map.mp hr
    exact hw.not_queued hl hm hlive hu (hrows.current x hx)

theorem core_openMatch (ctx : Ctx) (setup : Setup) (pool : Pool) (rating : ℚ) (w : World) :
    (w.openMatch ctx setup pool rating).core =
      { w.core with
        matchRows := w.matchRows.insert
          (newMatch ctx w.matchRows.next setup pool rating w.nextRoom)
        matchOf := fun uid =>
          if uid ∈ setup.members then some w.matchRows.next else w.matchOf uid } :=
  core_pointAt ctx w.matchRows.next setup.members (w.addMatch ctx setup pool rating)

theorem humansOf_newMatch {k : MatchId} {setup : Setup} {pool : Pool} {rating : ℚ} {room : RoomId}
    {uid : UserId} : uid ∈ humansOf (newMatch ctx k setup pool rating room) ↔ uid ∈ setup.humans := by
  simp only [humansOf, Setup.humans, List.mem_filter, beq_eq_decide]
  rfl

/-- The match of a group opens and its queue rows go. -/
theorem group_inv {selected : List QueueRow} {teams : PerTeam (List UserId)} {anchor : QueueEntry}
    {pool : Pool} {rating : ℚ} (hw : w.core.Inv live) (hrows : w.Rows selected)
    (hteams : (teams.red ++ teams.blue).Perm (unitMembers (selected.map Prod.snd))) :
    ((w.openMatch ctx (groupSetup selected teams anchor) pool rating).deleteEntries
      selected).core.Inv live := by
  have hqueue := row_deleteEntries (w.openMatch ctx (groupSetup selected teams anchor) pool rating)
    selected
  obtain ⟨queue, hframe⟩ := deleteEntries_frame selected
    (w.openMatch ctx (groupSetup selected teams anchor) pool rating)
  have hcore := core_openMatch ctx (groupSetup selected teams anchor) pool rating w
  rw [hframe] at hqueue ⊢
  have hqueue : ∀ i, queue.row i = if i ∈ selected.map Prod.fst then none else w.queue.row i := by
    intro i
    exact (hqueue i).trans (by rw [show (w.openMatch ctx _ pool rating).queue = w.queue from
      congrArg Core.queue hcore])
  -- The roster is the members of the selected entries.
  have hmembers : ∀ uid, uid ∈ (groupSetup selected teams anchor).members ↔
      ∃ x ∈ selected, uid ∈ x.2.members := by
    intro uid
    show uid ∈ teams.red ++ teams.blue ↔ _
    rw [hteams.mem_iff, unitMembers, List.mem_flatMap]
    simp only [List.mem_map, exists_exists_and_eq_and]
  have hhumans : ∀ {uid}, uid ∈ (groupSetup selected teams anchor).humans ↔
      uid ∈ (groupSetup selected teams anchor).members := by
    intro uid
    simp [Setup.humans, groupSetup]
  have hcore' : ({ w.openMatch ctx (groupSetup selected teams anchor) pool rating with
      queue := queue } : World).core =
        { (w.openMatch ctx (groupSetup selected teams anchor) pool rating).core with
          queue := queue } := rfl
  rw [hcore', hcore]
  have hlease : ∀ x ∈ selected, ∃ y, w.core.reservations.row x.2.reservationId = some y ∧
      y.members = x.2.members := fun x hx => hw.queued.lease x.1 x.2 (hrows.current x hx)
  refine hw.add (fun i e he => ?_) (fun uid => rfl) (fun r hr i e he heq => ?_) (fun _ => ?_)
    (fun j n hn hlive r hr hmem => ?_) (fun uid hu => ?_) (fun r hr => ?_)
    (fun _ bot hbot => by simp [newMatch, newState, groupSetup] at hbot)
  · rw [hqueue] at he
    split at he
    · simp at he
    · exact he
  · obtain ⟨x, hx, rfl⟩ := List.mem_map.mp hr
    rw [hqueue] at he
    split at he
    · simp at he
    · next hnot =>
      refine hnot ?_
      rw [hw.queued.unique i x.1 e x.2 he (hrows.current x hx) heq]
      exact List.mem_map_of_mem hx
  · show (teams.red ++ teams.blue).Nodup
    rw [hteams.nodup_iff, unitMembers, List.nodup_flatMap, List.pairwise_map]
    constructor
    · intro e he
      obtain ⟨x, hx, rfl⟩ := List.mem_map.mp he
      obtain ⟨y, hy, hmem⟩ := hlease x hx
      exact hmem ▸ hw.held.nodup _ y hy
    · have hdistinct : selected.Pairwise fun x y => x.1 ≠ y.1 := List.pairwise_map.mp hrows.nodup
      refine hdistinct.imp_of_mem fun {x y} hx hy hne => ?_
      intro uid hu hu'
      exact hne (hw.queued_once (hrows.current x hx) (hrows.current y hy) hu hu')
  · obtain ⟨x, hx, rfl⟩ := List.mem_map.mp hr
    exact hw.queued.apart j n hn hlive _ hmem x.1 x.2 (hrows.current x hx) rfl
  · obtain ⟨x, hx, hmem⟩ := (hmembers uid).mp (hhumans.mp (humansOf_newMatch.mp hu))
    obtain ⟨y, hy, heq⟩ := hlease x hx
    exact ⟨x.2.reservationId, List.mem_map_of_mem hx, hw.held.held _ y hy uid (heq ▸ hmem)⟩
  · obtain ⟨x, hx, rfl⟩ := List.mem_map.mp hr
    obtain ⟨y, hy, heq⟩ := hlease x hx
    refine ⟨y, hy, fun uid hu => humansOf_newMatch.mpr (hhumans.mpr ((hmembers uid).mpr ?_))⟩
    exact ⟨x, hx, heq ▸ hu⟩

/-- A match opens under new leases. -/
theorem opened_inv {u : World} {setup : Setup} {pool : Pool} {rating : ℚ} (hw : w.core.Inv live)
    (hl : Leases w u) (hranked : setup.ranked = false) (hleased : Leased w u setup) :
    (u.openMatch ctx setup pool rating).core.Inv live := by
  obtain ⟨hu, hqueue, hrows⟩ := hl.inv hw
  rw [core_openMatch]
  refine hu.add (fun i e he => he) (fun uid => rfl) (fun r hr i e he => ?_) (fun h => ?_)
    (fun j n hn hlive r hr => ?_) (fun uid hmem => ?_) (fun r hr => ?_) (fun hlive bot hbot => ?_)
  · exact (hw.older (hleased.lease r hr).1).1 i e (hqueue ▸ he)
  · rw [show setup.ranked = true from h] at hranked
    simp at hranked
  · exact (hw.older (hleased.lease r hr).1).2 j n (hrows ▸ hn) hlive
  · exact hleased.held uid (humansOf_newMatch.mp hmem)
  · obtain ⟨-, x, hx, hmem⟩ := hleased.lease r hr
    exact ⟨x, hx, fun uid hu => humansOf_newMatch.mpr (hmem uid hu)⟩
  · obtain ⟨hnone, hsome⟩ := hleased.bots bot hbot
    refine ⟨hsome, fun j n hn other hother heq => ?_⟩
    have hn : w.core.matchRows.row j = some n := by
      rw [show w.core.matchRows = u.core.matchRows from hrows.symm]
      exact hn
    have hold := (hw.playing hlive).bots j n hn other hother
    rw [← heq] at hold
    rw [show w.account bot.userId = some true from hold] at hnone
    simp at hnone

theorem membersOf_seat (m : Match) (ctx : Ctx) (members : List UserId) (team : Team)
    (lease : Option ReservationId) (uid : UserId) :
    uid ∈ membersOf (m.seat ctx members team lease) ↔ uid ∈ membersOf m ∨ uid ∈ members := by
  cases team <;>
    simp only [membersOf, Match.seat, Match.touch, PerTeam.map, PerTeam.set, PerTeam.get,
      List.mem_append, List.mem_filter, decide_eq_true_eq] <;>
    tauto

/-- Members take seats in a lobby. -/
theorem seat_inv {u : World} {k : MatchId} {m : Match} {members : List UserId} {team : Team}
    {lease : Option ReservationId} (hw : w.core.Inv live) (hl : Leases w u)
    (hrow : w.matchRows.row k = some m) (hranked : m.ranked = false) (hstage : m.stage = .waiting)
    (hseated : Seated w u k m members lease) :
    ((u.putMatch k (m.seat ctx members team lease)).pointAt ctx k members).core.Inv live := by
  obtain ⟨hu, hqueue, hrows⟩ := hl.inv hw
  have hrow : u.core.matchRows.row k = some m := by
    rw [show u.core.matchRows = w.matchRows from hrows]
    exact hrow
  have hlive : m.stage.final = false := by rw [hstage]; rfl
  have hplayer : ∀ uid ∈ members, u.core.account uid = some false := by
    cases hseated with
    | joins hnew hx hmembers => exact hmembers ▸ hu.held.player _ _ hx
    | moves hseat hheld hx hmembers => exact hmembers ▸ hu.held.player _ _ hx
  rw [core_pointAt]
  refine hu.seat hrow hlive rfl hranked rfl (membersOf_seat m ctx members team lease) hplayer
    (fun uid => rfl) (fun r hr => ?_) (fun hlive' hnone uid hmem => ?_)
  · subst hr
    cases hseated with
    | joins hnew hx hmembers =>
      refine ⟨⟨_, hx, hmembers⟩, fun i e he => ?_, fun j n hn hnlive => ?_⟩
      · exact (hw.older hnew).1 i e (hqueue ▸ he)
      · exact (hw.older hnew).2 j n (hrows ▸ hn) hnlive
  · subst hnone
    cases hseated with
    | @moves captain r x hseat hheld hx hmembers =>
      -- The captain sits in the lobby, so the lease is one of the lobby's.
      obtain ⟨y, hy, hcaptain⟩ := hu.held.holder captain r hheld
      have hhuman : captain ∈ humansOf m := by
        rcases Core.human_or_bot hseat with hhuman | ⟨bot, hbot, rfl⟩
        · exact hhuman
        · have hbotAccount := (hu.playing hlive').bots k m hrow bot hbot
          rw [hu.held.player r y hy _ hcaptain] at hbotAccount
          simp at hbotAccount
      obtain ⟨r', hr', hheld'⟩ := (hu.playing hlive').leased k m hrow hlive captain hhuman
      obtain rfl := Option.some.inj (hheld.symm.trans hheld')
      obtain ⟨z, hz, hmembersOf⟩ := (hu.playing hlive').lease k m hrow hlive r hr'
      obtain rfl := Option.some.inj (hx.symm.trans hz)
      exact hmembersOf uid (hmembers ▸ hmem)

theorem enqueue_inv {u : World} {entry : QueueEntry} {x : Reservation} (now : Time)
    (hw : w.core.Inv live) (hl : Leases w u) (hnew : w.reservations.next ≤ entry.reservationId)
    (hrow : u.reservations.row entry.reservationId = some x) (hmembers : x.members = entry.members) :
    (u.enqueue now entry).core.Inv live := by
  obtain ⟨hu, hqueue, hrows⟩ := hl.inv hw
  have hinsert := hu.enqueue entry hrow hmembers
    (fun i e he => (hw.older hnew).1 i e (hqueue ▸ he))
    (fun k m hm hlive => (hw.older hnew).2 k m (hrows ▸ hm) hlive)
  have hpointers := setMatches now none entry.members
    { u with queue := u.queue.insert entry }
  obtain ⟨activity, hframe⟩ := enqueue_frame now entry u
  have hr : (u.enqueue now entry).reservationOf = u.reservationOf :=
    funext fun uid => (hpointers uid).2
  have hm : (u.enqueue now entry).matchOf =
      fun uid => if uid ∈ entry.members then none else u.matchOf uid :=
    funext fun uid => (hpointers uid).1
  have hcore : (u.enqueue now entry).core =
      { u.core with
        queue := u.queue.insert entry
        matchOf := fun uid => if uid ∈ entry.members then none else u.matchOf uid } := by
    simp only [core, hr, hm]
    rw [hframe]
    rfl
  rw [hcore]
  refine hinsert.point _ fun hlive k m hk hmlive uid hhuman => if_neg fun hmem => ?_
  have hentry : (u.queue.insert entry).row u.queue.next = some entry := if_pos rfl
  refine hinsert.not_queued hlive hk hmlive hhuman hentry ?_
  exact hu.held.held _ x hrow uid (hmembers ▸ hmem)

/-- Every change keeps the lease invariant. -/
theorem Change.inv (h : Change clock ctx w t) (hw : w.core.Inv live) : t.core.Inv live := by
  cases h with
  | play h => exact Play.inv h hw
  | expire hrow hkind =>
    rw [hw.held.kind _ _ hrow] at hkind
    simp at hkind
  | renew r time => exact hw.renew r time
  | refresh i time => exact hw.refresh i time
  | @drop x hrow =>
    have hrows : w.Rows [x] :=
      ⟨fun y hy => by rw [List.mem_singleton.mp hy]; exact hrow, List.nodup_singleton _⟩
    exact dropEntries_inv ctx.now hw hrows
  | enqueue hl hnew hrow hmembers => exact enqueue_inv ctx.now hw hl hnew hrow hmembers
  | group anchor rating hrows hteams => exact group_inv hw hrows hteams
  | ungroup hrows => exact dropEntries_inv ctx.now hw hrows
  | opened hl rating hranked hleased => exact opened_inv hw hl hranked hleased
  | seat hl hrow hranked hstage team hseated => exact seat_inv hw hl hrow hranked hstage hseated

theorem Changes.inv (h : Changes clock ctx w t) (hw : w.core.Inv live) : t.core.Inv live := by
  induction h with
  | refl => exact hw
  | tail _ hlast ih => exact hlast.inv ih

/-! ## Departures -/

/-- The lock finds no native Ranked lease to expire. -/
theorem quiet_lockSomsai (now : Time) (hw : w.core.Held) : Quiet w (w.lockSomsai now) := by
  have hparties := quiet_of_view (quietView_expireStaleParties now w)
  have hheld : (w.expireStaleParties now).core.Held := hparties.core.symm ▸ hw
  have hexpire : (w.expireStaleParties now).expireReservations now = w.expireStaleParties now := by
    generalize w.expireStaleParties now = v at hheld ⊢
    have hfold : ∀ rows : List (ReservationId × Reservation),
        (∀ x ∈ rows, v.reservations.row x.1 = some x.2) → rows.foldl
          (fun u x => if x.2.kind.isRanked then u.releaseReservation now x.1 else u) v = v := by
      intro rows
      induction rows with
      | nil => exact fun _ => rfl
      | cons x rest ih =>
        intro hrows
        have hkind := hheld.kind x.1 x.2 (hrows x List.mem_cons_self)
        rw [List.foldl_cons, if_neg (by simp [hkind])]
        exact ih fun y hy => hrows y (List.mem_cons_of_mem x hy)
    exact hfold _ fun x hx => Table.mem_toList.mp (List.mem_filter.mp hx).1
  unfold lockSomsai
  rw [hexpire]
  exact hparties

/-- A native claim that `claim_native_room` would accept frees the lease: the
user's match pointer names no live match. -/
structure ClaimFrees (w : World) (now : Time) (uid : UserId) (roomId : RoomId)
    (r : ReservationId) : Prop where
  free : w.freeToClaim now uid roomId = true
  held : w.reservationOf uid = some r
  pointer : ∀ k m, w.matchOf uid = some k → w.matchRows.row k = some m → m.stage.final = true

/-- The event frees no lease of a queue row by a native claim or by its id. -/
def KeepsQueue (w : World) : Event → Prop
  | .served ctx (.nativeClaim roomId uid) =>
    ∀ r, ClaimFrees w ctx.now uid roomId r → w.entryOf r = none
  | .served _ (.release r) => w.entryOf r = none
  | _ => True

/-- The event is not a `leave_match` of a finished match by a human member of a
live one, and frees no lease of a live match by its id. -/
def KeepsMatches (w : World) : Event → Prop
  | .served _ (.action uid mode (.play (some k) .leaveMatch _ _ _)) =>
    mode.valid = true → w.isActive uid = true →
      (∃ m, w.matchRows.row k = some m ∧ m.stage.final = true ∧ uid ∈ membersOf m) →
      ∀ j n, w.matchRows.row j = some n → n.stage.final = false → uid ∉ humansOf n
  | .served _ (.release r) =>
    ∀ j n, w.matchRows.row j = some n → n.stage.final = false → r ∉ n.state.reservations
  | _ => True

/-- Freeing a lease that no queue row and no human member of a live match has. -/
theorem release_inv (now : Time) {r : ReservationId} (hw : w.core.Inv live)
    (hqueue : w.entryOf r = none)
    (hlive : live → ∀ k m, w.matchRows.row k = some m → m.stage.final = false →
      ∀ uid ∈ humansOf m, w.reservationOf uid ≠ some r) :
    (w.releaseReservation now r).core.Inv live := by
  have hreleased := released_one now hw.held r
  refine hw.release hreleased (w.releaseReservation now r).queue (fun i e he => ?_)
    (fun hl k m hm hmlive uid hu r' hr' => ?_)
  · have he : w.core.queue.row i = some e := hreleased.queue ▸ he
    refine ⟨he, fun hmem => ?_⟩
    have hnone := Table.find_none hqueue he
    simp_all
  · rw [List.mem_singleton.mp hr']
    exact hlive hl k m hm hmlive uid hu

theorem core_setMatch (now : Time) (uid : UserId) (k : Option MatchId) (w : World) :
    (w.setMatch now uid k).core =
      { w.core with matchOf := fun x => if x ∈ [uid] then k else w.matchOf x } := by
  have hpointers := setMatches now k [uid] w
  have hr : (w.setMatch now uid k).reservationOf = w.reservationOf :=
    funext fun x => (hpointers x).2
  have hm : (w.setMatch now uid k).matchOf = fun x => if x ∈ [uid] then k else w.matchOf x :=
    funext fun x => (hpointers x).1
  simp only [core, hr, hm]
  rfl

/-- A lease that a player may free by a native claim belongs to no live match. -/
theorem claim_apart {uid : UserId} {r : ReservationId} (hw : w.core.Inv live) (hl : live)
    (hheld : w.reservationOf uid = some r)
    (hpointer : ∀ k m, w.matchOf uid = some k → w.matchRows.row k = some m → m.stage.final = true)
    {k : MatchId} {m : Match} (hrow : w.matchRows.row k = some m) (hlive : m.stage.final = false)
    {other : UserId} (hother : other ∈ humansOf m) : w.reservationOf other ≠ some r := by
  intro hshared
  obtain ⟨r', hr', hleased⟩ := (hw.playing hl).leased k m hrow hlive other hother
  obtain rfl := Option.some.inj (hshared.symm.trans hleased)
  obtain ⟨x, hx, hhuman⟩ := (hw.playing hl).lease k m hrow hlive r hr'
  obtain ⟨y, hy, hmem⟩ := hw.held.holder uid r hheld
  obtain rfl := Option.some.inj (hx.symm.trans hy)
  have hfinal := hpointer k m ((hw.playing hl).pointer k m hrow hlive uid (hhuman uid hmem)) hrow
  rw [hlive] at hfinal
  simp at hfinal

end World

variable {live clock : Prop} {ctx : Ctx} {request : Request} {u w t : World}

/-- A departure keeps the invariant under the conditions on its request. -/
theorem Departure.inv (h : Departure ctx request u t) (hu : u.core.Inv live)
    (hqueue : u.KeepsQueue (.served ctx request))
    (hmatches : live → u.KeepsMatches (.served ctx request)) : t.core.Inv live := by
  cases h with
  | @forget _ uid mode k m slotId revision poolId hmode hactive hrow hfinal hseat =>
    rw [core_setMatch]
    refine hu.point _ fun hl j n hn hlive other hother => if_neg fun hmem => ?_
    obtain rfl := List.mem_singleton.mp hmem
    exact hmatches hl hmode hactive ⟨m, hrow, hfinal, hseat⟩ j n hn hlive hother
  | @claim _ uid roomId r hfree hheld hpointer =>
    exact release_inv ctx.now hu (hqueue r ⟨hfree, hheld, hpointer⟩)
      fun hl k m hrow hlive other hother => claim_apart hu hl hheld hpointer hrow hlive hother
  | release r =>
    refine release_inv ctx.now hu hqueue fun hl k m hrow hlive uid huid hheld => ?_
    obtain ⟨r', hr', hleased⟩ := (hu.playing hl).leased k m hrow hlive uid huid
    obtain rfl := Option.some.inj (hheld.symm.trans hleased)
    exact hmatches hl k m hrow hlive hr'

/-- The conditions on a request read the core and the accounts alone. -/
theorem keeps_congr (hcore : u.core = w.core) (haccounts : u.accounts = w.accounts) (e : Event) :
    (w.KeepsQueue e → u.KeepsQueue e) ∧ (w.KeepsMatches e → u.KeepsMatches e) := by
  have hentry : u.entryOf = w.entryOf := by
    funext r
    show u.core.queue.find _ = w.core.queue.find _
    rw [hcore]
  have hrow : ∀ {k m}, u.matchRows.row k = some m → w.matchRows.row k = some m := by
    intro k m h
    rwa [show u.matchRows = w.matchRows from congrArg Core.matchRows hcore] at h
  have hrow' : ∀ {k m}, w.matchRows.row k = some m → u.matchRows.row k = some m := by
    intro k m h
    rwa [show u.matchRows = w.matchRows from congrArg Core.matchRows hcore]
  have hheld : u.reservationOf = w.reservationOf := congrArg Core.reservationOf hcore
  have hmatch : u.matchOf = w.matchOf := congrArg Core.matchOf hcore
  have hactive : u.isActive = w.isActive := isActive_accounts haccounts
  constructor
  · intro h
    unfold KeepsQueue at h ⊢
    rw [hentry]
    split at h
    · next ctx roomId uid =>
      intro r hclaim
      refine h r ⟨?_, hheld ▸ hclaim.held, fun k m hk hm => ?_⟩
      · rw [← freeToClaim_accounts haccounts]
        exact hclaim.free
      · exact hclaim.pointer k m (hmatch ▸ hk) (hrow' hm)
    · exact h
    · trivial
  · intro h
    unfold KeepsMatches at h ⊢
    rw [hactive]
    split at h
    · rintro hmode hu ⟨m, hm, hfinal, hmem⟩ j n hn hlive
      exact h hmode hu ⟨m, hrow hm, hfinal, hmem⟩ j n (hrow hn) hlive
    · exact fun j n hn hlive => h j n (hrow hn) hlive
    · trivial

/-- Every step under the conditions keeps the lease invariant. -/
theorem Step.inv {e : Event} (h : Step w e t) (hw : w.core.Inv live) (hqueue : w.KeepsQueue e)
    (hmatches : live → w.KeepsMatches e) : t.core.Inv live := by
  cases h with
  | served ctx request =>
    rcases after_served w ctx request with h | ⟨hquiet, haccounts, hdepart, hrest⟩
    · exact h.inv hw
    · have hcore := ((quiet_lockSomsai ctx.now hw.held).trans hquiet).core
      obtain ⟨hq, hm⟩ := keeps_congr hcore haccounts (.served ctx request)
      exact hrest.inv (hdepart.inv (hcore.symm ▸ hw) (hq hqueue) fun hl => hm (hmatches hl))
  | changed o ho =>
    refine hw.grow (w.outside o).account fun uid b hb => ?_
    obtain ⟨user, hrow, rfl⟩ := Option.map_eq_some_iff.mp hb
    obtain ⟨user', hrow', hbot⟩ := ho.users_kept uid user hrow
    show (o.users.row uid).map (·.isBot) = _
    rw [hrow', Option.map_some, hbot]

theorem World.Initial.inv (h : w.Initial) : w.core.Inv live := by
  have hactivity : ∀ uid, w.reservationOf uid = none := fun uid => by
    simp [World.reservationOf, h.activity]
  have hmatches : ∀ k m, w.core.matchRows.row k ≠ some m := fun k m => by
    simp [World.core, h.matchRows]
  have hleases : ∀ r x, w.core.reservations.row r ≠ some x := fun r x => by
    simp [World.core, h.reservations]
  have hqueue : ∀ i e, w.core.queue.row i ≠ some e := fun i e => by
    simp [World.core, h.queue]
  exact {
    held := ⟨fun r x hx => absurd hx (hleases r x), fun r x hx => absurd hx (hleases r x),
      fun r x hx => absurd hx (hleases r x), fun r x hx => absurd hx (hleases r x),
      fun r x hx => absurd hx (hleases r x), fun uid r hr => by
        have hnone := hactivity uid
        rw [show w.reservationOf uid = some r from hr] at hnone
        simp at hnone⟩
    queued := ⟨fun i e he => absurd he (hqueue i e), fun i j e e' he => absurd he (hqueue i e),
      fun k m hm => absurd hm (hmatches k m), fun k m hm => absurd hm (hmatches k m),
      fun k m hm => absurd hm (hmatches k m)⟩
    playing := fun _ => ⟨fun k m hm => absurd hm (hmatches k m),
      fun k m hm => absurd hm (hmatches k m), fun k m hm => absurd hm (hmatches k m),
      fun k m hm => absurd hm (hmatches k m), fun k j m n hm => absurd hm (hmatches k m)⟩ }

/-- The lease invariant holds along the runs whose events keep the queue, and all
of it along those that keep the matches too. -/
theorem Reaches.inv {P : World → Event → Prop} (h : Reaches P w)
    (hP : ∀ v e, P v e → v.KeepsQueue e ∧ (live → v.KeepsMatches e)) : w.core.Inv live := by
  obtain ⟨w₀, h₀, hrun⟩ := h
  have hstep : ∀ s e t, s.core.Inv live → P s e → Step s e t → t.core.Inv live :=
    fun s e t hs he hone => hone.inv hs (hP s e he).1 (hP s e he).2
  have hinv := hrun.invariant hstep h₀.inv
  exact hinv

end Soms.Somsai

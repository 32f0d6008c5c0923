import Mathlib.Data.List.Basic
import Soms.Somsai.Machine

/-!
# Leases, bots and new matches

What `reserve_members`, `create_bot_team`, `create_match` and `balance_units` do
when they return, and which tables a release leaves alone.
-/

namespace Soms.Somsai

open Txn World

namespace World

/-! ## Leasing -/

/-- The lease that `reserve_members` gives. -/
def reserve (now : Time) (captain : UserId) (members : List UserId) (kind : ReservationKind)
    (partyId : Option PartyId) (w : World) : World :=
  let reservation : Reservation :=
    { captainId := captain, partyId := partyId, kind := kind, members := members,
      expiresAt := now + seconds 600 }
  members.foldl (fun v uid => v.setReservation now uid (some w.reservations.next))
    { w with reservations := w.reservations.insert reservation }

/-- The accounts that `create_bot_team` adds. -/
def addBots (count : Nat) (name : Nat → String) (w : World) : World :=
  { w with
    users := (List.range count).foldl
      (fun users i => users.insert { username := name i, isBot := true }) w.users }

/-- The match that `create_match` opens, with its members pointed at it. -/
def openMatch (ctx : Ctx) (setup : Setup) (pool : Pool) (rating : ℚ) (w : World) : World :=
  (w.addMatch ctx setup pool rating).pointAt ctx w.matchRows.next setup.members

/-- Members whom `reserve_members` accepts: distinct players without a lease. -/
structure Core.Idle (c : Core) (members : List UserId) : Prop where
  nonempty : members ≠ []
  nodup : members.Nodup
  player : ∀ uid ∈ members, c.account uid = some false
  free : ∀ uid ∈ members, c.reservationOf uid = none

/-- One step towards a match or a queue entry: nothing of the core changes,
members lease, or bots are made. -/
inductive Lease : World → World → Prop
  | quiet {w t : World} (h : Quiet w t) : Lease w t
  | reserve {w : World} (now : Time) (captain : UserId) {members : List UserId}
      {kind : ReservationKind} (partyId : Option PartyId) (hidle : w.core.Idle members)
      (hkind : kind.isRanked = false) : Lease w (w.reserve now captain members kind partyId)
  | bots (w : World) (count : Nat) (name : Nat → String) : Lease w (w.addBots count name)

/-- The closure of `Lease`. -/
def Leases : World → World → Prop := Relation.ReflTransGen Lease

instance : Std.Refl Leases := ⟨fun _ => .refl⟩

instance : IsTrans World Leases := ⟨fun _ _ _ => Relation.ReflTransGen.trans⟩

end World

instance {α : Type} {x : Act α} [h : Follows Quiet x] : Follows Leases x :=
  h.mono fun _ _ hquiet => .single (.quiet hquiet)

theorem account_of_isActive {w : World} {uid : UserId} (h : w.isActive uid = true) :
    w.account uid = some false := by
  unfold isActive at h
  split at h
  · next user hrow =>
    simp only [Bool.and_eq_true, Bool.not_eq_true'] at h
    simp [account, hrow, h.1.2]
  · simp at h

/-- Members who pass the checks one after the other are all free at the end. -/
theorem checkReservable_all {now : Time} {uids : List UserId} {w t : World} {u : Unit}
    (h : uids.forM (checkReservable now) w = (.ok u, t)) :
    Quiet w t ∧ ∀ uid ∈ uids, t.core.account uid = some false ∧ t.core.reservationOf uid = none := by
  induction uids generalizing w with
  | nil =>
    obtain ⟨-, rfl⟩ := pure_ok.mp h
    exact ⟨.refl w, by simp⟩
  | cons uid rest ih =>
    obtain ⟨_, v, hone, hrest⟩ := bind_ok.mp h
    have hquiet : Quiet w v := (inferInstance : Follows Quiet (checkReservable now uid)).ok hone
    obtain ⟨hquiet', hall⟩ := ih hrest
    obtain ⟨_, _, hcheck, hone⟩ := bind_ok.mp hone
    obtain ⟨hactive, rfl⟩ := refuse_ok.mp hcheck
    obtain ⟨_, _, hnative, hone⟩ := bind_ok.mp hone
    obtain ⟨-, rfl⟩ := refuse_ok.mp hnative
    obtain ⟨_, _, htouch, hidle⟩ := bind_ok.mp hone
    obtain ⟨hfree, rfl⟩ := refuse_ok.mp hidle
    have haccount := account_of_isActive (by simpa using hactive)
    refine ⟨hquiet.trans hquiet', fun x hx => ?_⟩
    rcases List.mem_cons.mp hx with rfl | hx
    · rw [hquiet'.core]
      refine ⟨?_, Option.not_isSome_iff_eq_none.mp hfree⟩
      rw [hquiet.core]
      exact haccount
    · exact hall x hx

/-- What `reserve_members` does. -/
theorem reserveMembers_ok {now : Time} {captain : UserId} {members : List UserId}
    {kind : ReservationKind} {partyId : Option PartyId} {w t : World} {r : ReservationId}
    (h : reserveMembers now captain members kind partyId w = (.ok r, t)) :
    ∃ v, Quiet w v ∧ v.core.Idle members ∧ r = v.reservations.next ∧
      t = v.reserve now captain members kind partyId := by
  obtain ⟨_, _, hrefuse, h⟩ := bind_ok.mp h
  obtain ⟨hteam, rfl⟩ := refuse_ok.mp hrefuse
  obtain ⟨_, v, hcheck, h⟩ := bind_ok.mp h
  obtain ⟨hquiet, hall⟩ := checkReservable_all hcheck
  obtain ⟨r', _, hnext, h⟩ := bind_ok.mp h
  obtain ⟨rfl, rfl⟩ := read_ok.mp hnext
  obtain ⟨_, _, hinsert, h⟩ := bind_ok.mp h
  obtain rfl := write_ok.mp hinsert
  obtain ⟨_, _, hpoint, h⟩ := bind_ok.mp h
  obtain rfl := write_ok.mp hpoint
  obtain ⟨rfl, rfl⟩ := pure_ok.mp h
  have hall : ∀ uid ∈ members, _ := fun uid hmem => hall uid ((List.mem_insertionSort _).mpr hmem)
  have hnodup : members.Nodup := by
    by_contra hnot
    exact hteam (.inr (.inr hnot))
  exact ⟨v, hquiet, ⟨fun hempty => hteam (.inl hempty), hnodup, fun uid hmem => (hall uid hmem).1,
    fun uid hmem => (hall uid hmem).2⟩, rfl, rfl⟩

theorem account_addBots (w : World) (count : Nat) (name : Nat → String) (uid : UserId) :
    (w.addBots count name).account uid =
      if w.users.next ≤ uid ∧ uid < w.users.next + count then some true else w.account uid := by
  have hrow := (w.users.insert_range (fun i => { username := name i, isBot := true }) count).2 uid
  simp only [account, addBots]
  rw [hrow]
  split <;> rfl

/-- What `create_bot_team` does: every bot is a new account of its own. -/
theorem createBotTeam_ok {count : Nat} {personas : List BotPersona} {w t : World}
    {bots : List Bot} (h : createBotTeam count personas w = (.ok bots, t)) :
    ∃ name, t = w.addBots count name ∧
      (∀ bot ∈ bots, w.account bot.userId = none ∧ t.account bot.userId = some true) ∧
      (bots.map (·.userId)).Nodup ∧ bots.length = count := by
  obtain ⟨first, _, hread, h⟩ := bind_ok.mp h
  obtain ⟨rfl, rfl⟩ := read_ok.mp hread
  obtain ⟨_, v, hwrite, h⟩ := bind_ok.mp h
  obtain rfl := write_ok.mp hwrite
  obtain ⟨rfl, rfl⟩ := pure_ok.mp h
  refine ⟨_, rfl, fun bot hbot => ?_, ?_, by simp⟩
  · obtain ⟨i, hi, rfl⟩ := List.mem_map.mp hbot
    have hi : i < count := List.mem_range.mp hi
    refine ⟨by simp [account, w.users.fresh (w.users.next + i) (by omega)], ?_⟩
    refine (account_addBots w count _ (w.users.next + i)).trans (if_pos ?_)
    exact ⟨Nat.le_add_right _ _, Nat.add_lt_add_left hi _⟩
  · rw [List.map_map]
    exact List.nodup_range.map fun i j hij => Nat.add_left_cancel hij

/-- What `create_match` does. -/
theorem createMatch_ok {ctx : Ctx} {setup : Setup} {w t : World} {k : MatchId}
    (h : createMatch ctx setup w = (.ok k, t)) :
    ∃ v pool rating, Quiet w v ∧ pool.WellFormed ∧ k = v.matchRows.next ∧
      t = v.openMatch ctx setup pool rating := by
  obtain ⟨_, _, hbots, h⟩ := bind_ok.mp h
  obtain ⟨-, rfl⟩ := refuse_ok.mp hbots
  obtain ⟨_, v, hensure, h⟩ := bind_ok.mp h
  obtain rfl := write_ok.mp hensure
  obtain ⟨ratings, _, hread, h⟩ := bind_ok.mp h
  obtain ⟨-, rfl⟩ := read_ok.mp hread
  obtain ⟨_, _, hempty, h⟩ := bind_ok.mp h
  obtain ⟨-, rfl⟩ := refuse_ok.mp hempty
  obtain ⟨_, _, hpool, h⟩ := bind_ok.mp h
  obtain ⟨-, rfl⟩ := refuse_ok.mp hpool
  obtain ⟨k', _, hnext, h⟩ := bind_ok.mp h
  obtain ⟨rfl, rfl⟩ := read_ok.mp hnext
  obtain ⟨pool, _, hmixed, h⟩ := bind_ok.mp h
  obtain ⟨hmixed, rfl⟩ := attempt_ok.mp hmixed
  obtain ⟨_, _, hadd, h⟩ := bind_ok.mp h
  obtain rfl := write_ok.mp hadd
  obtain ⟨_, _, hpoint, h⟩ := bind_ok.mp h
  obtain rfl := write_ok.mp hpoint
  obtain ⟨rfl, rfl⟩ := pure_ok.mp h
  exact ⟨_, pool, _, quiet_ensureRatings w _, mixedPool_wellFormed ‹_›, rfl, rfl⟩

/-- A match that cannot be created leaves ratings behind at most. -/
theorem createMatch_error {ctx : Ctx} {setup : Setup} {w t : World} {e : Failure}
    (h : createMatch ctx setup w = (.error e, t)) : Quiet w t := by
  have hensure := quiet_ensureRatings w (setup.humans.map setup.ratingKey)
  simp only [createMatch, bind_error, refuse_ok, refuse_error, write_ok, write_error, read_ok,
    read_error, attempt_ok, attempt_error, pure_error, false_or, or_false, and_false,
    exists_false] at h
  rcases h with ⟨-, rfl⟩ | ⟨_, _, ⟨-, rfl⟩, _, v, rfl, _, _, ⟨-, rfl⟩,
    ⟨-, rfl⟩ | ⟨_, _, ⟨-, rfl⟩, ⟨-, rfl⟩ | ⟨_, _, ⟨-, rfl⟩, _, _, ⟨-, rfl⟩, -, rfl⟩⟩⟩
  · exact .refl w
  · exact hensure
  · exact hensure
  · exact hensure

/-! ## Groups -/

theorem mem_combinations {α : Type} {n : Nat} {l c : List α} (h : c ∈ combinations n l) :
    c.Sublist l := by
  induction l generalizing n c with
  | nil =>
    cases n with
    | zero => simp_all [combinations]
    | succ n => simp [combinations] at h
  | cons a rest ih =>
    cases n with
    | zero =>
      obtain rfl : c = [] := by simpa [combinations] using h
      exact List.nil_sublist _
    | succ n =>
      simp only [combinations, List.mem_append, List.mem_map] at h
      rcases h with ⟨c', hc', rfl⟩ | hc
      · exact (ih hc').cons_cons a
      · exact (ih hc).cons a

theorem pickUnits_perm (mask : Nat) (entries : List QueueEntry) :
    (pickUnits mask true entries ++ pickUnits mask false entries).Perm entries := by
  have h := List.filter_append_perm (fun x : QueueEntry × Nat => mask.testBit x.2) entries.zipIdx
  have hmap := h.map Prod.fst
  rw [List.map_append, List.zipIdx_map_fst] at hmap
  simpa [pickUnits] using hmap

/-- Balanced teams hold the members of the units, no more and no fewer, and each
has its size. -/
theorem balanceUnits_perm {entries : List QueueEntry} {size : Nat}
    {teams : PerTeam (List UserId)} (h : balanceUnits entries size = some teams) :
    (teams.red ++ teams.blue).Perm (unitMembers entries) ∧
      ∀ team, (teams.get team).length = size := by
  have hfold : ∀ (masks : List Nat) (best : Option (ℚ × PerTeam (List UserId))),
      (∀ x, best = some x →
        (x.2.red ++ x.2.blue).Perm (unitMembers entries) ∧ x.2.red.length = size) →
      ∀ x, masks.foldl (balanceStep entries size) best = some x →
        (x.2.red ++ x.2.blue).Perm (unitMembers entries) ∧ x.2.red.length = size := by
    intro masks
    induction masks with
    | nil => exact fun best hbest => hbest
    | cons mask rest ih =>
      intro best hbest
      refine ih _ fun x hx => ?_
      have hsplit : (unitMembers (pickUnits mask true entries) ++
          unitMembers (pickUnits mask false entries)).Perm (unitMembers entries) := by
        rw [unitMembers, unitMembers, ← List.flatMap_append]
        exact (pickUnits_perm mask entries).flatMap_right _
      simp only [balanceStep] at hx
      split at hx
      · exact hbest x hx
      · next hsize =>
        split at hx
        · obtain rfl := Option.some.inj hx
          exact ⟨hsplit, not_not.mp hsize⟩
        · split at hx
          · obtain rfl := Option.some.inj hx
            exact ⟨hsplit, not_not.mp hsize⟩
          · exact hbest x hx
  unfold balanceUnits at h
  split at h
  · simp at h
  · next htotal =>
    obtain ⟨x, hx, rfl⟩ := Option.map_eq_some_iff.mp h
    obtain ⟨hperm, hred⟩ := hfold _ none (by simp) x hx
    refine ⟨hperm, fun team => ?_⟩
    have hlength := hperm.length_eq
    rw [List.length_append, not_not.mp htotal, hred] at hlength
    cases team with
    | red => exact hred
    | blue =>
      show x.2.blue.length = size
      omega

/-- The selected entries are among those offered, and the teams are made of them. -/
theorem selectGroup_some {now : Time} {size : Nat} {anchor : QueueRow} {rest : List QueueRow}
    {selected : List QueueRow} {teams : PerTeam (List UserId)}
    (h : selectGroup now size anchor rest = some (selected, teams)) :
    selected.Sublist (anchor :: rest) ∧
      (teams.red ++ teams.blue).Perm (unitMembers (selected.map Prod.snd)) ∧
      ∀ team, (teams.get team).length = size := by
  obtain ⟨candidate, hmem, hcandidate⟩ := List.exists_of_findSome?_eq_some h
  split at hcandidate
  · obtain ⟨teams', hteams, heq⟩ := Option.map_eq_some_iff.mp hcandidate
    obtain ⟨rfl, rfl⟩ := Prod.mk.inj heq
    refine ⟨?_, balanceUnits_perm hteams⟩
    obtain ⟨count, -, hcount⟩ := List.mem_flatMap.mp hmem
    split at hcount
    · simp at hcount
    · obtain ⟨others, hothers, rfl⟩ := List.mem_map.mp hcount
      refine List.Sublist.cons_cons anchor ((mem_combinations hothers).trans ?_)
      exact List.filter_sublist.trans (List.take_sublist _ _)
  · simp at hcandidate

/-! ## What an update leaves alone -/

namespace World

theorem setActivity_fold {α : Type} (now : Time) (who : α → UserId) (f : α → Activity → Activity)
    (l : List α) (w : World) : ∃ activity,
      l.foldl (fun v a => v.setActivity now (who a) (f a)) w = { w with activity := activity } := by
  induction l generalizing w with
  | nil => exact ⟨w.activity, rfl⟩
  | cons a rest ih =>
    obtain ⟨activity, h⟩ := ih (w.setActivity now (who a) (f a))
    exact ⟨activity, h⟩

theorem releaseMember_fold (now : Time) (r : ReservationId) (l : List UserId) (w : World) :
    ∃ activity, l.foldl (releaseMember now r) w = { w with activity := activity } := by
  induction l generalizing w with
  | nil => exact ⟨w.activity, rfl⟩
  | cons uid rest ih =>
    have hone : ∃ activity, releaseMember now r w uid = { w with activity := activity } := by
      unfold releaseMember touchActivity
      split <;> exact ⟨_, rfl⟩
    obtain ⟨first, hfirst⟩ := hone
    obtain ⟨activity, h⟩ := ih (releaseMember now r w uid)
    refine ⟨activity, ?_⟩
    rw [List.foldl_cons, h, hfirst]

/-- A release changes activity rows and the lease. -/
theorem releaseReservation_frame (now : Time) (w : World) (r : ReservationId) :
    ∃ activity reservations, w.releaseReservation now r =
      { w with activity := activity, reservations := reservations } := by
  unfold releaseReservation
  split
  · exact ⟨_, _, rfl⟩
  · next reservation _ =>
    obtain ⟨activity, h⟩ := releaseMember_fold now r reservation.members w
    dsimp only
    rw [h]
    split <;> exact ⟨_, _, rfl⟩

theorem releaseAll_frame (now : Time) (rs : List ReservationId) (w : World) :
    ∃ activity reservations, rs.foldl (releaseReservation now) w =
      { w with activity := activity, reservations := reservations } := by
  induction rs generalizing w with
  | nil => exact ⟨_, _, rfl⟩
  | cons r rest ih =>
    obtain ⟨activity, reservations, h⟩ := releaseReservation_frame now w r
    obtain ⟨activity', reservations', h'⟩ := ih (w.releaseReservation now r)
    refine ⟨activity', reservations', ?_⟩
    rw [List.foldl_cons, h', h]

theorem pointAt_frame (ctx : Ctx) (k : MatchId) (members : List UserId) (w : World) :
    ∃ activity, w.pointAt ctx k members = { w with activity := activity } :=
  setActivity_fold ctx.now id (fun _ a => { a with matchId := some k }) members w

/-- The lease that `reserve` stores. -/
def leaseOf (now : Time) (captain : UserId) (members : List UserId) (kind : ReservationKind)
    (partyId : Option PartyId) : Reservation :=
  { captainId := captain, partyId := partyId, kind := kind, members := members,
    expiresAt := now + seconds 600 }

theorem reserve_frame (now : Time) (captain : UserId) (members : List UserId)
    (kind : ReservationKind) (partyId : Option PartyId) (w : World) : ∃ activity,
      w.reserve now captain members kind partyId =
        { w with
          activity := activity
          reservations := w.reservations.insert (leaseOf now captain members kind partyId) } :=
  setActivity_fold now id (fun _ a => { a with reservationId := some w.reservations.next }) members
    { w with reservations := w.reservations.insert (leaseOf now captain members kind partyId) }

theorem row_dropEntry (now : Time) (w : World) (x : QueueRow) (i : Nat) :
    (w.dropEntry now x).queue.row i = if i = x.1 then none else w.queue.row i := by
  obtain ⟨activity, reservations, h⟩ := releaseReservation_frame now w x.2.reservationId
  simp only [dropEntry, h, Table.row_delete]

theorem row_deleteEntries (w : World) (rows : List QueueRow) (i : Nat) :
    (w.deleteEntries rows).queue.row i =
      if i ∈ rows.map Prod.fst then none else w.queue.row i := by
  unfold deleteEntries
  induction rows generalizing w with
  | nil => simp
  | cons x rest ih =>
    rw [List.foldl_cons, ih]
    by_cases hrest : i ∈ rest.map Prod.fst
    · simp [hrest]
    · by_cases hi : i = x.1 <;> simp [hrest, hi]

theorem deleteEntries_frame (rows : List QueueRow) (w : World) : ∃ queue,
    w.deleteEntries rows = { w with queue := queue } := by
  unfold deleteEntries
  induction rows generalizing w with
  | nil => exact ⟨w.queue, rfl⟩
  | cons x rest ih =>
    obtain ⟨queue, h⟩ := ih { w with queue := w.queue.delete x.1 }
    exact ⟨queue, h⟩

/-! ## Pointers -/

theorem reservationOf_setActivity (w : World) (now : Time) (uid : UserId) (f : Activity → Activity)
    (x : UserId) : (w.setActivity now uid f).reservationOf x =
      if x = uid then (f (w.activityRow now uid)).reservationId else w.reservationOf x := by
  by_cases h : x = uid <;> simp [reservationOf, setActivity, h]

theorem matchOf_setActivity (w : World) (now : Time) (uid : UserId) (f : Activity → Activity)
    (x : UserId) : (w.setActivity now uid f).matchOf x =
      if x = uid then (f (w.activityRow now uid)).matchId else w.matchOf x := by
  by_cases h : x = uid <;> simp [matchOf, setActivity, h]

theorem activityRow_reservationId (w : World) (now : Time) (uid : UserId) :
    (w.activityRow now uid).reservationId = w.reservationOf uid := by
  cases h : w.activity uid <;> simp [activityRow, reservationOf, h]

theorem activityRow_matchId (w : World) (now : Time) (uid : UserId) :
    (w.activityRow now uid).matchId = w.matchOf uid := by
  cases h : w.activity uid <;> simp [activityRow, matchOf, h]

theorem setReservations (now : Time) (r : Option ReservationId) (l : List UserId) (w : World)
    (x : UserId) :
    (l.foldl (fun v uid => v.setReservation now uid r) w).reservationOf x =
        (if x ∈ l then r else w.reservationOf x) ∧
      (l.foldl (fun v uid => v.setReservation now uid r) w).matchOf x = w.matchOf x := by
  induction l generalizing w with
  | nil => simp
  | cons uid rest ih =>
    rw [List.foldl_cons]
    obtain ⟨hr, hm⟩ := ih (w.setReservation now uid r)
    rw [hr, hm, setReservation, reservationOf_setActivity, matchOf_setActivity,
      activityRow_matchId]
    by_cases hx : x = uid <;> by_cases hrest : x ∈ rest <;> simp_all

theorem setMatches (now : Time) (k : Option MatchId) (l : List UserId) (w : World) (x : UserId) :
    (l.foldl (fun v uid => v.setMatch now uid k) w).matchOf x =
        (if x ∈ l then k else w.matchOf x) ∧
      (l.foldl (fun v uid => v.setMatch now uid k) w).reservationOf x = w.reservationOf x := by
  induction l generalizing w with
  | nil => simp
  | cons uid rest ih =>
    rw [List.foldl_cons]
    obtain ⟨hm, hr⟩ := ih (w.setMatch now uid k)
    rw [hr, hm, setMatch, reservationOf_setActivity, matchOf_setActivity,
      activityRow_reservationId]
    by_cases hx : x = uid <;> by_cases hrest : x ∈ rest <;> simp_all

end World

/-- What the members hold after `reserve_members`, and what it leaves alone. -/
theorem reserveMembers_leases {now : Time} {captain : UserId} {members : List UserId}
    {kind : ReservationKind} {partyId : Option PartyId} {w t : World} {r : ReservationId}
    (hkind : kind.isRanked = false)
    (h : reserveMembers now captain members kind partyId w = (.ok r, t)) :
    Leases w t ∧ w.reservations.next ≤ r ∧
      t.reservations.row r = some (leaseOf now captain members kind partyId) ∧
      (∀ r' x, w.reservations.row r' = some x → t.reservations.row r' = some x) ∧
      (∀ uid, t.reservationOf uid = if uid ∈ members then some r else w.reservationOf uid) ∧
      (∀ uid ∈ members, w.account uid = some false) ∧ t.account = w.account ∧
      t.matchRows = w.matchRows ∧ members.Nodup ∧
      ∀ uid ∈ members, w.reservationOf uid = none := by
  obtain ⟨v, hquiet, hidle, rfl, rfl⟩ := reserveMembers_ok h
  have hcore : ∀ {α : Type} (f : Core → α), f v.core = f w.core := fun f => by rw [hquiet.core]
  have hnext : v.reservations.next = w.reservations.next := hcore fun c => c.reservations.next
  have haccount : v.account = w.account := hcore Core.account
  have hheld : v.reservationOf = w.reservationOf := hcore Core.reservationOf
  obtain ⟨activity, hframe⟩ := reserve_frame now captain members kind partyId v
  refine ⟨?_, hnext.ge, ?_, fun r' x hrow => ?_, fun uid => ?_, fun uid hmem => ?_, ?_, ?_,
    hidle.nodup, fun uid hmem => ?_⟩
  · exact (Relation.ReflTransGen.single (.quiet hquiet)).tail
      (.reserve now captain partyId hidle hkind)
  · rw [hframe]
    exact if_pos rfl
  · have hrow' : v.reservations.row r' = some x := (hcore fun c => c.reservations.row r').trans hrow
    rw [hframe]
    exact Table.row_insert_of_some hrow'
  · rw [← hheld]
    exact (setReservations now (some v.reservations.next) members _ uid).1
  · rw [← haccount]
    exact hidle.player uid hmem
  · rw [hframe]
    exact haccount
  · rw [hframe]
    exact hcore Core.matchRows
  · rw [← hheld]
    exact hidle.free uid hmem

end Soms.Somsai

import Soms.Somsai.Links
import Soms.Somsai.PartyInvariant

/-!
# Phantom parties

`expire_stale_parties` keeps a silent member who holds a lease or has a match
pointer.  A lease is live as long as somebody holds it, but `finish_match` leaves
the pointer behind: it names the match, live or not, on whose roster the user is.
-/

namespace Soms.Somsai

open Txn World

namespace World.Core

/-- Leases are live, and a match pointer names a match with the user on its roster. -/
structure Anchored (c : Core) : Prop where
  held : c.Held
  live : ∀ r x, c.reservations.row r = some x → x.released = false
  placed : ∀ uid k, c.matchOf uid = some k →
    ∃ m, c.matchRows.row k = some m ∧ uid ∈ membersOf m

variable {c d : Core}

/-- Rosters do not lose members, and pointers are old, gone, or to a match of the user. -/
theorem Anchored.frame (h : c.Anchored) (hheld : d.Held)
    (hlive : ∀ r x, d.reservations.row r = some x → x.released = false)
    (hrows : ∀ k m, c.matchRows.row k = some m →
      ∃ n, d.matchRows.row k = some n ∧ ∀ uid ∈ membersOf m, uid ∈ membersOf n)
    (hpointer : ∀ uid k, d.matchOf uid = some k → c.matchOf uid = some k ∨
      ∃ n, d.matchRows.row k = some n ∧ uid ∈ membersOf n) : d.Anchored := by
  refine ⟨hheld, hlive, fun uid k hk => ?_⟩
  rcases hpointer uid k hk with hold | hnew
  · obtain ⟨m, hm, hmem⟩ := h.placed uid k hold
    obtain ⟨n, hn, hsub⟩ := hrows k m hm
    exact ⟨n, hn, hsub uid hmem⟩
  · exact hnew

/-- The queue and the settlements do not matter, pointers may go, and accounts may
be added. -/
theorem Anchored.same (h : c.Anchored) (hres : d.reservations = c.reservations)
    (hheld : d.reservationOf = c.reservationOf) (hrows : d.matchRows = c.matchRows)
    (hpointer : ∀ uid k, d.matchOf uid = some k → c.matchOf uid = some k)
    (haccount : ∀ uid b, c.account uid = some b → d.account uid = some b) : d.Anchored :=
  h.frame (h.held.same hres hheld haccount) (hres ▸ h.live)
    (fun _ m hm => ⟨m, hrows ▸ hm, fun _ => id⟩) fun uid k hk => .inl (hpointer uid k hk)

/-- Free players take a new lease. -/
theorem Anchored.reserve (h : c.Anchored) (x : Reservation) (hidle : c.Idle x.members)
    (hkind : x.kind.isRanked = false) (hx : x.released = false)
    (reservationOf : UserId → Option ReservationId)
    (hheld : ∀ uid, reservationOf uid =
      if uid ∈ x.members then some c.reservations.next else c.reservationOf uid) :
    Anchored
      { c with reservations := c.reservations.insert x, reservationOf := reservationOf } := by
  refine h.frame (h.held.reserve x hidle hkind reservationOf hheld) (fun r y hy => ?_)
    (fun k m hm => ⟨m, hm, fun _ => id⟩) fun _ _ => .inl
  have hy : (c.reservations.insert x).row r = some y := hy
  rw [Table.row_insert] at hy
  split at hy
  · exact Option.some.inj hy ▸ hx
  · exact h.live r y hy

theorem Anchored.renew (h : c.Anchored) (r : ReservationId) (t : Time) :
    Anchored
      { c with reservations := c.reservations.modify r fun x => { x with expiresAt := t } } := by
  refine h.frame (h.held.renew r t) (fun r' y hy => ?_) (fun k m hm => ⟨m, hm, fun _ => id⟩)
    fun _ _ => .inl
  obtain ⟨x, hx, -, -, hreleased⟩ := row_of_renewed hy
  exact hreleased.trans (h.live r' x hx)

theorem Anchored.release {rs : List ReservationId} (h : c.Anchored) (hr : Released c d rs) :
    d.Anchored := by
  refine h.frame (h.held.released hr) (fun r x hx => ?_)
    (fun k m hm => ⟨m, hr.matchRows ▸ hm, fun _ => id⟩) fun uid k hk => ?_
  · rw [hr.row] at hx
    split at hx
    · simp at hx
    · exact h.live r x hx
  · rw [hr.pointer] at hk
    split at hk
    · simp at hk
    · exact .inl hk

/-- The row of a match changes, and its roster does not lose a member. -/
theorem Anchored.put (h : c.Anchored) {k : MatchId} {m m' : Match}
    (hrow : c.matchRows.row k = some m) (hsub : ∀ uid ∈ membersOf m, uid ∈ membersOf m') :
    Anchored { c with matchRows := c.matchRows.modify k fun _ => m' } := by
  refine h.frame (h.held.same rfl rfl fun _ _ => id) h.live (fun j n hn => ?_) fun _ _ => .inl
  show ∃ n', (c.matchRows.modify k fun _ => m').row j = some n' ∧ _
  rw [Table.row_modify]
  split
  · next hj =>
    subst hj
    obtain rfl := Option.some.inj (hrow.symm.trans hn)
    exact ⟨m', by rw [hn]; rfl, hsub⟩
  · exact ⟨n, hn, fun _ => id⟩

/-- Members of a match point at it. -/
theorem Anchored.point (h : c.Anchored) {k : MatchId} {m : Match} {members : List UserId}
    (hrow : c.matchRows.row k = some m) (hsub : ∀ uid ∈ members, uid ∈ membersOf m) :
    Anchored { c with matchOf := fun uid => if uid ∈ members then some k else c.matchOf uid } := by
  refine h.frame (h.held.same rfl rfl fun _ _ => id) h.live (fun j n hn => ⟨n, hn, fun _ => id⟩)
    fun uid j hj => ?_
  have hj : (if uid ∈ members then some k else c.matchOf uid) = some j := hj
  split at hj
  · next hmem =>
    obtain rfl := Option.some.inj hj
    exact .inr ⟨m, hrow, hsub uid hmem⟩
  · exact .inl hj

/-- A match opens, and its members point at it. -/
theorem Anchored.add (h : c.Anchored) (m : Match) (queue : Table QueueEntry) :
    Anchored
      { c with
        matchRows := c.matchRows.insert m, queue := queue
        matchOf := fun uid =>
          if uid ∈ membersOf m then some c.matchRows.next else c.matchOf uid } := by
  refine h.frame (h.held.same rfl rfl fun _ _ => id) h.live
    (fun j n hn => ⟨n, Table.row_insert_of_some hn, fun _ => id⟩) fun uid j hj => ?_
  have hj : (if uid ∈ membersOf m then some c.matchRows.next else c.matchOf uid) = some j := hj
  split at hj
  · next hmem =>
    obtain rfl := Option.some.inj hj
    exact .inr ⟨m, if_pos rfl, hmem⟩
  · exact .inl hj

end World.Core

/-! ## Changes -/

section Changes

variable {clock : Prop} {ctx : Ctx} {request : Request} {k : MatchId} {u w t : World} {m : Match}

theorem World.Quiet.anchored (h : Quiet w t) (hw : w.core.Anchored) : t.core.Anchored := by
  rw [h.core]
  exact hw

theorem World.Leases.anchored (h : Leases w u) (hw : w.core.Anchored) :
    u.core.Anchored ∧ u.matchRows = w.matchRows := by
  induction h with
  | refl => exact ⟨hw, rfl⟩
  | @tail v t _ hlast ih =>
    obtain ⟨hv, hrows⟩ := ih
    cases hlast with
    | quiet hq => exact ⟨hq.anchored hv, (congrArg Core.matchRows hq.core).trans hrows⟩
    | @reserve now captain members kind partyId hidle hkind =>
      have hcore := core_reserve now captain members kind partyId v
      refine ⟨?_, (congrArg Core.matchRows hcore).trans hrows⟩
      rw [hcore]
      exact hv.reserve (leaseOf now captain members kind partyId) hidle hkind rfl _ fun _ => rfl
    | bots count name =>
      exact ⟨hv.same rfl rfl rfl (fun _ _ => id) (account_grows v count name), hrows⟩

theorem finishMatch_anchored (winner : Option Team) (cancelled : Bool) (reason : String)
    (hrow : w.matchRows.row k = some m) (hlive : m.stage.final = false)
    (hw : w.core.Anchored) : (w.finishMatch ctx k winner cancelled reason).core.Anchored := by
  unfold finishMatch
  simp only [hrow, hlive, Bool.false_eq_true, if_false]
  obtain ⟨l, hsettle⟩ := core_settle ctx w k (m.closed ctx winner cancelled reason) winner cancelled
  generalize w.settle ctx k _ winner cancelled = settled at hsettle ⊢
  have hsettled : settled.1.core.Anchored :=
    hsettle ▸ hw.same rfl rfl rfl (fun _ _ => id) fun _ _ => id
  have hrow' : settled.1.core.matchRows.row k = some m := by
    rw [hsettle]
    exact hrow
  generalize hclosed : (m.closed ctx winner cancelled reason).withRatings winner settled.2 = m'
  have hmembers : membersOf m' = membersOf m := by
    rw [← hclosed]
    rfl
  have hput : (settled.1.putMatch k m').core.Anchored :=
    hsettled.put hrow' fun uid hu => hmembers ▸ hu
  have hreleased := released_all ctx.now m.state.reservations hput.held
  rw [core_pointAt]
  refine (hput.release hreleased).point (m := m') ?_ fun uid hu => ?_
  · rw [hreleased.matchRows]
    exact row_putMatch hrow' m'
  · rw [hmembers]
    exact hu

theorem Play.anchored (h : Play clock ctx k w t) (hw : w.core.Anchored) : t.core.Anchored := by
  cases h with
  | quiet hq => exact hq.anchored hw
  | @move m m' hrow hupdate =>
    have hteams : m'.state.teams = m.state.teams :=
      congrArg Match.Seats.teams hupdate.move.seats
    refine hw.put hrow fun uid hu => ?_
    rw [membersOf, hteams]
    exact hu
  | finish hrow hlive => exact finishMatch_anchored _ _ _ hrow hlive hw
  | @round m hrow slot winner totals players forfeit reason hslot hcounts champion cancelled why =>
    have hput : (w.putMatch k (m.record ctx slot winner totals players forfeit
        reason)).core.Anchored := hw.put hrow fun _ => id
    exact finishMatch_anchored champion cancelled why (row_putMatch hrow _) hcounts.live hput

/-- Queue rows go, and with them their leases. -/
theorem dropEntries_anchored (now : Time) (rows : List QueueRow) (hw : w.core.Anchored) :
    (((rows.map fun x => x.2.reservationId).foldl (releaseReservation now) w).deleteEntries
      rows).core.Anchored := by
  have hreleased := released_all now (rows.map fun x => x.2.reservationId) hw.held
  obtain ⟨queue, hframe⟩ := deleteEntries_frame rows
    ((rows.map fun x => x.2.reservationId).foldl (releaseReservation now) w)
  rw [hframe]
  exact (hw.release hreleased).same rfl rfl rfl (fun _ _ => id) fun _ _ => id

theorem World.Change.anchored (h : Change clock ctx w t) (hw : w.core.Anchored) :
    t.core.Anchored := by
  cases h with
  | play h => exact Play.anchored h hw
  | expire hrow hkind =>
    rw [hw.held.kind _ _ hrow] at hkind
    simp at hkind
  | renew r time => exact hw.renew r time
  | refresh i time => exact hw.same rfl rfl rfl (fun _ _ => id) fun _ _ => id
  | @drop x hrow => exact dropEntries_anchored ctx.now [x] hw
  | @enqueue u hl entry x hnew hrow hmembers =>
    have hpointers := setMatches ctx.now none entry.members
      { u with queue := u.queue.insert entry }
    obtain ⟨activity, hframe⟩ := enqueue_frame ctx.now entry u
    have hheld : (u.enqueue ctx.now entry).reservationOf = u.reservationOf :=
      funext fun uid => (hpointers uid).2
    refine (hl.anchored hw).1.same ?_ hheld ?_ (fun uid k hk => ?_) fun uid b hb => ?_
    · rw [hframe]
      rfl
    · rw [hframe]
      rfl
    · have hk := (hpointers uid).1.symm.trans hk
      split at hk
      · simp at hk
      · exact hk
    · rw [hframe]
      exact hb
  | @group selected teams anchor pool rating hrows hteams =>
    obtain ⟨queue, hframe⟩ := deleteEntries_frame selected
      (w.openMatch ctx (groupSetup selected teams anchor) pool rating)
    have hcore := core_openMatch ctx (groupSetup selected teams anchor) pool rating w
    rw [hframe]
    have hadd : Core.Anchored
        { (w.openMatch ctx (groupSetup selected teams anchor) pool rating).core with
          queue := queue } := by
      rw [hcore]
      exact hw.add (newMatch ctx w.matchRows.next (groupSetup selected teams anchor) pool rating
        w.nextRoom) queue
    exact hadd
  | ungroup hrows => exact dropEntries_anchored ctx.now _ hw
  | @opened u hl setup pool rating hranked hleased hseating =>
    rw [core_openMatch]
    exact (hl.anchored hw).1.add (newMatch ctx u.matchRows.next setup pool rating u.nextRoom) u.queue
  | @seat u hl k m hrow hranked hstage members team lease hseated hfree hfits =>
    obtain ⟨hu, hrows⟩ := hl.anchored hw
    have hrow' : u.core.matchRows.row k = some m := by
      rw [show u.core.matchRows = w.matchRows from hrows]
      exact hrow
    have hkept : ∀ uid ∈ membersOf m, uid ∈ membersOf (m.seat ctx members team lease) :=
      fun uid hmem => (membersOf_seat m ctx members team lease uid).mpr (.inl hmem)
    have hput := hu.put hrow' hkept
    rw [core_pointAt]
    exact hput.point (row_putMatch hrow' _) fun uid hmem =>
      (membersOf_seat m ctx members team lease uid).mpr (.inr hmem)

theorem World.Changes.anchored (h : Changes clock ctx w t) (hw : w.core.Anchored) :
    t.core.Anchored := by
  induction h with
  | refl => exact hw
  | tail _ hlast ih => exact hlast.anchored ih

theorem Departure.anchored (h : Departure ctx request u t) (hu : u.core.Anchored) :
    t.core.Anchored := by
  cases h with
  | @forget _ uid =>
    rw [core_setMatch]
    refine hu.same rfl rfl rfl (fun x k hk => ?_) fun _ _ => id
    have hk : (if x ∈ [uid] then none else u.matchOf x) = some k := hk
    split at hk
    · simp at hk
    · exact hk
  | claim => exact hu.release (released_one ctx.now hu.held _)
  | release r => exact hu.release (released_one ctx.now hu.held r)

theorem Step.anchored {e : Event} (h : Step w e t) (hw : w.core.Anchored) : t.core.Anchored := by
  cases h with
  | served ctx request =>
    rcases after_served w ctx request with h | ⟨hquiet, haccounts, hdepart, hrest⟩
    · exact h.anchored hw
    · have hall := (quiet_lockSomsai ctx.now hw.held).trans hquiet
      exact hrest.anchored (hdepart.anchored (hall.anchored hw))
  | changed o ho =>
    refine hw.same rfl rfl rfl (fun _ _ => id) fun uid b hb => ?_
    obtain ⟨user, hrow, rfl⟩ := Option.map_eq_some_iff.mp hb
    obtain ⟨user', hrow', hbot⟩ := ho.users_kept uid user hrow
    show (o.users.row uid).map (·.isBot) = _
    rw [hrow', Option.map_some, hbot]

theorem Reaches.anchored {P : World → Event → Prop} (h : Reaches P w) : w.core.Anchored := by
  obtain ⟨w₀, h₀, hrun⟩ := h
  have hheld : w₀.core.Held := (World.Initial.inv h₀ : w₀.core.Inv False).held
  have hstep : ∀ s e t, s.core.Anchored → P s e → Step s e t → t.core.Anchored :=
    fun s e t hs _ hone => hone.anchored hs
  refine hrun.invariant (I := fun v => v.core.Anchored) hstep ⟨hheld, fun r x hx => ?_, fun uid k hk => ?_⟩
  · simp [World.core, h₀.reservations] at hx
  · simp [World.core, World.matchOf, h₀.activity] at hk

end Changes

/-! ## Stale parties -/

namespace World

/-- The user was heard of since the cutoff, holds a live lease, or is on the roster of
a match that is not over. -/
def Attends (w : World) (cutoff : Time) (uid : UserId) : Prop :=
  (∃ a, w.activity uid = some a ∧ cutoff ≤ a.lastSeenAt) ∨
    (∃ r x, w.reservationOf uid = some r ∧ w.reservations.row r = some x ∧
      x.released = false ∧ uid ∈ x.members) ∨
    ∃ k m, w.matchRows.row k = some m ∧ m.stage.final = false ∧ uid ∈ membersOf m

/-- No active party has a member who is away. -/
def NoPhantom (w : World) (now : Time) : Prop :=
  ∀ p party, w.parties.row p = some party → party.active = true →
    ∀ uid ∈ party.members, w.Attends (now - seconds 15) uid

/-- A silent member of an active party without a lease does not point at a match that
is over, unless another match that is not has the member on its roster. -/
def NoLastMatch (w : World) (now : Time) : Prop :=
  ∀ p party, w.parties.row p = some party → party.active = true →
    ∀ uid ∈ party.members, ∀ a, w.activity uid = some a →
      a.lastSeenAt < now - seconds 15 → a.reservationId = none →
      ∀ k m, a.matchId = some k → w.matchRows.row k = some m → m.stage.final = true →
        ∃ j n, w.matchRows.row j = some n ∧ n.stage.final = false ∧ uid ∈ membersOf n

end World

/-- The party after its turn of the loop. -/
def Party.clean (stays : UserId → Bool) (party : Party) : Party :=
  if party.active = true ∧ party.members.filter stays ≠ party.members then
    party.keep (party.members.filter stays)
  else party

/-- Nobody leaves a party that is not active, or whose members all stay. -/
theorem Party.clean_same {stays : UserId → Bool} {party : Party}
    (h : party.active = true → party.members.filter stays = party.members) :
    party.clean stays = party :=
  if_neg fun hc => hc.2 (h hc.1)

theorem Party.clean_keep {stays : UserId → Bool} {party : Party} (hactive : party.active = true)
    (hleave : party.members.filter stays ≠ party.members) :
    party.clean stays = party.keep (party.members.filter stays) :=
  if_pos ⟨hactive, hleave⟩

section Stale

variable {w : World} {cutoff : Time}

/-- The activity rows without their party pointers. -/
def World.presence (w : World) (uid : UserId) :
    Option (Option ReservationId × Option MatchId × Time) :=
  (w.activity uid).map fun a => (a.reservationId, a.matchId, a.lastSeenAt)

theorem retains_presence {u : World} (h : u.presence = w.presence) :
    u.retains cutoff = w.retains cutoff := by
  funext uid
  have huid := congrFun h uid
  unfold retains
  unfold World.presence at huid
  cases hu : u.activity uid <;> cases hw : w.activity uid <;> simp_all

theorem presence_dropPartyLink (p : PartyId) (w : World) (uid : UserId) :
    (w.dropPartyLink p uid).presence = w.presence := by
  unfold dropPartyLink
  cases ha : w.activity uid with
  | none => rfl
  | some a =>
    dsimp only
    split
    · funext x
      unfold World.presence
      by_cases hx : x = uid
      · simp [hx, ha]
      · simp [hx]
    · rfl

/-- One turn of the loop cleans the party and leaves the rest. -/
theorem expireStaleParty_spec (w : World) (cutoff : Time) (p : PartyId) :
    (w.expireStaleParty cutoff p).presence = w.presence ∧
      ∀ q, (w.expireStaleParty cutoff p).parties.row q =
        if q = p then (w.parties.row q).map (·.clean (w.retains cutoff)) else w.parties.row q := by
  unfold expireStaleParty
  cases hrow : w.parties.row p with
  | none =>
    refine ⟨rfl, fun q => ?_⟩
    by_cases hq : q = p
    · simp [hq, hrow]
    · rw [if_neg hq]
  | some party =>
    dsimp only
    have hdrop := fun l => foldl_leaves (l := l) World.presence (presence_dropPartyLink p) (b := w)
    by_cases hactive : party.active = true
    · obtain ⟨hparties, -⟩ := dropPartyLinks_tables p
        (party.members.filter fun uid => !w.retains cutoff uid) w
      rw [if_pos hactive]
      by_cases hall : party.members.filter (w.retains cutoff) = party.members
      · rw [if_pos hall]
        refine ⟨hdrop _, fun q => ?_⟩
        rw [hparties]
        by_cases hq : q = p
        · simp [hq, hrow, Party.clean_same fun _ => hall]
        · rw [if_neg hq]
      · rw [if_neg hall]
        refine ⟨hdrop _, fun q => ?_⟩
        rw [Table.row_modify, hparties]
        by_cases hq : q = p
        · simp [hq, hrow, Party.clean_keep hactive hall]
        · rw [if_neg hq, if_neg hq]
    · rw [if_neg hactive]
      refine ⟨rfl, fun q => ?_⟩
      by_cases hq : q = p
      · simp [hq, hrow, Party.clean_same fun h => absurd h hactive]
      · rw [if_neg hq]

theorem expireStaleParties_spec (now : Time) (w : World) :
    (w.expireStaleParties now).presence = w.presence ∧
      ∀ p, (w.expireStaleParties now).parties.row p =
        (w.parties.row p).map (·.clean (w.retains (now - seconds 15))) := by
  have hfold : ∀ (ids : List PartyId) (v : World), ids.Nodup → v.presence = w.presence →
      (ids.foldl (expireStaleParty (now - seconds 15)) v).presence = w.presence ∧
        ∀ p, (ids.foldl (expireStaleParty (now - seconds 15)) v).parties.row p =
          if p ∈ ids then (v.parties.row p).map (·.clean (w.retains (now - seconds 15)))
          else v.parties.row p := by
    intro ids
    induction ids with
    | nil => exact fun v _ hv => ⟨hv, fun p => by simp⟩
    | cons q rest ih =>
      intro v hnodup hv
      obtain ⟨hq, hrest⟩ := List.nodup_cons.mp hnodup
      obtain ⟨hpresence, hrows⟩ := expireStaleParty_spec v (now - seconds 15) q
      obtain ⟨hend, hall⟩ := ih _ hrest (hpresence.trans hv)
      refine ⟨hend, fun p => ?_⟩
      rw [List.foldl_cons, hall, hrows, retains_presence hv]
      by_cases hp : p = q
      · subst hp
        simp [hq]
      · simp [hp]
  obtain ⟨hpresence, hrows⟩ := hfold _ w (Table.nodup_toList w.parties) rfl
  refine ⟨hpresence, fun p => ?_⟩
  refine (hrows p).trans ?_
  split
  · rfl
  · next hnot =>
    cases hrow : w.parties.row p with
    | none => rfl
    | some party => exact absurd (List.mem_map_of_mem (Table.mem_toList.mpr hrow)) hnot

/-- Who stays in an active party. -/
theorem mem_clean {stays : UserId → Bool} {party : Party} {uid : UserId}
    (hactive : party.active = true) :
    uid ∈ (party.clean stays).members ↔ uid ∈ party.members ∧ stays uid = true := by
  by_cases hall : party.members.filter stays = party.members
  · rw [Party.clean_same fun _ => hall, ← List.mem_filter, hall]
  · rw [Party.clean_keep hactive hall]
    exact List.mem_filter

theorem active_clean {stays : UserId → Bool} {party : Party} {uid : UserId}
    (hactive : party.active = true) (hmem : uid ∈ (party.clean stays).members) :
    (party.clean stays).active = true := by
  by_cases hall : party.members.filter stays = party.members
  · rw [Party.clean_same fun _ => hall]
    exact hactive
  · rw [Party.clean_keep hactive hall] at hmem ⊢
    show (!(party.members.filter stays).isEmpty) = true
    rw [Bool.not_eq_true', List.isEmpty_eq_false_iff]
    exact List.ne_nil_of_mem hmem

/-- A party that is active afterwards was active before. -/
theorem active_of_clean {stays : UserId → Bool} {party : Party}
    (h : (party.clean stays).active = true) : party.active = true := by
  by_contra hnot
  rw [Party.clean_same fun hc => absurd hc hnot] at h
  exact hnot h

end Stale

/-- In every reachable store, `expire_stale_parties` leaves no phantom exactly if no
silent member points at a match that is over. -/
theorem no_phantom {P : World → Event → Prop} {w : World} (h : Reaches P w) (now : Time) :
    (w.expireStaleParties now).NoPhantom now ↔ w.NoLastMatch now := by
  have hinv := h.anchored
  obtain ⟨hpresence, hparties⟩ := expireStaleParties_spec now w
  have hcore : (w.expireStaleParties now).core = w.core :=
    (quiet_of_view (quietView_expireStaleParties now w)).core
  have hrows : (w.expireStaleParties now).matchRows = w.matchRows := congrArg Core.matchRows hcore
  have hleases : (w.expireStaleParties now).reservations = w.reservations :=
    congrArg Core.reservations hcore
  have hheld : (w.expireStaleParties now).reservationOf = w.reservationOf :=
    congrArg Core.reservationOf hcore
  have hseen : ∀ {uid a}, w.activity uid = some a →
      ∃ b, (w.expireStaleParties now).activity uid = some b ∧ b.lastSeenAt = a.lastSeenAt := by
    intro uid a ha
    have hsame := congrFun hpresence uid
    unfold World.presence at hsame
    rw [ha, Option.map_some, Option.map_eq_some_iff] at hsame
    obtain ⟨b, hb, heq⟩ := hsame
    simp only [Prod.mk.injEq] at heq
    exact ⟨b, hb, heq.2.2⟩
  constructor
  · intro hphantom p party hrow hactive uid hu a ha hsilent hfree k m hk hm hfinal
    have hstays : w.retains (now - seconds 15) uid = true := by
      simp [retains, ha, hk]
    have hmem := (mem_clean hactive).mpr ⟨hu, hstays⟩
    have hattends := hphantom p _ (by rw [hparties, hrow]; rfl) (active_clean hactive hmem) uid hmem
    obtain ⟨b, hb, hlast⟩ := hseen ha
    rcases hattends with ⟨c, hc, hcutoff⟩ | ⟨r, x, hr, -⟩ | hplays
    · obtain rfl := Option.some.inj (hb.symm.trans hc)
      rw [hlast] at hcutoff
      exact absurd hcutoff (not_le.mpr hsilent)
    · rw [hheld] at hr
      simp [World.reservationOf, ha, hfree] at hr
    · rw [hrows] at hplays
      exact hplays
  · intro hlast p party' hrow' hactive' uid hu
    rw [hparties, Option.map_eq_some_iff] at hrow'
    obtain ⟨party, hrow, rfl⟩ := hrow'
    have hactive := active_of_clean hactive'
    obtain ⟨hmem, hstays⟩ := (mem_clean hactive).mp hu
    cases ha : w.activity uid with
    | none => simp [retains, ha] at hstays
    | some a =>
      obtain ⟨b, hb, hseenAt⟩ := hseen ha
      by_cases hrecent : now - seconds 15 ≤ a.lastSeenAt
      · exact .inl ⟨b, hb, hseenAt ▸ hrecent⟩
      · cases hr : a.reservationId with
        | some r =>
          -- The lease that the pointer names is live.
          have hholds : w.reservationOf uid = some r := by simp [World.reservationOf, ha, hr]
          obtain ⟨x, hx, hmember⟩ := hinv.held.holder uid r hholds
          refine .inr (.inl ⟨r, x, ?_, ?_, hinv.live r x hx, hmember⟩)
          · rw [hheld]
            exact hholds
          · rw [hleases]
            exact hx
        | none =>
          cases hk : a.matchId with
          | none => simp [retains, ha, hr, hk, hrecent] at hstays
          | some k =>
            obtain ⟨m, hm, hroster⟩ := hinv.placed uid k (by
              simp [World.core, World.matchOf, ha, hk])
            refine .inr (.inr ?_)
            rw [hrows]
            by_cases hfinal : m.stage.final = true
            · exact hlast p party hrow hactive uid hmem a ha (not_le.mp hrecent) hr k m hk hm hfinal
            · exact ⟨k, m, hm, by simpa using hfinal, hroster⟩

/-- Player 1, in a party alone, leaves a duel with player 2, which ends it. -/
def afterDuelStore : World :=
  (((threePlayers.acts 1 (.party .create none none none)).acts 1
    (.directInvite (some 2) (some .duel) none)).acts 2 (.directAnswer (some 1) true)).acts 1
      (leaveOf 1)

theorem reaches_afterDuelStore : Reaches anyEvent afterDuelStore :=
  (((reaches_threePlayers.acts 1 _ trivial).acts 1 _ trivial).acts 2 _ trivial).acts 1 _ trivial

/-- Ten seconds later nobody is missed. -/
theorem no_phantom_at_once :
    (afterDuelStore.expireStaleParties (seconds 10)).NoPhantom (seconds 10) := by
  refine (no_phantom reaches_afterDuelStore (seconds 10)).mpr ?_
  intro p party hrow _ uid hu a ha hsilent
  have hall : afterDuelStore.parties.toList.all (fun x => x.2.members.all fun uid =>
      (afterDuelStore.activity uid).all fun a => decide (seconds 10 - seconds 15 ≤ a.lastSeenAt)) =
        true := by
    decide +kernel
  have hparty := List.all_eq_true.mp hall (p, party) (Table.mem_toList.mpr hrow)
  have hmember := List.all_eq_true.mp hparty uid hu
  rw [ha] at hmember
  exact absurd hsilent (not_lt.mpr (of_decide_eq_true hmember))

/-- An hour later the absent player is still in the party. -/
theorem last_match_keeps_member : Reaches anyEvent afterDuelStore ∧
    ¬ (afterDuelStore.expireStaleParties (seconds 3600)).NoPhantom (seconds 3600) := by
  refine ⟨reaches_afterDuelStore, fun hphantom => ?_⟩
  have hrow : ((afterDuelStore.expireStaleParties (seconds 3600)).parties.row 1).map
      (fun party => (party.active, party.members)) = some (true, [1]) := by
    decide +kernel
  obtain ⟨party, hparty, hfields⟩ := Option.map_eq_some_iff.mp hrow
  obtain ⟨hactive, hmembers⟩ := Prod.mk.inj hfields
  rcases hphantom 1 party hparty hactive 1 (by simp [hmembers]) with
    ⟨a, ha, hseen⟩ | ⟨r, x, hr, -⟩ | ⟨k, m, hm, hlive, -⟩
  · have hlast : ((afterDuelStore.expireStaleParties (seconds 3600)).activity 1).map
        (·.lastSeenAt) = some 0 := by
      decide +kernel
    obtain ⟨b, hb, hzero⟩ := Option.map_eq_some_iff.mp hlast
    obtain rfl := Option.some.inj (ha.symm.trans hb)
    rw [hzero] at hseen
    exact absurd hseen (by decide)
  · have hnone : (afterDuelStore.expireStaleParties (seconds 3600)).reservationOf 1 = none := by
      decide +kernel
    rw [hnone] at hr
    simp at hr
  · have hall : (afterDuelStore.expireStaleParties (seconds 3600)).matchRows.toList.all
        (fun x => x.2.stage.final) = true := by
      decide +kernel
    have hfinal := List.all_eq_true.mp hall (k, m) (Table.mem_toList.mpr hm)
    rw [hlive] at hfinal
    simp at hfinal

end Soms.Somsai

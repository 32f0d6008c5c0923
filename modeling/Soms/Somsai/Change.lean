import Soms.Somsai.Leasing
import Soms.Somsai.Plays
import Soms.Somsai.System

/-!
# What a request can do

Every body but three is a sequence of `Change`s: a match is played, an entry
enters or leaves the queue, a match opens, members take seats.  The three others
free a lease or forget a finished match, and are `Departure`s.  All invariants of
the store are derived from these two relations.
-/

namespace Soms.Somsai

open Txn World

/-! ## The changes -/

namespace World

/-- Rows of the queue, each listed once. -/
structure Rows (w : World) (rows : List QueueRow) : Prop where
  current : ∀ x ∈ rows, w.queue.row x.1 = some x.2
  nodup : (rows.map Prod.fst).Nodup

/-- The end of `join_queue`: the entry is stored, and its members have no match. -/
def enqueue (now : Time) (entry : QueueEntry) (w : World) : World :=
  entry.members.foldl (fun v uid => v.setMatch now uid none)
    { w with queue := w.queue.insert entry }

theorem enqueue_frame (now : Time) (entry : QueueEntry) (w : World) : ∃ activity,
    w.enqueue now entry = { w with activity := activity, queue := w.queue.insert entry } :=
  setActivity_fold now id (fun _ a => { a with matchId := none }) entry.members
    { w with queue := w.queue.insert entry }

/-- The arguments of a match whose leases were given since `w`: its human members
hold them and nobody else does, and its bots are new. -/
structure Leased (w u : World) (setup : Setup) : Prop where
  lease : ∀ r ∈ setup.reservations, w.reservations.next ≤ r ∧ ∃ x,
    u.reservations.row r = some x ∧ ∀ uid ∈ x.members, uid ∈ setup.humans
  held : ∀ uid ∈ setup.humans, ∃ r ∈ setup.reservations, u.reservationOf uid = some r
  bots : ∀ bot ∈ setup.bots, w.account bot.userId = none ∧ u.account bot.userId = some true

/-- Under which lease members take seats: a new one, or the one by which they
already sit in the lobby. -/
inductive Seated (w u : World) (k : MatchId) (m : Match) (members : List UserId) :
    Option ReservationId → Prop
  | joins {r : ReservationId} {x : Reservation} (hnew : w.reservations.next ≤ r)
      (hrow : u.reservations.row r = some x) (hmembers : x.members = members) :
      Seated w u k m members (some r)
  | moves {uid : UserId} {r : ReservationId} {x : Reservation} (hseat : uid ∈ membersOf m)
      (hheld : u.reservationOf uid = some r) (hrow : u.reservations.row r = some x)
      (hmembers : x.members = members) : Seated w u k m members none

/-- The teams of a new match that is not ranked: distinct users, no more than fit,
and bots in the blue team alone. -/
structure Seating (setup : Setup) : Prop where
  nodup : setup.members.Nodup
  fits : ∀ team, (setup.teams.get team).length ≤ setup.format.size
  bots : ∀ bot ∈ setup.bots, bot.userId ∉ setup.teams.red
  blue : setup.bots ≠ [] → ∀ uid ∈ setup.teams.blue, ∃ bot ∈ setup.bots, bot.userId = uid
  leases : setup.reservations.Nodup

/-- One change of the store. -/
inductive Change (clock : Prop) (ctx : Ctx) : World → World → Prop
  | play {w t : World} {k : MatchId} (h : Play clock ctx k w t) : Change clock ctx w t
  | expire {w : World} {r : ReservationId} {x : Reservation}
      (hrow : w.reservations.row r = some x) (hkind : x.kind.isRanked = true) :
      Change clock ctx w (w.releaseReservation ctx.now r)
  | renew {w : World} (r : ReservationId) (t : Time) :
      Change clock ctx w { w with reservations := w.reservations.modify r fun x =>
        { x with expiresAt := t } }
  | refresh {w : World} (i : Nat) (t : Time) :
      Change clock ctx w { w with queue := w.queue.modify i fun e => { e with expiresAt := t } }
  | drop {w : World} {x : QueueRow} (hrow : w.queue.row x.1 = some x.2) :
      Change clock ctx w (w.dropEntry ctx.now x)
  | enqueue {w u : World} (hl : Leases w u) {entry : QueueEntry} {x : Reservation}
      (hnew : w.reservations.next ≤ entry.reservationId)
      (hrow : u.reservations.row entry.reservationId = some x)
      (hmembers : x.members = entry.members)
      (hplayers : ∀ uid ∈ entry.members, u.account uid = some false) :
      Change clock ctx w (u.enqueue ctx.now entry)
  | group {w : World} {selected : List QueueRow} {teams : PerTeam (List UserId)}
      (anchor : QueueEntry) {pool : Pool} (rating : ℚ) (hrows : w.Rows selected)
      (hteams : (teams.red ++ teams.blue).Perm (unitMembers (selected.map Prod.snd)))
      (hsizes : ∀ team, (teams.get team).length = anchor.format.size) (hpool : pool.WellFormed) :
      Change clock ctx w
        ((w.openMatch ctx (groupSetup selected teams anchor) pool rating).deleteEntries selected)
  | ungroup {w : World} {selected : List QueueRow} (hrows : w.Rows selected) :
      Change clock ctx w (((selected.map fun x => x.2.reservationId).foldl
        (releaseReservation ctx.now) w).deleteEntries selected)
  | opened {w u : World} (hl : Leases w u) {setup : Setup} {pool : Pool} (rating : ℚ)
      (hranked : setup.ranked = false) (hleased : Leased w u setup) (hseating : Seating setup)
      (hpool : pool.WellFormed) : Change clock ctx w (u.openMatch ctx setup pool rating)
  | seat {w u : World} (hl : Leases w u) {k : MatchId} {m : Match}
      (hrow : w.matchRows.row k = some m) (hranked : m.ranked = false) (hstage : m.stage = .waiting)
      {members : List UserId} (team : Team) {lease : Option ReservationId}
      (hseated : Seated w u k m members lease) (hfree : m.state.bots ≠ [] → team = .red)
      (hfits : ((m.state.teams.get team).filter fun x => x ∉ members).length + members.length ≤
        m.format.size) :
      Change clock ctx w ((u.putMatch k (m.seat ctx members team lease)).pointAt ctx k members)

/-- The closure of `Change`. -/
def Changes (clock : Prop) (ctx : Ctx) : World → World → Prop :=
  Relation.ReflTransGen (Change clock ctx)

end World

section Changes

variable {clock : Prop} {ctx : Ctx} {k : MatchId} {w t : World}

instance : Std.Refl (Changes clock ctx) := ⟨fun _ => .refl⟩

instance : IsTrans World (Changes clock ctx) := ⟨fun _ _ _ => Relation.ReflTransGen.trans⟩

theorem World.Change.changes (h : Change clock ctx w t) : Changes clock ctx w t := .single h

theorem World.Quiet.changes (h : Quiet w t) : Changes clock ctx w t :=
  (Change.play (.quiet h : Play clock ctx 0 w t)).changes

theorem Plays.changes (h : Plays clock ctx k w t) : Changes clock ctx w t :=
  Relation.ReflTransGen.mono (fun _ _ => Change.play) _ _ h

instance {α : Type} {x : Act α} [h : Follows Quiet x] : Follows (Changes clock ctx) x :=
  h.mono fun _ _ => Quiet.changes

theorem tickMatch_changes (hclock : clock) : Follows (Changes clock ctx) (tickMatch ctx k) :=
  (tickMatch_plays hclock).mono fun _ _ => Plays.changes

instance {e : RoomEvent} : Follows (Changes clock ctx) (matchEvent ctx k e) :=
  (inferInstance : Follows (Plays clock ctx k) (matchEvent ctx k e)).mono fun _ _ => Plays.changes

instance {roomId : RoomId} {e : RoomEvent} : Follows (Changes clock ctx) (roomEvent ctx roomId e) := by
  unfold roomEvent
  infer_instance

instance {roomId : RoomId} {item : Nat} {scores : List BotScore} :
    Follows (Changes clock ctx) (internalBotResults roomId item scores) where
  ok := by
    intro w _ t h
    obtain ⟨found, _, hreq, h⟩ := bind_ok.mp h
    obtain ⟨hfound, rfl⟩ := require_ok.mp hreq
    simp only [Option.filter_eq_some_iff, Bool.and_eq_true, Bool.or_eq_true,
      decide_eq_true_eq] at hfound
    obtain ⟨hrow, ⟨hcustom, hstage⟩, -⟩ := hfound
    have hrow := (Table.find_some hrow).1
    have hranked : found.2.ranked = false := by simpa using hcustom
    dsimp only at h
    obtain ⟨_, _, hlineup, h⟩ := bind_ok.mp h
    obtain ⟨-, rfl⟩ := refuse_ok.mp hlineup
    obtain ⟨_, _, hsaved, h⟩ := bind_ok.mp h
    obtain ⟨-, rfl⟩ := refuse_ok.mp hsaved
    obtain ⟨_, _, hput, h⟩ := bind_ok.mp h
    obtain rfl := write_ok.mp hput
    have hplay : Plays clock ctx found.1 w _ := Play.plays (.move hrow (.scores hranked hstage scores))
    exact hplay.changes.trans ((inferInstance : Follows (Changes clock ctx) _).ok h)

/-! ## The queue -/

theorem World.Rows.dropEntry {now : Time} {rows : List QueueRow} (h : w.Rows rows) (x : QueueRow)
    {rest : List QueueRow} (hrest : rest.Sublist rows) (hx : ∀ y ∈ rest, y.1 ≠ x.1) :
    (w.dropEntry now x).Rows rest where
  current y hy := by
    rw [row_dropEntry, if_neg (hx y hy)]
    exact h.current y (hrest.subset hy)
  nodup := (hrest.map Prod.fst).nodup h.nodup

theorem World.Rows.sublist {rows rest : List QueueRow} (h : w.Rows rows)
    (hrest : rest.Sublist rows) : w.Rows rest where
  current y hy := h.current y (hrest.subset hy)
  nodup := (hrest.map Prod.fst).nodup h.nodup

theorem World.Rows.filter {rows : List QueueRow} (h : w.Rows rows) (p : QueueRow → Bool) :
    w.Rows (rows.filter p) :=
  h.sublist List.filter_sublist

/-- Rows stay as they are while other rows change. -/
theorem World.Rows.frame {rows : List QueueRow} (h : w.Rows rows)
    (hsame : ∀ i ∈ rows.map Prod.fst, t.queue.row i = w.queue.row i) : t.Rows rows where
  current y hy := (hsame y.1 (List.mem_map_of_mem hy)).trans (h.current y hy)
  nodup := h.nodup

theorem makeMatch_ok {selected : List QueueRow} {teams : PerTeam (List UserId)}
    {anchor : QueueEntry} {u : Unit} (hrows : w.Rows selected)
    (hteams : (teams.red ++ teams.blue).Perm (unitMembers (selected.map Prod.snd)))
    (hsizes : ∀ team, (teams.get team).length = anchor.format.size)
    (h : makeMatch ctx selected teams anchor w = (.ok u, t)) :
    Changes clock ctx w t ∧ ∀ i, t.queue.row i =
      if i ∈ selected.map Prod.fst then none else w.queue.row i := by
  obtain ⟨_, v, hmake, h⟩ := bind_ok.mp h
  obtain rfl := write_ok.mp h
  have hqueue : ∀ {a b : World}, Quiet a b → b.queue = a.queue := fun hq =>
    congrArg Core.queue hq.core
  rcases recover_ok.mp hmake with hmake | ⟨e, v₁, y, hfail, hhandler, hrelease⟩
  · obtain ⟨k', _, hcreate, hpure⟩ := bind_ok.mp hmake
    obtain ⟨-, rfl⟩ := pure_ok.mp hpure
    obtain ⟨v₁, pool, rating, hquiet, hpool, -, rfl⟩ := createMatch_ok hcreate
    have hrows' : v₁.Rows selected := hrows.frame fun i _ => by rw [hqueue hquiet]
    refine ⟨hquiet.changes.trans (Change.group anchor rating hrows' hteams hsizes hpool).changes,
      fun i => ?_⟩
    obtain ⟨activity, hpoint⟩ := pointAt_frame ctx v₁.matchRows.next
      (groupSetup selected teams anchor).members
      (v₁.addMatch ctx (groupSetup selected teams anchor) pool rating)
    rw [row_deleteEntries, openMatch, hpoint, ← hqueue hquiet]
    rfl
  · have hquiet : Quiet w v₁ := by
      rcases bind_error.mp hfail with hcreate | ⟨_, _, -, hpure⟩
      · exact createMatch_error hcreate
      · simp at hpure
    have hrows' : v₁.Rows selected := hrows.frame fun i _ => by rw [hqueue hquiet]
    cases e with
    | other message => simp [releaseSelected] at hhandler
    | http status message =>
      obtain rfl := Option.some.inj hhandler
      obtain rfl := write_ok.mp hrelease
      refine ⟨hquiet.changes.trans (Change.ungroup hrows').changes, fun i => ?_⟩
      obtain ⟨activity, reservations, hall⟩ := releaseAll_frame ctx.now
        (selected.map fun x => x.2.reservationId) v₁
      rw [row_deleteEntries, hall, ← hqueue hquiet]

theorem matchGroup_ok {fuel : Nat} {entries : List QueueRow} {u : Unit} (hrows : w.Rows entries)
    (h : matchGroup ctx fuel entries w = (.ok u, t)) :
    Changes clock ctx w t ∧ ∀ i, i ∉ entries.map Prod.fst → t.queue.row i = w.queue.row i := by
  induction fuel generalizing entries w with
  | zero =>
    obtain ⟨-, rfl⟩ := pure_ok.mp h
    exact ⟨.refl, fun _ _ => rfl⟩
  | succ fuel ih =>
    cases entries with
    | nil =>
      obtain ⟨-, rfl⟩ := pure_ok.mp h
      exact ⟨.refl, fun _ _ => rfl⟩
    | cons anchor rest =>
      unfold matchGroup at h
      cases hgroup : selectGroup ctx.now anchor.2.format.size anchor rest with
      | none =>
        simp only [hgroup] at h
        obtain ⟨hchanges, hsame⟩ := ih (hrows.sublist (List.sublist_cons_self anchor rest)) h
        exact ⟨hchanges, fun i hi => hsame i fun hmem => hi (List.mem_cons_of_mem _ hmem)⟩
      | some found =>
        obtain ⟨selected, teams⟩ := found
        obtain ⟨hsub, hteams, hsizes⟩ := selectGroup_some hgroup
        simp only [hgroup] at h
        obtain ⟨invalid, _, hread, h⟩ := bind_ok.mp h
        obtain ⟨hinvalid, rfl⟩ := read_ok.mp hread
        -- Either way the loop goes on with a sublist of the entries.
        have hgoes : ∀ {v} {p : QueueRow → Bool} {gone : List Nat}, Changes clock ctx w v →
            (∀ i, v.queue.row i = if i ∈ gone then none else w.queue.row i) →
            (∀ i ∈ gone, i ∈ (anchor :: rest).map Prod.fst) →
            (∀ y, p y = true → y.1 ∉ gone) →
            matchGroup ctx fuel ((anchor :: rest).filter p) v = (.ok u, t) →
            Changes clock ctx w t ∧
              ∀ i, i ∉ (anchor :: rest).map Prod.fst → t.queue.row i = w.queue.row i := by
          intro v p gone hchanges hrow hgone hp hrun
          have hsublist : ((anchor :: rest).filter p).Sublist (anchor :: rest) :=
            List.filter_sublist
          have hrows' : v.Rows ((anchor :: rest).filter p) :=
            (hrows.sublist hsublist).frame fun i hi => by
              obtain ⟨y, hy, rfl⟩ := List.mem_map.mp hi
              rw [hrow, if_neg (hp y (List.mem_filter.mp hy).2)]
          obtain ⟨hchanges', hsame⟩ := ih hrows' hrun
          refine ⟨hchanges.trans hchanges', fun i hi => ?_⟩
          rw [hsame i fun hmem => hi ((hsublist.map Prod.fst).subset hmem), hrow,
            if_neg fun hmem => hi (hgone i hmem)]
        cases hfind : invalid with
        | some x =>
          simp only [hfind] at h hinvalid
          obtain ⟨_, _, hdrop, h⟩ := bind_ok.mp h
          obtain rfl := write_ok.mp hdrop
          have hmem := hsub.subset (List.mem_of_find?_eq_some hinvalid)
          have hrow : ∀ i, (w.dropEntry ctx.now x).queue.row i =
              if i ∈ [x.1] then none else w.queue.row i := by
            simp [row_dropEntry]
          refine hgoes (Change.drop (hrows.current x hmem)).changes hrow ?_ ?_ h
          · intro i hi
            obtain rfl := List.mem_singleton.mp hi
            exact List.mem_map_of_mem hmem
          · intro y hy
            simpa using hy
        | none =>
          simp only [hfind] at h
          obtain ⟨_, v, hmake, h⟩ := bind_ok.mp h
          obtain ⟨hchanges, hrow⟩ := makeMatch_ok (hrows.sublist hsub) hteams hsizes hmake
          exact hgoes hchanges hrow (fun i hi => (hsub.map Prod.fst).subset hi)
            (fun y hy => by simpa using hy) h

theorem row_dropEntries (now : Time) (rows : List QueueRow) (w : World) (i : Nat) :
    (rows.foldl (World.dropEntry now) w).queue.row i =
      if i ∈ rows.map Prod.fst then none else w.queue.row i := by
  induction rows generalizing w with
  | nil => simp
  | cons x rest ih =>
    rw [List.foldl_cons, ih, row_dropEntry]
    by_cases hi : i ∈ rest.map Prod.fst
    · simp [hi]
    · by_cases hx : i = x.1 <;> simp [hi, hx]

/-- Dropping several rows. -/
theorem dropEntries_changes {rows : List QueueRow} (hrows : w.Rows rows) :
    Changes clock ctx w (rows.foldl (World.dropEntry ctx.now) w) := by
  induction rows generalizing w with
  | nil => exact .refl
  | cons x rest ih =>
    have hnodup := List.nodup_cons.mp hrows.nodup
    have hrest : (w.dropEntry ctx.now x).Rows rest :=
      hrows.dropEntry x (List.sublist_cons_self x rest) fun y hy heq =>
        hnodup.1 (heq ▸ List.mem_map_of_mem hy)
    exact (Change.drop (hrows.current x List.mem_cons_self)).changes.trans (ih hrest)

theorem matchEntries_all {entries : List QueueRow} {groups : List (RulesetId × Nat × Format)}
    {u : Unit} (hnodup : groups.Nodup)
    (hrows : ∀ g ∈ groups, w.Rows (entries.filter fun x => x.2.group = g))
    (h : groups.forM (matchEntries ctx entries) w = (.ok u, t)) : Changes clock ctx w t := by
  induction groups generalizing w with
  | nil =>
    obtain ⟨-, rfl⟩ := pure_ok.mp h
    exact .refl
  | cons g rest ih =>
    obtain ⟨_, v, hone, hrest⟩ := bind_ok.mp h
    obtain ⟨hg, hrestNodup⟩ := List.nodup_cons.mp hnodup
    obtain ⟨hchanges, hsame⟩ := matchGroup_ok (hrows g List.mem_cons_self) hone
    refine hchanges.trans (ih hrestNodup (fun g' hg' => ?_) hrest)
    -- The rows of another group are other rows.
    refine (hrows g' (List.mem_cons_of_mem g hg')).frame fun i hi => hsame i fun hi' => ?_
    obtain ⟨x, hx, rfl⟩ := List.mem_map.mp hi
    obtain ⟨y, hy, heq⟩ := List.mem_map.mp hi'
    have hrowx := (hrows g' (List.mem_cons_of_mem g hg')).current x hx
    have hrowy := (hrows g List.mem_cons_self).current y hy
    rw [heq, hrowx] at hrowy
    have hentry := Option.some.inj hrowy
    simp only [List.mem_filter, decide_eq_true_eq] at hx hy
    rw [hentry, hy.2] at hx
    exact hg (hx.2 ▸ hg')

theorem World.queueOrder_perm (w : World) : w.queueOrder.Perm w.queue.toList :=
  List.perm_insertionSort _ _

theorem World.rows_queueOrder (w : World) : w.Rows w.queueOrder where
  current _ hx := Table.mem_toList.mp (w.queueOrder_perm.subset hx)
  nodup := (w.queueOrder_perm.map Prod.fst).nodup_iff.mpr w.queue.nodup_toList

instance : Follows (Changes clock ctx) (matchQueues ctx) where
  ok := by
    intro w _ t h
    obtain ⟨entries, _, hread, h⟩ := bind_ok.mp h
    obtain ⟨hentries, rfl⟩ := read_ok.mp hread
    obtain ⟨_, v, hdrop, h⟩ := bind_ok.mp h
    obtain rfl := write_ok.mp hdrop
    have hrows : w.Rows entries := hentries ▸ w.rows_queueOrder
    have hexpired := hrows.filter fun x => decide (x.2.expiresAt ≤ ctx.now)
    refine (dropEntries_changes hexpired).trans (matchEntries_all ?_ (fun g _ => ?_) h)
    · exact (List.perm_insertionSort _ _).nodup_iff.mpr (List.nodup_dedup _)
    · have hgroup := (hrows.filter fun x => decide (ctx.now < x.2.expiresAt)).filter
        fun x => decide (x.2.group = g)
      refine hgroup.frame fun i hi => ?_
      rw [row_dropEntries, if_neg fun hi' => ?_]
      obtain ⟨x, hx, rfl⟩ := List.mem_map.mp hi
      obtain ⟨y, hy, heq⟩ := List.mem_map.mp hi'
      simp only [List.mem_filter, decide_eq_true_eq] at hx hy
      have hrowx := hrows.current x hx.1.1
      rw [← heq, hrows.current y hy.1] at hrowx
      rw [← Option.some.inj hrowx] at hx
      exact absurd hx.1.2 (not_lt.mpr hy.2)

instance {mode : Mode} {uid : UserId} : Follows (Changes clock ctx) (joinQueue ctx uid mode) where
  ok := by
    intro w _ t h
    obtain ⟨penalty, w₁, hpenalty, h⟩ := bind_ok.mp h
    have h₁ : Quiet w w₁ := (inferInstance : Follows Quiet _).ok hpenalty
    obtain ⟨_, _, hblocked, h⟩ := bind_ok.mp h
    obtain ⟨-, rfl⟩ := refuse_ok.mp hblocked
    obtain ⟨_, _, hformat, h⟩ := bind_ok.mp h
    obtain ⟨-, rfl⟩ := refuse_ok.mp hformat
    obtain ⟨_, w₂, hensure, h⟩ := bind_ok.mp h
    have h₂ : Quiet w₁ w₂ := (inferInstance : Follows Quiet _).ok hensure
    obtain ⟨party, w₃, hparty, h⟩ := bind_ok.mp h
    have h₃ : Quiet w₂ w₃ := (inferInstance : Follows Quiet _).ok hparty
    obtain ⟨_, _, hcaptain, h⟩ := bind_ok.mp h
    obtain ⟨-, rfl⟩ := refuse_ok.mp hcaptain
    obtain ⟨_, w₄, hratings, h⟩ := bind_ok.mp h
    have h₄ : Quiet w₃ w₄ := (inferInstance : Follows Quiet _).ok hratings
    obtain ⟨rating, _, hmean, h⟩ := bind_ok.mp h
    obtain ⟨-, rfl⟩ := read_ok.mp hmean
    obtain ⟨pool, _, hpool, h⟩ := bind_ok.mp h
    obtain ⟨-, rfl⟩ := attempt_ok.mp hpool
    obtain ⟨r, w₅, hreserve, h⟩ := bind_ok.mp h
    obtain ⟨hl, hnew, hrow, -, -, hplayer, haccount, -⟩ := reserveMembers_leases rfl hreserve
    obtain ⟨_, _, hinsert, h⟩ := bind_ok.mp h
    obtain rfl := write_ok.mp hinsert
    obtain ⟨_, _, hclear, h⟩ := bind_ok.mp h
    obtain rfl := write_ok.mp hclear
    have hquiet : Changes clock ctx w w₄ := (((h₁.trans h₂).trans h₃).trans h₄).changes
    have hplayers : ∀ x ∈ queueUnit uid mode.format party, w₅.account x = some false := by
      rw [haccount]
      exact hplayer
    exact (hquiet.trans (Change.enqueue hl hnew hrow rfl hplayers).changes).trans
      ((inferInstance : Follows (Changes clock ctx) (matchQueues ctx)).ok h)

theorem entryOf_some {r : ReservationId} {x : QueueRow} (h : w.entryOf r = some x) :
    w.queue.row x.1 = some x.2 ∧ x.2.reservationId = r := by
  obtain ⟨hrow, hr⟩ := Table.find_some h
  exact ⟨hrow, by simpa using hr⟩

instance {uid : UserId} : Follows (Changes clock ctx) (leaveWaiting ctx uid) where
  ok := by
    intro w _ t h
    obtain ⟨found, _, hreq, h⟩ := bind_ok.mp h
    obtain ⟨hfound, rfl⟩ := require_ok.mp hreq
    unfold waitingMatch at hfound
    split at hfound
    · simp at hfound
    · obtain ⟨m, hrow, hm⟩ := Option.bind_eq_some_iff.mp hfound
      split at hm
      · next hwaiting =>
        obtain rfl := Option.some.inj hm
        exact (penalised_plays hrow (by rw [hwaiting.2.1]; rfl)
          (.declined hwaiting.1 hwaiting.2.1) h).changes
      · simp at hm

instance {uid : UserId} : Follows (Changes clock ctx) (leaveQueue ctx uid) where
  ok := by
    intro w _ t h
    obtain ⟨_, v, htouch, h⟩ := bind_ok.mp h
    have hquiet : Quiet w v := (inferInstance : Follows Quiet _).ok htouch
    obtain ⟨held, _, hread, h⟩ := bind_ok.mp h
    obtain ⟨-, rfl⟩ := read_ok.mp hread
    refine hquiet.changes.trans ?_
    rcases onSome_ok.mp h with ⟨r, -, h⟩ | ⟨-, rfl⟩
    · obtain ⟨found, _, hfind, h⟩ := bind_ok.mp h
      obtain ⟨hfound, rfl⟩ := read_ok.mp hfind
      cases found with
      | none => exact (inferInstance : Follows (Changes clock ctx) (leaveWaiting ctx uid)).ok h
      | some x =>
        simp only [leaveEntry] at h
        obtain rfl := write_ok.mp h
        exact (Change.drop (entryOf_some hfound).1).changes
    · exact .refl

instance {uid : UserId} :
    Follows (Changes clock ctx) (write (refreshEntry ctx.now uid) : Act Unit) where
  ok := by
    intro w _ t h
    obtain rfl := write_ok.mp h
    unfold refreshEntry
    split
    · exact .refl
    · next x hfind =>
      obtain ⟨r, -, hentry⟩ := Option.bind_eq_some_iff.mp hfind
      split
      · exact (Change.drop (entryOf_some hentry).1).changes
      · exact (Change.refresh x.1 (ctx.now + seconds 90)).changes

/-! ## Custom matches and duels -/

theorem openLobby_some {o : Option MatchId} {x : MatchId × Match} (h : w.openLobby o = some x) :
    w.matchRows.row x.1 = some x.2 ∧ x.2.ranked = false ∧ x.2.stage = .waiting := by
  unfold openLobby at h
  split at h
  · simp at h
  · obtain ⟨m, hrow, hm⟩ := Option.bind_eq_some_iff.mp h
    split at hm
    · next hopen =>
      obtain rfl := Option.some.inj hm
      exact ⟨hrow, hopen⟩
    · simp at hm

/-- The row of a match that was just opened. -/
theorem row_openMatch (ctx : Ctx) (setup : Setup) (pool : Pool) (rating : ℚ) (w : World) :
    (w.openMatch ctx setup pool rating).matchRows =
      w.matchRows.insert (newMatch ctx w.matchRows.next setup pool rating w.nextRoom) := by
  obtain ⟨activity, h⟩ := pointAt_frame ctx w.matchRows.next setup.members
    (w.addMatch ctx setup pool rating)
  rw [openMatch, h]
  rfl

theorem account_leases {u : World} (h : Leases w u) (uid : UserId) (b : Bool)
    (haccount : w.account uid = some b) : u.account uid = some b := by
  induction h with
  | refl => exact haccount
  | tail _ hlast ih =>
    cases hlast with
    | quiet hq => exact (congrFun (congrArg Core.account hq.core) uid).trans ih
    | reserve now captain partyId _ _ =>
      obtain ⟨activity, hframe⟩ := reserve_frame now captain _ _ partyId _
      rw [hframe]
      exact ih
    | bots count name =>
      rw [account_addBots]
      split
      · next hnew => simp [account, Table.fresh _ uid hnew.1] at ih
      · exact ih

instance {uid : UserId} {mode : Mode} {request : CustomRequest} :
    Follows (Changes clock ctx) (createCustom ctx uid mode request) where
  ok := by
    intro w _ t h
    obtain ⟨party, w₁, hparty, h⟩ := bind_ok.mp h
    have h₁ : Quiet w w₁ := (inferInstance : Follows Quiet _).ok hparty
    obtain ⟨_, _, hcaptain, h⟩ := bind_ok.mp h
    obtain ⟨-, rfl⟩ := refuse_ok.mp hcaptain
    obtain ⟨_, _, hsize, h⟩ := bind_ok.mp h
    obtain ⟨hfits, rfl⟩ := refuse_ok.mp hsize
    generalize partyMembers uid party = members at h hfits
    obtain ⟨r, w₂, hreserve, h⟩ := bind_ok.mp h
    obtain ⟨hl, hnew, hrow, -, hheld, hplayer, haccount, -, hnodup, -⟩ :=
      reserveMembers_leases rfl hreserve
    obtain ⟨bots, w₃, hteam, h⟩ := bind_ok.mp h
    obtain ⟨name, rfl, hbots, hdistinct, hcount⟩ := createBotTeam_ok hteam
    obtain ⟨k, w₅, hcreate, h⟩ := bind_ok.mp h
    obtain ⟨w₄, pool, rating, hquiet, hpool, rfl, hopen⟩ := createMatch_ok hcreate
    have hcore : ∀ {α : Type} (f : Core → α), f w₄.core = f (w₂.addBots _ name).core :=
      fun f => by rw [hquiet.core]
    have hleases : Leases w₁ w₄ := (hl.tail (.bots w₂ _ name)).tail (.quiet hquiet)
    have hnoBot : ∀ x ∈ members, ∀ bot ∈ bots, bot.userId ≠ x := by
      intro x hx bot hbot heq
      have hnone := (hbots bot hbot).1
      rw [heq, haccount, hplayer x hx] at hnone
      simp at hnone
    have hhumans : ∀ x, x ∈ ((members ++ bots.map (·.userId)).filter fun uid =>
        !(bots.any fun bot => decide (bot.userId = uid))) ↔ x ∈ members := by
      intro x
      simp only [List.mem_filter, List.mem_append, List.mem_map, Bool.not_eq_true', List.any_eq_false,
        decide_eq_true_eq]
      constructor
      · rintro ⟨hx | ⟨bot, hbot, rfl⟩, hno⟩
        · exact hx
        · exact absurd rfl (hno bot hbot)
      · exact fun hx => ⟨.inl hx, hnoBot x hx⟩
    have hchange : Changes clock ctx w₁ w₅ := by
      rw [hopen]
      refine Change.changes (.opened hleases rating rfl ?_ ?_ hpool)
      rotate_left
      · exact {
          nodup := List.nodup_append'.mpr ⟨hnodup, hdistinct, fun x hx hbot => by
            obtain ⟨bot, hmem, rfl⟩ := List.mem_map.mp hbot
            exact hnoBot _ hx bot hmem rfl⟩
          fits := by
            intro team
            cases team with
            | red => exact Nat.le_of_not_lt hfits
            | blue =>
              show (bots.map (·.userId)).length ≤ mode.format.size
              rw [List.length_map, hcount]
              split <;> simp
          bots := fun bot hbot hx => hnoBot _ hx bot hbot rfl
          blue := fun _ x hx => List.mem_map.mp hx
          leases := List.nodup_singleton r }
      refine ⟨fun r' hr' => ?_, fun x hx => ?_, fun bot hbot => ?_⟩
      · obtain rfl := List.mem_singleton.mp hr'
        refine ⟨hnew, _, (hcore fun c => c.reservations.row r').trans hrow, fun x hx => ?_⟩
        exact (hhumans x).mpr hx
      · refine ⟨r, List.mem_singleton.mpr rfl, ?_⟩
        refine (hcore fun c => c.reservationOf x).trans ((hheld x).trans (if_pos ?_))
        exact (hhumans x).mp hx
      · obtain ⟨hnone, hsome⟩ := hbots bot hbot
        refine ⟨by rw [← haccount]; exact hnone, ?_⟩
        exact (hcore fun c => c.account bot.userId).trans hsome
    obtain ⟨m, _, hget, h⟩ := bind_ok.mp h
    obtain ⟨hm, rfl⟩ := getMatch_ok hget
    obtain rfl := write_ok.mp h
    obtain ⟨hcustom, hwaiting⟩ : m.ranked = false ∧ m.stage = .waiting := by
      have hm' := hm
      rw [hopen, row_openMatch, Table.row_insert, if_pos rfl] at hm'
      rw [← Option.some.inj hm']
      exact ⟨rfl, rfl⟩
    exact (h₁.changes.trans hchange).trans (Play.plays (.move hm (.lobby hcustom hwaiting
      request.privateLobby request.arbitrary))).changes

theorem lobbyLease_some {uid : UserId} {members : List UserId} {r : ReservationId}
    (h : w.lobbyLease uid k members = some r) : w.reservationOf uid = some r ∧
      ∃ x, w.reservations.row r = some x ∧ x.members = members := by
  unfold lobbyLease at h
  split at h
  · simp at h
  · next r' hheld =>
    obtain ⟨x, hrow, hx⟩ := Option.bind_eq_some_iff.mp h
    split at hx
    · next hlease =>
      obtain rfl := Option.some.inj hx
      exact ⟨hheld, x, hrow, hlease.2.2.2⟩
    · simp at hx

instance {uid : UserId} {matchId : Option MatchId} {team : Team} :
    Follows (Changes clock ctx) (joinCustom ctx uid matchId team) where
  ok := by
    intro w _ t h
    obtain ⟨lobby, _, hreq, h⟩ := bind_ok.mp h
    obtain ⟨hlobby, rfl⟩ := require_ok.mp hreq
    obtain ⟨hrow, hranked, hstage⟩ := openLobby_some hlobby
    obtain ⟨_, _, hbots, h⟩ := bind_ok.mp h
    obtain ⟨hfree, rfl⟩ := refuse_ok.mp hbots
    have hfree : lobby.2.state.bots ≠ [] → team = .red := by
      intro hbots
      by_contra hred
      refine hfree ⟨hbots, ?_⟩
      cases team with
      | red => exact absurd rfl hred
      | blue => rfl
    obtain ⟨party, w₁, hparty, h⟩ := bind_ok.mp h
    have h₁ : Quiet w w₁ := (inferInstance : Follows Quiet _).ok hparty
    obtain ⟨_, _, hcaptain, h⟩ := bind_ok.mp h
    obtain ⟨-, rfl⟩ := refuse_ok.mp hcaptain
    generalize partyMembers uid party = members at h
    obtain ⟨_, w₂, htouch, h⟩ := bind_ok.mp h
    have h₂ : Quiet w₁ w₂ := (inferInstance : Follows Quiet _).ok htouch
    obtain ⟨_, _, hprivate, h⟩ := bind_ok.mp h
    obtain ⟨-, rfl⟩ := refuse_ok.mp hprivate
    obtain ⟨_, _, hmove, h⟩ := bind_ok.mp h
    obtain ⟨hlease, rfl⟩ := refuse_ok.mp hmove
    obtain ⟨_, _, hroom, h⟩ := bind_ok.mp h
    obtain ⟨hfits, rfl⟩ := refuse_ok.mp hroom
    have hfits := Nat.le_of_not_lt hfits
    obtain ⟨r, w₃, hreserve, h⟩ := bind_ok.mp h
    obtain ⟨_, _, hput, h⟩ := bind_ok.mp h
    obtain rfl := write_ok.mp hput
    obtain rfl := write_ok.mp h
    have hquiet := h₁.trans h₂
    have hrow₂ : w₂.matchRows.row lobby.1 = some lobby.2 := hquiet.row.trans hrow
    refine hquiet.changes.trans ?_
    unfold lobbyReservation at hreserve
    split at hreserve
    · next hjoined =>
      obtain ⟨rfl, rfl⟩ := pure_ok.mp hreserve
      simp only [hjoined, Bool.true_and, Bool.not_eq_true] at hlease
      obtain ⟨r, hr⟩ := Option.isSome_iff_exists.mp (Option.isNone_eq_false_iff.mp hlease)
      obtain ⟨hheld, x, hx, hmembers⟩ := lobbyLease_some hr
      exact Change.changes (.seat .refl hrow₂ hranked hstage team
        (.moves (decide_eq_true_eq.mp hjoined) hheld hx hmembers) hfree hfits)
    · obtain ⟨r', _, hlease, hpure⟩ := bind_ok.mp hreserve
      obtain ⟨rfl, rfl⟩ := pure_ok.mp hpure
      obtain ⟨hl, hnew, hx, -⟩ := reserveMembers_leases rfl hlease
      exact Change.changes (.seat hl hrow₂ hranked hstage team (.joins hnew hx rfl) hfree hfits)

instance {uid : UserId} {i : Nat} {invite : DirectInvite} :
    Follows (Changes clock ctx) (startDuel ctx uid i invite) where
  ok := by
    intro w _ t h
    obtain ⟨_, w₁, htouch, h⟩ := bind_ok.mp h
    have h₁ : Quiet w w₁ := (inferInstance : Follows Quiet _).ok htouch
    obtain ⟨_, w₂, htouch', h⟩ := bind_ok.mp h
    have h₂ : Quiet w₁ w₂ := (inferInstance : Follows Quiet _).ok htouch'
    obtain ⟨_, _, hbusy, h⟩ := bind_ok.mp h
    obtain ⟨-, rfl⟩ := refuse_ok.mp hbusy
    obtain ⟨left, w₃, hleft, h⟩ := bind_ok.mp h
    obtain ⟨hl, hnew, hrow, -, hheld, -⟩ := reserveMembers_leases rfl hleft
    obtain ⟨right, w₄, hright, h⟩ := bind_ok.mp h
    obtain ⟨hl', hnew', hrow', hkept, hheld', -, -, -, -, hidle⟩ :=
      reserveMembers_leases rfl hright
    obtain ⟨k, w₆, hcreate, h⟩ := bind_ok.mp h
    obtain ⟨w₅, pool, rating, hquiet, hpool, rfl, hopen⟩ := createMatch_ok hcreate
    have hcore : ∀ {α : Type} (f : Core → α), f w₅.core = f w₄.core := fun f => by rw [hquiet.core]
    have hleases : Leases w₂ w₅ := (hl.trans hl').tail (.quiet hquiet)
    have hgrow : w₂.reservations.next ≤ right :=
      hnew.trans ((Nat.le_of_lt (Table.lt_next hrow)).trans hnew')
    have hchange : Changes clock ctx w₂ w₆ := by
      rw [hopen]
      refine Change.changes
        (.opened hleases rating rfl ⟨fun r hr => ?_, fun x hx => ?_, ?_⟩ ?_ hpool)
      · simp only [List.mem_cons, List.not_mem_nil, or_false] at hr
        rcases hr with rfl | rfl
        · refine ⟨hnew, _, (hcore fun c => c.reservations.row r).trans (hkept _ _ hrow), ?_⟩
          simp [leaseOf, Setup.humans, Setup.members]
        · refine ⟨hgrow, _, (hcore fun c => c.reservations.row r).trans hrow', ?_⟩
          simp [leaseOf, Setup.humans, Setup.members]
      · have hx' : x = invite.inviterId ∨ x = uid := by
          simpa [Setup.humans, Setup.members] using hx
        have hx₅ := (hcore fun c => c.reservationOf x).trans (hheld' x)
        by_cases hright : x ∈ [uid]
        · exact ⟨right, by simp, hx₅.trans (if_pos hright)⟩
        · refine ⟨left, by simp, (hx₅.trans (if_neg hright)).trans ((hheld x).trans (if_pos ?_))⟩
          simp_all
      · simp
      · have hfree := hidle uid (List.mem_singleton_self uid)
        have hne : invite.inviterId ≠ uid := by
          intro heq
          have hsome := (hheld uid).trans (if_pos (by simp [heq]))
          simp [hsome] at hfree
        have hlt : left ≠ right := Nat.ne_of_lt ((Table.lt_next hrow).trans_le hnew')
        exact {
          nodup := by simp [Setup.members, hne]
          fits := by intro team; cases team <;> rfl
          bots := by simp
          blue := by simp
          leases := by simp [hlt] }
    obtain ⟨m, _, hget, h⟩ := bind_ok.mp h
    obtain ⟨hm, rfl⟩ := getMatch_ok hget
    obtain ⟨_, w₇, hput, h⟩ := bind_ok.mp h
    obtain rfl := write_ok.mp hput
    have hstart : m.Update clock ctx w₆ (m.startDraft ctx) := by
      have hm' := hm
      rw [hopen, row_openMatch, Table.row_insert, if_pos rfl] at hm'
      rw [← Option.some.inj hm']
      exact .start rfl rfl
    exact (((h₁.trans h₂).changes.trans hchange).trans (Play.plays (.move hm hstart)).changes).trans
      ((inferInstance : Follows (Changes clock ctx) _).ok h)

instance {uid : UserId} {invitation : Option Nat} {accept : Bool} :
    Follows (Changes clock ctx) (directInviteAction ctx uid invitation accept) where
  ok := by
    intro w _ t h
    obtain ⟨found, _, hreq, h⟩ := bind_ok.mp h
    obtain ⟨-, rfl⟩ := require_ok.mp hreq
    exact (inferInstance : Follows (Changes clock ctx) _).ok h

end Changes

end Soms.Somsai

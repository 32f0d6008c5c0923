import Soms.Somsai.Leasing

/-!
# Leases

The three-way link between leases, queue rows or live matches, and the pointers
of their members.  `Held` links leases and members; `Queued` and `Playing` add
the queue and the matches.
-/

namespace Soms.Somsai

open Txn World

namespace World.Core

/-- Leases and pointers name each other, and only players hold leases. -/
structure Held (c : Core) : Prop where
  kind : ∀ r x, c.reservations.row r = some x → x.kind.isRanked = false
  nonempty : ∀ r x, c.reservations.row r = some x → x.members ≠ []
  nodup : ∀ r x, c.reservations.row r = some x → x.members.Nodup
  player : ∀ r x, c.reservations.row r = some x → ∀ uid ∈ x.members,
    c.account uid = some false
  held : ∀ r x, c.reservations.row r = some x → ∀ uid ∈ x.members,
    c.reservationOf uid = some r
  holder : ∀ uid r, c.reservationOf uid = some r → ∃ x,
    c.reservations.row r = some x ∧ uid ∈ x.members

/-- Every queue row has a lease of its own, which no live match has. -/
structure Queued (c : Core) : Prop where
  lease : ∀ i e, c.queue.row i = some e → ∃ x,
    c.reservations.row e.reservationId = some x ∧ x.members = e.members
  unique : ∀ i j e e', c.queue.row i = some e → c.queue.row j = some e' →
    e.reservationId = e'.reservationId → i = j
  given : ∀ k m, c.matchRows.row k = some m → m.stage.final = false →
    ∀ r ∈ m.state.reservations, r < c.reservations.next
  apart : ∀ k m, c.matchRows.row k = some m → m.stage.final = false →
    ∀ r ∈ m.state.reservations, ∀ i e, c.queue.row i = some e → e.reservationId ≠ r
  ranked : ∀ k m, c.matchRows.row k = some m → m.ranked = true → (membersOf m).Nodup

/-- The human members of a live match point at it and hold its leases, and its
bots play no other match. -/
structure Playing (c : Core) : Prop where
  pointer : ∀ k m, c.matchRows.row k = some m → m.stage.final = false →
    ∀ uid ∈ humansOf m, c.matchOf uid = some k
  leased : ∀ k m, c.matchRows.row k = some m → m.stage.final = false →
    ∀ uid ∈ humansOf m, ∃ r ∈ m.state.reservations, c.reservationOf uid = some r
  lease : ∀ k m, c.matchRows.row k = some m → m.stage.final = false →
    ∀ r ∈ m.state.reservations, ∃ x, c.reservations.row r = some x ∧
      ∀ uid ∈ x.members, uid ∈ humansOf m
  bots : ∀ k m, c.matchRows.row k = some m → ∀ bot ∈ m.state.bots,
    c.account bot.userId = some true
  alone : ∀ k j m n, c.matchRows.row k = some m → c.matchRows.row j = some n →
    ∀ bot ∈ m.state.bots, ∀ other ∈ n.state.bots, bot.userId = other.userId → k = j

/-- The invariant, with or without what it says about live matches. -/
structure Inv (live : Prop) (c : Core) : Prop where
  held : c.Held
  queued : c.Queued
  playing : live → c.Playing

variable {live : Prop} {c d : Core}

/-! ## Consequences -/

theorem mem_humansOf {m : Match} {uid : UserId} (h : uid ∈ humansOf m) :
    uid ∈ membersOf m ∧ ∀ bot ∈ m.state.bots, bot.userId ≠ uid := by
  simp only [humansOf, List.mem_filter, Bool.not_eq_true', List.any_eq_false, beq_iff_eq] at h
  exact h

theorem human_or_bot {m : Match} {uid : UserId} (h : uid ∈ membersOf m) :
    uid ∈ humansOf m ∨ ∃ bot ∈ m.state.bots, bot.userId = uid := by
  by_cases hbot : ∃ bot ∈ m.state.bots, bot.userId = uid
  · exact .inr hbot
  · left
    simp only [humansOf, List.mem_filter, Bool.not_eq_true', List.any_eq_false, beq_iff_eq]
    exact ⟨h, fun bot hmem heq => hbot ⟨bot, hmem, heq⟩⟩

/-- The human members of live matches are players. -/
theorem Inv.human (h : Inv live c) (hl : live) {k : MatchId} {m : Match}
    (hrow : c.matchRows.row k = some m) (hlive : m.stage.final = false) {uid : UserId}
    (huid : uid ∈ humansOf m) : c.account uid = some false := by
  obtain ⟨r, -, hr⟩ := (h.playing hl).leased k m hrow hlive uid huid
  obtain ⟨x, hx, hmem⟩ := h.held.holder uid r hr
  exact h.held.player r x hx uid hmem

/-- No user sits on the rosters of two live matches. -/
theorem Inv.exclusive (h : Inv live c) (hl : live) {k j : MatchId} {m n : Match}
    (hm : c.matchRows.row k = some m) (hmlive : m.stage.final = false)
    (hn : c.matchRows.row j = some n) (hnlive : n.stage.final = false) {uid : UserId}
    (hum : uid ∈ membersOf m) (hun : uid ∈ membersOf n) : k = j := by
  have hp := h.playing hl
  rcases human_or_bot hum with hum | ⟨bot, hbot, rfl⟩
  · rcases human_or_bot hun with hun | ⟨other, hother, rfl⟩
    · have hk := hp.pointer k m hm hmlive uid hum
      rw [hp.pointer j n hn hnlive uid hun] at hk
      exact (Option.some.inj hk).symm
    · have hplayer := h.human hl hm hmlive hum
      rw [hp.bots j n hn other hother] at hplayer
      simp at hplayer
  · rcases human_or_bot hun with hun | ⟨other, hother, heq⟩
    · have hplayer := h.human hl hn hnlive hun
      rw [hp.bots k m hm bot hbot] at hplayer
      simp at hplayer
    · exact hp.alone k j m n hm hn bot hbot other hother heq.symm

/-- No user is in two queue rows. -/
theorem Inv.queued_once (h : Inv live c) {i j : Nat} {e e' : QueueEntry}
    (hi : c.queue.row i = some e) (hj : c.queue.row j = some e') {uid : UserId}
    (hu : uid ∈ e.members) (hu' : uid ∈ e'.members) : i = j := by
  obtain ⟨x, hx, hmem⟩ := h.queued.lease i e hi
  obtain ⟨x', hx', hmem'⟩ := h.queued.lease j e' hj
  have hr := h.held.held _ x hx uid (hmem ▸ hu)
  rw [h.held.held _ x' hx' uid (hmem' ▸ hu')] at hr
  exact h.queued.unique i j e e' hi hj (Option.some.inj hr).symm

/-- Nobody on the roster of a live match holds the lease of a queue row. -/
theorem Inv.not_queued (h : Inv live c) (hl : live) {k : MatchId} {m : Match}
    (hrow : c.matchRows.row k = some m) (hlive : m.stage.final = false) {uid : UserId}
    (huid : uid ∈ humansOf m) {i : Nat} {e : QueueEntry} (hi : c.queue.row i = some e) :
    c.reservationOf uid ≠ some e.reservationId := by
  obtain ⟨r, hr, hheld⟩ := (h.playing hl).leased k m hrow hlive uid huid
  intro heq
  rw [hheld] at heq
  exact h.queued.apart k m hrow hlive r hr i e hi (Option.some.inj heq).symm

/-! ## What keeps the invariant -/

/-- The queue, the matches and their pointers do not matter, and accounts may be added. -/
theorem Held.same (h : c.Held) (hres : d.reservations = c.reservations)
    (hheld : d.reservationOf = c.reservationOf)
    (haccount : ∀ uid b, c.account uid = some b → d.account uid = some b) : d.Held := by
  refine ⟨hres ▸ h.kind, hres ▸ h.nonempty, hres ▸ h.nodup, fun r x hx uid hu => ?_, ?_, ?_⟩
  · exact haccount uid false (h.player r x (hres ▸ hx) uid hu)
  · rw [hres, hheld]
    exact h.held
  · rw [hres, hheld]
    exact h.holder

/-- Whoever holds a lease is not among the free players. -/
theorem Idle.kept {members : List UserId} (h : c.Idle members) {r₀ : ReservationId} {uid : UserId}
    {r : ReservationId} (hr : c.reservationOf uid = some r) :
    (if uid ∈ members then some r₀ else c.reservationOf uid) = some r := by
  rw [if_neg fun hmem => ?_]
  · exact hr
  · rw [h.free uid hmem] at hr
    simp at hr

theorem Held.reserve (h : c.Held) (x : Reservation) (hidle : c.Idle x.members)
    (hkind : x.kind.isRanked = false) (reservationOf : UserId → Option ReservationId)
    (hheld : ∀ uid, reservationOf uid =
      if uid ∈ x.members then some c.reservations.next else c.reservationOf uid) :
    Held { c with reservations := c.reservations.insert x, reservationOf := reservationOf } := by
  have hrow : ∀ {r y}, (c.reservations.insert x).row r = some y →
      (r = c.reservations.next ∧ y = x) ∨ c.reservations.row r = some y := by
    intro r y hy
    rw [Table.row_insert] at hy
    split at hy
    · next heq => exact .inl ⟨heq, (Option.some.inj hy).symm⟩
    · exact .inr hy
  refine ⟨?_, ?_, ?_, ?_, ?_, ?_⟩
  · intro r y hy
    rcases hrow hy with ⟨-, rfl⟩ | hy
    · exact hkind
    · exact h.kind r y hy
  · intro r y hy
    rcases hrow hy with ⟨-, rfl⟩ | hy
    · exact hidle.nonempty
    · exact h.nonempty r y hy
  · intro r y hy
    rcases hrow hy with ⟨-, rfl⟩ | hy
    · exact hidle.nodup
    · exact h.nodup r y hy
  · intro r y hy
    rcases hrow hy with ⟨-, rfl⟩ | hy
    · exact hidle.player
    · exact h.player r y hy
  · intro r y hy uid hu
    rcases hrow hy with ⟨rfl, rfl⟩ | hy
    · exact (hheld uid).trans (if_pos hu)
    · exact (hheld uid).trans (hidle.kept (h.held r y hy uid hu))
  · intro uid r hr
    have hr : reservationOf uid = some r := hr
    rw [hheld] at hr
    split at hr
    · next hmem =>
      obtain rfl := Option.some.inj hr
      exact ⟨x, if_pos rfl, hmem⟩
    · obtain ⟨y, hy, hu⟩ := h.holder uid r hr
      exact ⟨y, Table.row_insert_of_some hy, hu⟩

theorem Inv.settle (h : Inv live c) (l : List MatchId) : Inv live { c with settled := l } where
  held := h.held.same rfl rfl fun _ _ => id
  queued := ⟨h.queued.lease, h.queued.unique, h.queued.given, h.queued.apart, h.queued.ranked⟩
  playing hl :=
    let hp := h.playing hl
    ⟨hp.pointer, hp.leased, hp.lease, hp.bots, hp.alone⟩

/-- Accounts are added, and none turns into or out of a bot. -/
theorem Inv.grow (h : Inv live c) (account : UserId → Option Bool)
    (hgrow : ∀ uid b, c.account uid = some b → account uid = some b) :
    Inv live { c with account := account } where
  held := h.held.same rfl rfl hgrow
  queued := ⟨h.queued.lease, h.queued.unique, h.queued.given, h.queued.apart, h.queued.ranked⟩
  playing hl :=
    let hp := h.playing hl
    ⟨hp.pointer, hp.leased, hp.lease,
      fun k m hrow bot hbot => hgrow bot.userId true (hp.bots k m hrow bot hbot), hp.alone⟩

/-- Free players take a new lease. -/
theorem Inv.reserve (h : Inv live c) (x : Reservation) (hidle : c.Idle x.members)
    (hkind : x.kind.isRanked = false) (reservationOf : UserId → Option ReservationId)
    (hheld : ∀ uid, reservationOf uid =
      if uid ∈ x.members then some c.reservations.next else c.reservationOf uid) :
    Inv live { c with reservations := c.reservations.insert x, reservationOf := reservationOf } := by
  refine ⟨h.held.reserve x hidle hkind reservationOf hheld,
    ⟨?_, h.queued.unique, ?_, h.queued.apart, h.queued.ranked⟩,
    fun hl => ⟨(h.playing hl).pointer, ?_, ?_, (h.playing hl).bots, (h.playing hl).alone⟩⟩
  · intro i e he
    obtain ⟨y, hy, hmem⟩ := h.queued.lease i e he
    exact ⟨y, Table.row_insert_of_some hy, hmem⟩
  · intro k m hm hlive r hr
    exact Nat.lt_succ_of_lt (h.queued.given k m hm hlive r hr)
  · intro k m hm hlive uid hu
    obtain ⟨r, hr, hres⟩ := (h.playing hl).leased k m hm hlive uid hu
    exact ⟨r, hr, (hheld uid).trans (hidle.kept hres)⟩
  · intro k m hm hlive r hr
    obtain ⟨y, hy, hmem⟩ := (h.playing hl).lease k m hm hlive r hr
    exact ⟨y, Table.row_insert_of_some hy, hmem⟩

/-- `d` is `c` after the leases `rs` were released. -/
structure Released (c d : Core) (rs : List ReservationId) : Prop where
  row : ∀ r, d.reservations.row r = if r ∈ rs then none else c.reservations.row r
  next : d.reservations.next = c.reservations.next
  held : ∀ uid, d.reservationOf uid =
    if ∃ r ∈ rs, c.reservationOf uid = some r then none else c.reservationOf uid
  pointer : ∀ uid, d.matchOf uid =
    if ∃ r ∈ rs, c.reservationOf uid = some r then none else c.matchOf uid
  queue : d.queue = c.queue
  matchRows : d.matchRows = c.matchRows
  account : d.account = c.account

theorem Held.released {rs : List ReservationId} (h : c.Held) (hr : Released c d rs) : d.Held := by
  have hrow : ∀ {r x}, d.reservations.row r = some x →
      r ∉ rs ∧ c.reservations.row r = some x := by
    intro r x hx
    rw [hr.row] at hx
    split at hx
    · simp at hx
    · next hmem => exact ⟨hmem, hx⟩
  refine ⟨fun r x hx => h.kind r x (hrow hx).2, fun r x hx => h.nonempty r x (hrow hx).2,
    fun r x hx => h.nodup r x (hrow hx).2, fun r x hx uid hu => ?_, fun r x hx uid hu => ?_,
    fun uid r hheld => ?_⟩
  · rw [hr.account]
    exact h.player r x (hrow hx).2 uid hu
  · have hold := h.held r x (hrow hx).2 uid hu
    rw [hr.held, if_neg, hold]
    rintro ⟨r', hmem, hr'⟩
    rw [hold] at hr'
    exact (hrow hx).1 (Option.some.inj hr' ▸ hmem)
  · rw [hr.held] at hheld
    split at hheld
    · simp at hheld
    · next hnot =>
      obtain ⟨x, hx, hu⟩ := h.holder uid r hheld
      refine ⟨x, ?_, hu⟩
      rw [hr.row, if_neg fun hmem => hnot ⟨r, hmem, hheld⟩]
      exact hx

/-- Leases are released that no remaining queue row has and no human member of a
live match holds. -/
theorem Inv.release {rs : List ReservationId} (h : Inv live c) (hr : Released c d rs)
    (queue : Table QueueEntry)
    (hqueue : ∀ i e, queue.row i = some e → c.queue.row i = some e ∧ e.reservationId ∉ rs)
    (hlive : live → ∀ k m, c.matchRows.row k = some m → m.stage.final = false →
      ∀ uid ∈ humansOf m, ∀ r ∈ rs, c.reservationOf uid ≠ some r) :
    Inv live { d with queue := queue } := by
  have hheld := h.held.released hr
  have hrows : ∀ {k m}, d.matchRows.row k = some m → c.matchRows.row k = some m := by
    intro k m hm
    rwa [hr.matchRows] at hm
  refine ⟨⟨hheld.kind, hheld.nonempty, hheld.nodup, hheld.player, hheld.held, hheld.holder⟩,
    ⟨?_, ?_, ?_, ?_, fun k m hm => h.queued.ranked k m (hrows hm)⟩,
    fun hl => ⟨?_, ?_, ?_, ?_, ?_⟩⟩
  · intro i e he
    obtain ⟨he, hnot⟩ := hqueue i e he
    obtain ⟨x, hx, hmem⟩ := h.queued.lease i e he
    exact ⟨x, by rw [hr.row, if_neg hnot]; exact hx, hmem⟩
  · intro i j e e' he he'
    exact h.queued.unique i j e e' (hqueue i e he).1 (hqueue j e' he').1
  · intro k m hm hfinal r hmem
    rw [hr.next]
    exact h.queued.given k m (hrows hm) hfinal r hmem
  · intro k m hm hfinal r hmem i e he
    exact h.queued.apart k m (hrows hm) hfinal r hmem i e (hqueue i e he).1
  · intro k m hm hfinal uid hu
    rw [hr.pointer, if_neg, (h.playing hl).pointer k m (hrows hm) hfinal uid hu]
    rintro ⟨r, hmem, hheld⟩
    exact hlive hl k m (hrows hm) hfinal uid hu r hmem hheld
  · intro k m hm hfinal uid hu
    obtain ⟨r, hmem, hres⟩ := (h.playing hl).leased k m (hrows hm) hfinal uid hu
    refine ⟨r, hmem, ?_⟩
    rw [hr.held, if_neg, hres]
    rintro ⟨r', hmem', hheld⟩
    exact hlive hl k m (hrows hm) hfinal uid hu r' hmem' hheld
  · intro k m hm hfinal r hmem
    obtain ⟨x, hx, hhuman⟩ := (h.playing hl).lease k m (hrows hm) hfinal r hmem
    refine ⟨x, ?_, hhuman⟩
    rw [hr.row, if_neg fun hgone => ?_]
    · exact hx
    · obtain ⟨uid, hu⟩ := List.exists_mem_of_ne_nil _ (h.held.nonempty r x hx)
      exact hlive hl k m (hrows hm) hfinal uid (hhuman uid hu) r hgone (h.held.held r x hx uid hu)
  · intro k m hm bot hbot
    rw [hr.account]
    exact (h.playing hl).bots k m (hrows hm) bot hbot
  · intro k j m n hm hn
    exact (h.playing hl).alone k j m n (hrows hm) (hrows hn)

/-- The row of a live match changes, but not its seats. -/
theorem Inv.put (h : Inv live c) {k : MatchId} {m m' : Match} (hrow : c.matchRows.row k = some m)
    (hlive : m.stage.final = false) (hseats : m'.seats = m.seats) :
    Inv live { c with matchRows := c.matchRows.modify k fun _ => m' } := by
  have hteams : m'.state.teams = m.state.teams := congrArg Match.Seats.teams hseats
  have hbots : m'.state.bots = m.state.bots := congrArg Match.Seats.bots hseats
  have hleases : m'.state.reservations = m.state.reservations :=
    congrArg Match.Seats.reservations hseats
  have hranked : m'.ranked = m.ranked := congrArg Match.Seats.ranked hseats
  have hmembers : membersOf m' = membersOf m := by simp only [membersOf, hteams]
  have hhumans : humansOf m' = humansOf m := by simp only [humansOf, hmembers, hbots]
  have hrows : ∀ {j n}, (c.matchRows.modify k fun _ => m').row j = some n →
      ∃ n₀, c.matchRows.row j = some n₀ ∧ membersOf n = membersOf n₀ ∧
        humansOf n = humansOf n₀ ∧ n.state.reservations = n₀.state.reservations ∧
        n.state.bots = n₀.state.bots ∧ n.ranked = n₀.ranked ∧
        (n.stage.final = false → n₀.stage.final = false) := by
    intro j n hn
    rw [Table.row_modify] at hn
    split at hn
    · next hj =>
      subst hj
      rw [hrow] at hn
      obtain rfl := Option.some.inj hn
      exact ⟨m, hrow, hmembers, hhumans, hleases, hbots, hranked, fun _ => hlive⟩
    · exact ⟨n, hn, rfl, rfl, rfl, rfl, rfl, id⟩
  refine ⟨⟨h.held.kind, h.held.nonempty, h.held.nodup, h.held.player, h.held.held, h.held.holder⟩,
    ⟨h.queued.lease, h.queued.unique, ?_, ?_, ?_⟩, fun hl => ⟨?_, ?_, ?_, ?_, ?_⟩⟩
  · intro j n hn hfinal
    obtain ⟨n₀, hn₀, -, -, hr, -, -, hfinal₀⟩ := hrows hn
    rw [hr]
    exact h.queued.given j n₀ hn₀ (hfinal₀ hfinal)
  · intro j n hn hfinal
    obtain ⟨n₀, hn₀, -, -, hr, -, -, hfinal₀⟩ := hrows hn
    rw [hr]
    exact h.queued.apart j n₀ hn₀ (hfinal₀ hfinal)
  · intro j n hn
    obtain ⟨n₀, hn₀, hm, -, -, -, hrank, -⟩ := hrows hn
    rw [hm, hrank]
    exact h.queued.ranked j n₀ hn₀
  · intro j n hn hfinal
    obtain ⟨n₀, hn₀, -, hh, -, -, -, hfinal₀⟩ := hrows hn
    rw [hh]
    exact (h.playing hl).pointer j n₀ hn₀ (hfinal₀ hfinal)
  · intro j n hn hfinal
    obtain ⟨n₀, hn₀, -, hh, hr, -, -, hfinal₀⟩ := hrows hn
    rw [hh, hr]
    exact (h.playing hl).leased j n₀ hn₀ (hfinal₀ hfinal)
  · intro j n hn hfinal
    obtain ⟨n₀, hn₀, -, hh, hr, -, -, hfinal₀⟩ := hrows hn
    rw [hh, hr]
    exact (h.playing hl).lease j n₀ hn₀ (hfinal₀ hfinal)
  · intro j n hn
    obtain ⟨n₀, hn₀, -, -, -, hb, -, -⟩ := hrows hn
    rw [hb]
    exact (h.playing hl).bots j n₀ hn₀
  · intro i j n n' hn hn'
    obtain ⟨n₀, hn₀, -, -, -, hb, -, -⟩ := hrows hn
    obtain ⟨n₀', hn₀', -, -, -, hb', -, -⟩ := hrows hn'
    rw [hb, hb']
    exact (h.playing hl).alone i j n₀ n₀' hn₀ hn₀'

/-- Match pointers change, but not those of the human members of live matches. -/
theorem Inv.point (h : Inv live c) (matchOf : UserId → Option MatchId)
    (hpoint : live → ∀ k m, c.matchRows.row k = some m → m.stage.final = false →
      ∀ uid ∈ humansOf m, matchOf uid = c.matchOf uid) :
    Inv live { c with matchOf := matchOf } where
  held := ⟨h.held.kind, h.held.nonempty, h.held.nodup, h.held.player, h.held.held, h.held.holder⟩
  queued := ⟨h.queued.lease, h.queued.unique, h.queued.given, h.queued.apart, h.queued.ranked⟩
  playing hl :=
    let hp := h.playing hl
    ⟨fun k m hrow hlive uid hu => (hpoint hl k m hrow hlive uid hu).trans
      (hp.pointer k m hrow hlive uid hu), hp.leased, hp.lease, hp.bots, hp.alone⟩

/-- A queue row is added for a lease that no other row and no live match has. -/
theorem Inv.enqueue (h : Inv live c) (e : QueueEntry) {x : Reservation}
    (hrow : c.reservations.row e.reservationId = some x) (hmembers : x.members = e.members)
    (hfresh : ∀ i e', c.queue.row i = some e' → e'.reservationId ≠ e.reservationId)
    (hapart : ∀ k m, c.matchRows.row k = some m → m.stage.final = false →
      e.reservationId ∉ m.state.reservations) :
    Inv live { c with queue := c.queue.insert e } := by
  have hrows : ∀ {i e'}, (c.queue.insert e).row i = some e' →
      (i = c.queue.next ∧ e' = e) ∨ c.queue.row i = some e' := by
    intro i e' he
    rw [Table.row_insert] at he
    split at he
    · next heq => exact .inl ⟨heq, (Option.some.inj he).symm⟩
    · exact .inr he
  refine ⟨⟨h.held.kind, h.held.nonempty, h.held.nodup, h.held.player, h.held.held, h.held.holder⟩,
    ⟨?_, ?_, h.queued.given, ?_, h.queued.ranked⟩, fun hl =>
      let hp := h.playing hl
      ⟨hp.pointer, hp.leased, hp.lease, hp.bots, hp.alone⟩⟩
  · intro i e' he
    rcases hrows he with ⟨-, rfl⟩ | he
    · exact ⟨x, hrow, hmembers⟩
    · exact h.queued.lease i e' he
  · intro i j e₁ e₂ he₁ he₂ heq
    rcases hrows he₁ with ⟨rfl, rfl⟩ | hold₁
    · rcases hrows he₂ with ⟨rfl, -⟩ | hold₂
      · rfl
      · exact absurd heq.symm (hfresh j e₂ hold₂)
    · rcases hrows he₂ with ⟨rfl, rfl⟩ | hold₂
      · exact absurd heq (hfresh i e₁ hold₁)
      · exact h.queued.unique i j e₁ e₂ hold₁ hold₂ heq
  · intro k m hm hlive r hr i e' he heq
    rcases hrows he with ⟨-, rfl⟩ | he
    · exact hapart k m hm hlive (heq ▸ hr)
    · exact h.queued.apart k m hm hlive r hr i e' he heq

/-- A queue row or a lease is renewed. -/
theorem Inv.refresh (h : Inv live c) (i : Nat) (t : Time) :
    Inv live { c with queue := c.queue.modify i fun e => { e with expiresAt := t } } := by
  have hrows : ∀ {j e}, (c.queue.modify i fun e => { e with expiresAt := t }).row j = some e →
      ∃ e₀, c.queue.row j = some e₀ ∧ e.reservationId = e₀.reservationId ∧
        e.members = e₀.members := by
    intro j e he
    rw [Table.row_modify] at he
    split at he
    · obtain ⟨e₀, he₀, rfl⟩ := Option.map_eq_some_iff.mp he
      exact ⟨e₀, he₀, rfl, rfl⟩
    · exact ⟨e, he, rfl, rfl⟩
  refine ⟨⟨h.held.kind, h.held.nonempty, h.held.nodup, h.held.player, h.held.held, h.held.holder⟩,
    ⟨?_, ?_, h.queued.given, ?_, h.queued.ranked⟩, fun hl =>
      let hp := h.playing hl
      ⟨hp.pointer, hp.leased, hp.lease, hp.bots, hp.alone⟩⟩
  · intro j e he
    obtain ⟨e₀, he₀, hr, hm⟩ := hrows he
    rw [hr, hm]
    exact h.queued.lease j e₀ he₀
  · intro j j' e e' he he'
    obtain ⟨e₀, he₀, hr, -⟩ := hrows he
    obtain ⟨e₀', he₀', hr', -⟩ := hrows he'
    rw [hr, hr']
    exact h.queued.unique j j' e₀ e₀' he₀ he₀'
  · intro k m hm hlive r hmem j e he
    obtain ⟨e₀, he₀, hr, -⟩ := hrows he
    rw [hr]
    exact h.queued.apart k m hm hlive r hmem j e₀ he₀

/-- The leases after one was renewed are those of before. -/
theorem row_renew (t : Table Reservation) (r : ReservationId) (time : Time) (r' : ReservationId) :
    ((t.modify r fun x => { x with expiresAt := time }).row r').map
        (fun x => (x.captainId, x.partyId, x.kind, x.members, x.released)) =
      (t.row r').map fun x => (x.captainId, x.partyId, x.kind, x.members, x.released) := by
  rw [Table.row_modify]
  split
  · rw [Option.map_map]
    rfl
  · rfl

theorem renewed_of_row {t : Table Reservation} {r : ReservationId} {time : Time}
    {r' : ReservationId} {x : Reservation} (hx : t.row r' = some x) :
    ∃ y, (t.modify r fun x => { x with expiresAt := time }).row r' = some y ∧
      y.kind = x.kind ∧ y.members = x.members ∧ y.released = x.released := by
  have hsame := row_renew t r time r'
  rw [hx, Option.map_some, Option.map_eq_some_iff] at hsame
  obtain ⟨y, hy, heq⟩ := hsame
  simp only [Prod.mk.injEq] at heq
  exact ⟨y, hy, heq.2.2.1, heq.2.2.2.1, heq.2.2.2.2⟩

theorem row_of_renewed {t : Table Reservation} {r : ReservationId} {time : Time}
    {r' : ReservationId} {y : Reservation}
    (hy : (t.modify r fun x => { x with expiresAt := time }).row r' = some y) :
    ∃ x, t.row r' = some x ∧ y.kind = x.kind ∧ y.members = x.members ∧ y.released = x.released := by
  have hsame := row_renew t r time r'
  rw [hy, Option.map_some, eq_comm, Option.map_eq_some_iff] at hsame
  obtain ⟨x, hx, heq⟩ := hsame
  simp only [Prod.mk.injEq] at heq
  exact ⟨x, hx, heq.2.2.1.symm, heq.2.2.2.1.symm, heq.2.2.2.2.symm⟩

theorem Held.renew (h : c.Held) (r : ReservationId) (t : Time) :
    Held { c with reservations := c.reservations.modify r fun x => { x with expiresAt := t } } := by
  refine ⟨?_, ?_, ?_, ?_, ?_, ?_⟩
  · intro r' x hx
    obtain ⟨x₀, hx₀, hk, -⟩ := row_of_renewed hx
    rw [hk]
    exact h.kind r' x₀ hx₀
  · intro r' x hx
    obtain ⟨x₀, hx₀, -, hm, -⟩ := row_of_renewed hx
    rw [hm]
    exact h.nonempty r' x₀ hx₀
  · intro r' x hx
    obtain ⟨x₀, hx₀, -, hm, -⟩ := row_of_renewed hx
    rw [hm]
    exact h.nodup r' x₀ hx₀
  · intro r' x hx
    obtain ⟨x₀, hx₀, -, hm, -⟩ := row_of_renewed hx
    rw [hm]
    exact h.player r' x₀ hx₀
  · intro r' x hx
    obtain ⟨x₀, hx₀, -, hm, -⟩ := row_of_renewed hx
    rw [hm]
    exact h.held r' x₀ hx₀
  · intro uid r' hr
    obtain ⟨x₀, hx₀, hu⟩ := h.holder uid r' hr
    obtain ⟨x, hx, -, hm, -⟩ := renewed_of_row hx₀
    exact ⟨x, hx, hm ▸ hu⟩

theorem Inv.renew (h : Inv live c) (r : ReservationId) (t : Time) :
    Inv live
      { c with reservations := c.reservations.modify r fun x => { x with expiresAt := t } } := by
  refine ⟨h.held.renew r t, ⟨?_, h.queued.unique, h.queued.given, h.queued.apart,
    h.queued.ranked⟩, fun hl => ⟨(h.playing hl).pointer, (h.playing hl).leased, ?_,
      (h.playing hl).bots, (h.playing hl).alone⟩⟩
  · intro i e he
    obtain ⟨x₀, hx₀, hmem⟩ := h.queued.lease i e he
    obtain ⟨x, hx, -, hm, -⟩ := renewed_of_row hx₀
    exact ⟨x, hx, hm.trans hmem⟩
  · intro k m hm hlive r' hr
    obtain ⟨x₀, hx₀, hhuman⟩ := (h.playing hl).lease k m hm hlive r' hr
    obtain ⟨x, hx, -, hmem, -⟩ := renewed_of_row hx₀
    exact ⟨x, hx, hmem ▸ hhuman⟩

/-- A match opens: its leases are its own, its human members hold them, and its
bots are new to all matches. -/
theorem Inv.add (h : Inv live c) {m : Match} {queue : Table QueueEntry}
    {matchOf : UserId → Option MatchId}
    (hqueue : ∀ i e, queue.row i = some e → c.queue.row i = some e)
    (hpoint : ∀ uid, matchOf uid =
      if uid ∈ membersOf m then some c.matchRows.next else c.matchOf uid)
    (hapart : ∀ r ∈ m.state.reservations, ∀ i e, queue.row i = some e → e.reservationId ≠ r)
    (hranked : m.ranked = true → (membersOf m).Nodup)
    (hown : ∀ j n, c.matchRows.row j = some n → n.stage.final = false →
      ∀ r ∈ m.state.reservations, r ∉ n.state.reservations)
    (hleased : ∀ uid ∈ humansOf m, ∃ r ∈ m.state.reservations, c.reservationOf uid = some r)
    (hlease : ∀ r ∈ m.state.reservations, ∃ x, c.reservations.row r = some x ∧
      ∀ uid ∈ x.members, uid ∈ humansOf m)
    (hbots : live → ∀ bot ∈ m.state.bots, c.account bot.userId = some true ∧
      ∀ j n, c.matchRows.row j = some n → ∀ other ∈ n.state.bots, bot.userId ≠ other.userId) :
    Inv live { c with matchRows := c.matchRows.insert m, queue := queue, matchOf := matchOf } := by
  have hrows : ∀ {j n}, (c.matchRows.insert m).row j = some n →
      (j = c.matchRows.next ∧ n = m) ∨ c.matchRows.row j = some n := by
    intro j n hn
    rw [Table.row_insert] at hn
    split at hn
    · next heq => exact .inl ⟨heq, (Option.some.inj hn).symm⟩
    · exact .inr hn
  refine ⟨⟨h.held.kind, h.held.nonempty, h.held.nodup, h.held.player, h.held.held, h.held.holder⟩,
    ⟨fun i e he => h.queued.lease i e (hqueue i e he), fun i j e e' he he' =>
      h.queued.unique i j e e' (hqueue i e he) (hqueue j e' he'), ?_, ?_, ?_⟩,
    fun hl => ⟨?_, ?_, ?_, ?_, ?_⟩⟩
  · intro j n hn hlive r hr
    rcases hrows hn with ⟨-, rfl⟩ | hn
    · obtain ⟨x, hx, -⟩ := hlease r hr
      exact Table.lt_next hx
    · exact h.queued.given j n hn hlive r hr
  · intro j n hn hlive r hr i e he
    rcases hrows hn with ⟨-, rfl⟩ | hn
    · exact hapart r hr i e he
    · exact h.queued.apart j n hn hlive r hr i e (hqueue i e he)
  · intro j n hn
    rcases hrows hn with ⟨-, rfl⟩ | hn
    · exact hranked
    · exact h.queued.ranked j n hn
  · intro j n hn hlive uid hu
    show matchOf uid = some j
    rw [hpoint]
    rcases hrows hn with ⟨rfl, rfl⟩ | hn
    · exact if_pos (mem_humansOf hu).1
    · -- A member of another live match holds one of its leases.
      rw [if_neg fun hmem => ?_, (h.playing hl).pointer j n hn hlive uid hu]
      rcases human_or_bot hmem with hhuman | ⟨bot, hbot, rfl⟩
      · obtain ⟨r, hr, hheld⟩ := hleased uid hhuman
        obtain ⟨r', hr', hheld'⟩ := (h.playing hl).leased j n hn hlive uid hu
        rw [hheld] at hheld'
        exact hown j n hn hlive r hr (Option.some.inj hheld' ▸ hr')
      · have hplayer := h.human hl hn hlive hu
        rw [(hbots hl bot hbot).1] at hplayer
        simp at hplayer
  · intro j n hn hlive uid hu
    rcases hrows hn with ⟨-, rfl⟩ | hn
    · exact hleased uid hu
    · exact (h.playing hl).leased j n hn hlive uid hu
  · intro j n hn hlive r hr
    rcases hrows hn with ⟨-, rfl⟩ | hn
    · exact hlease r hr
    · exact (h.playing hl).lease j n hn hlive r hr
  · intro j n hn bot hbot
    rcases hrows hn with ⟨-, rfl⟩ | hn
    · exact (hbots hl bot hbot).1
    · exact (h.playing hl).bots j n hn bot hbot
  · intro i j n n' hn hn' bot hbot other hother heq
    rcases hrows hn with ⟨rfl, rfl⟩ | hold
    · rcases hrows hn' with ⟨rfl, -⟩ | hold'
      · rfl
      · exact absurd heq ((hbots hl bot hbot).2 j n' hold' other hother)
    · rcases hrows hn' with ⟨rfl, rfl⟩ | hold'
      · exact absurd heq.symm ((hbots hl other hother).2 i n hold bot hbot)
      · exact (h.playing hl).alone i j n n' hold hold' bot hbot other hother heq

/-- Members take seats in a lobby, under a new lease or the one they sit by. -/
theorem Inv.seat (h : Inv live c) {k : MatchId} {m m' : Match} {members : List UserId}
    {lease : Option ReservationId} {matchOf : UserId → Option MatchId}
    (hrow : c.matchRows.row k = some m) (hlive : m.stage.final = false)
    (hbots : m'.state.bots = m.state.bots) (hranked : m'.ranked = false)
    (hleases : m'.state.reservations = m.state.reservations ++ lease.toList)
    (hroster : ∀ uid, uid ∈ membersOf m' ↔ uid ∈ membersOf m ∨ uid ∈ members)
    (hplayer : ∀ uid ∈ members, c.account uid = some false)
    (hpoint : ∀ uid, matchOf uid = if uid ∈ members then some k else c.matchOf uid)
    (hnew : ∀ r, lease = some r → (∃ x, c.reservations.row r = some x ∧ x.members = members) ∧
      (∀ i e, c.queue.row i = some e → e.reservationId ≠ r) ∧
      ∀ j n, c.matchRows.row j = some n → n.stage.final = false → r ∉ n.state.reservations)
    (hold : live → lease = none → ∀ uid ∈ members, uid ∈ humansOf m) :
    Inv live
      { c with matchRows := c.matchRows.modify k fun _ => m', matchOf := matchOf } := by
  have hrows : ∀ {j n}, (c.matchRows.modify k fun _ => m').row j = some n →
      (j = k ∧ n = m') ∨ j ≠ k ∧ c.matchRows.row j = some n := by
    intro j n hn
    rw [Table.row_modify] at hn
    split at hn
    · next hj =>
      subst hj
      rw [hrow] at hn
      exact .inl ⟨rfl, (Option.some.inj hn).symm⟩
    · next hj => exact .inr ⟨hj, hn⟩
  have hmemLease : ∀ {r}, r ∈ m'.state.reservations →
      r ∈ m.state.reservations ∨ lease = some r := by
    intro r hr
    rw [hleases, List.mem_append, Option.mem_toList] at hr
    exact hr
  have hhumans : ∀ {uid}, uid ∈ humansOf m' → uid ∈ humansOf m ∨ uid ∈ members := by
    intro uid hu
    obtain ⟨hmem, hnot⟩ := mem_humansOf hu
    rcases (hroster uid).mp hmem with hmem | hmem
    · rcases human_or_bot hmem with hhuman | ⟨bot, hbot, heq⟩
      · exact .inl hhuman
      · exact absurd heq (hnot bot (hbots ▸ hbot))
    · exact .inr hmem
  have hhumans' : live → ∀ {uid}, uid ∈ humansOf m ∨ uid ∈ members → uid ∈ humansOf m' := by
    intro hl uid hu
    have hmem : uid ∈ membersOf m' := by
      rw [hroster]
      exact hu.imp (fun hhuman => (mem_humansOf hhuman).1) id
    have haccount : c.account uid = some false :=
      hu.elim (h.human hl hrow hlive) (hplayer uid)
    rcases human_or_bot hmem with hhuman | ⟨bot, hbot, rfl⟩
    · exact hhuman
    · rw [hbots] at hbot
      rw [(h.playing hl).bots k m hrow bot hbot] at haccount
      simp at haccount
  refine ⟨⟨h.held.kind, h.held.nonempty, h.held.nodup, h.held.player, h.held.held, h.held.holder⟩,
    ⟨h.queued.lease, h.queued.unique, ?_, ?_, ?_⟩, fun hl => ⟨?_, ?_, ?_, ?_, ?_⟩⟩
  · intro j n hn hfinal r hr
    rcases hrows hn with ⟨rfl, rfl⟩ | ⟨-, hn⟩
    · rcases hmemLease hr with hr | hr
      · exact h.queued.given j m hrow hlive r hr
      · obtain ⟨⟨x, hx, -⟩, -⟩ := hnew r hr
        exact Table.lt_next hx
    · exact h.queued.given j n hn hfinal r hr
  · intro j n hn hfinal r hr
    rcases hrows hn with ⟨rfl, rfl⟩ | ⟨-, hn⟩
    · rcases hmemLease hr with hr | hr
      · exact h.queued.apart j m hrow hlive r hr
      · exact (hnew r hr).2.1
    · exact h.queued.apart j n hn hfinal r hr
  · intro j n hn hrank
    rcases hrows hn with ⟨rfl, rfl⟩ | ⟨-, hn⟩
    · simp [hranked] at hrank
    · exact h.queued.ranked j n hn hrank
  · intro j n hn hfinal uid hu
    show matchOf uid = some j
    rw [hpoint]
    rcases hrows hn with ⟨rfl, rfl⟩ | ⟨hj, hn⟩
    · split
      · rfl
      · next hnot =>
        exact (h.playing hl).pointer j m hrow hlive uid ((hhumans hu).resolve_right hnot)
    · rw [if_neg fun hmem => ?_, (h.playing hl).pointer j n hn hfinal uid hu]
      cases hlease : lease with
      | none =>
        have hhuman := hold hl hlease uid hmem
        exact hj (h.exclusive hl hn hfinal hrow hlive (mem_humansOf hu).1 (mem_humansOf hhuman).1)
      | some r =>
        obtain ⟨⟨x, hx, hmembers⟩, -, hfresh⟩ := hnew r hlease
        obtain ⟨r', hr', hheld⟩ := (h.playing hl).leased j n hn hfinal uid hu
        rw [h.held.held r x hx uid (hmembers ▸ hmem)] at hheld
        exact hfresh j n hn hfinal (Option.some.inj hheld ▸ hr')
  · intro j n hn hfinal uid hu
    rcases hrows hn with ⟨rfl, rfl⟩ | ⟨-, hn⟩
    · have hkept : uid ∈ humansOf m →
          ∃ r ∈ n.state.reservations, c.reservationOf uid = some r := by
        intro hhuman
        obtain ⟨r, hr, hheld⟩ := (h.playing hl).leased j m hrow hlive uid hhuman
        exact ⟨r, by rw [hleases]; exact List.mem_append_left _ hr, hheld⟩
      rcases hhumans hu with hhuman | hmem
      · exact hkept hhuman
      · cases hlease : lease with
        | none => exact hkept (hold hl hlease uid hmem)
        | some r =>
          obtain ⟨⟨x, hx, hmembers⟩, -⟩ := hnew r hlease
          exact ⟨r, by rw [hleases, hlease]; simp, h.held.held r x hx uid (hmembers ▸ hmem)⟩
    · exact (h.playing hl).leased j n hn hfinal uid hu
  · intro j n hn hfinal r hr
    rcases hrows hn with ⟨rfl, rfl⟩ | ⟨-, hn⟩
    · rcases hmemLease hr with hr | hr
      · obtain ⟨x, hx, hhuman⟩ := (h.playing hl).lease j m hrow hlive r hr
        exact ⟨x, hx, fun uid hu => hhumans' hl (.inl (hhuman uid hu))⟩
      · obtain ⟨⟨x, hx, hmembers⟩, -⟩ := hnew r hr
        exact ⟨x, hx, fun uid hu => hhumans' hl (.inr (hmembers ▸ hu))⟩
    · exact (h.playing hl).lease j n hn hfinal r hr
  · intro j n hn bot hbot
    rcases hrows hn with ⟨rfl, rfl⟩ | ⟨-, hn⟩
    · exact (h.playing hl).bots j m hrow bot (hbots ▸ hbot)
    · exact (h.playing hl).bots j n hn bot hbot
  · intro i j n n' hn hn' bot hbot other hother
    have hsame : ∀ {j n}, (c.matchRows.modify k fun _ => m').row j = some n →
        ∃ n₀, c.matchRows.row j = some n₀ ∧ n.state.bots = n₀.state.bots := by
      intro j n hn
      rcases hrows hn with ⟨rfl, rfl⟩ | ⟨-, hn⟩
      · exact ⟨m, hrow, hbots⟩
      · exact ⟨n, hn, rfl⟩
    obtain ⟨n₀, hn₀, hb⟩ := hsame hn
    obtain ⟨n₀', hn₀', hb'⟩ := hsame hn'
    exact (h.playing hl).alone i j n₀ n₀' hn₀ hn₀' bot (hb ▸ hbot) other (hb' ▸ hother)

end World.Core

end Soms.Somsai

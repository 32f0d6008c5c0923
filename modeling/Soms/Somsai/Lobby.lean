import Soms.Somsai.Links

/-!
# Custom lobbies

A custom match that is still waiting is a lobby: its seats are filled by whole
parties, each under a lease of its own, and the bots of the other team.  The
lobby keeps its shape while no lease is freed from outside, by its id or by a
native claim.
-/

namespace Soms.Somsai

open Txn World

namespace World.Core

/-- The shape of a lobby, with what its next step relies on. -/
structure Lobby (c : Core) (m : Match) : Prop where
  nodup : (membersOf m).Nodup
  fits : ∀ team, (m.state.teams.get team).length ≤ m.format.size
  captains : m.state.captains = m.state.teams.map List.head?
  red : ∀ bot ∈ m.state.bots, bot.userId ∉ m.state.teams.red
  blue : m.state.bots ≠ [] → ∀ uid ∈ m.state.teams.blue, ∃ bot ∈ m.state.bots, bot.userId = uid
  bots : ∀ bot ∈ m.state.bots, c.account bot.userId = some true
  leases : m.state.reservations.Nodup
  lease : ∀ r ∈ m.state.reservations, ∃ x, c.reservations.row r = some x ∧
    ∀ uid ∈ x.members, uid ∈ humansOf m
  held : ∀ uid ∈ humansOf m, ∃ r ∈ m.state.reservations, c.reservationOf uid = some r

/-- A custom match that waits for players. -/
def Open (m : Match) : Prop := m.ranked = false ∧ m.stage = .waiting

/-- Leases are live, no two live matches share one, and every lobby has its shape. -/
structure Lobbies (c : Core) : Prop where
  live : ∀ r x, c.reservations.row r = some x → x.released = false
  apart : ∀ k j m n, c.matchRows.row k = some m → m.stage.final = false →
    c.matchRows.row j = some n → n.stage.final = false →
    ∀ r ∈ m.state.reservations, r ∈ n.state.reservations → k = j
  lobby : ∀ k m, c.matchRows.row k = some m → Open m → c.Lobby m

variable {c d : Core}

theorem Open.unfinished {m : Match} (h : Open m) : m.stage.final = false := by
  rw [h.2]
  rfl

/-- A lobby whose leases and accounts stay keeps its shape. -/
theorem Lobby.frame {m m' : Match} (h : c.Lobby m) (hseats : m'.seats = m.seats)
    (hcaptains : m'.state.captains = m.state.captains)
    (hrows : ∀ r ∈ m.state.reservations, ∀ x, c.reservations.row r = some x →
      ∃ y, d.reservations.row r = some y ∧ y.members = x.members)
    (hheld : ∀ uid, ∀ r ∈ m.state.reservations, c.reservationOf uid = some r →
      d.reservationOf uid = some r)
    (haccount : ∀ uid b, c.account uid = some b → d.account uid = some b) : d.Lobby m' := by
  have hteams : m'.state.teams = m.state.teams := congrArg Match.Seats.teams hseats
  have hbots : m'.state.bots = m.state.bots := congrArg Match.Seats.bots hseats
  have hleases : m'.state.reservations = m.state.reservations :=
    congrArg Match.Seats.reservations hseats
  have hformat : m'.format = m.format := congrArg Match.Seats.format hseats
  have hmembers : membersOf m' = membersOf m := by simp only [membersOf, hteams]
  have hhumans : humansOf m' = humansOf m := by simp only [humansOf, hmembers, hbots]
  refine ⟨hmembers ▸ h.nodup, ?_, ?_, ?_, ?_, ?_, hleases ▸ h.leases, ?_, ?_⟩
  · rw [hteams, hformat]
    exact h.fits
  · rw [hcaptains, hteams]
    exact h.captains
  · rw [hbots, hteams]
    exact h.red
  · rw [hbots, hteams]
    exact h.blue
  · rw [hbots]
    exact fun bot hbot => haccount bot.userId true (h.bots bot hbot)
  · rw [hleases, hhumans]
    intro r hr
    obtain ⟨x, hx, hmem⟩ := h.lease r hr
    obtain ⟨y, hy, heq⟩ := hrows r hr x hx
    exact ⟨y, hy, heq ▸ hmem⟩
  · rw [hleases, hhumans]
    intro uid hu
    obtain ⟨r, hr, hres⟩ := h.held uid hu
    exact ⟨r, hr, hheld uid r hr hres⟩

/-- Rows of matches that are the same, or live and with the same leases as before. -/
theorem Lobbies.frame (h : c.Lobbies)
    (hlive : ∀ r x, d.reservations.row r = some x → x.released = false)
    (hrows : ∀ k n, d.matchRows.row k = some n → n.stage.final = false →
      ∃ m, c.matchRows.row k = some m ∧ m.stage.final = false ∧
        n.state.reservations = m.state.reservations ∧
        (Open n → Open m ∧ n.seats = m.seats ∧ n.state.captains = m.state.captains))
    (hleases : ∀ k m, c.matchRows.row k = some m → (∃ n, d.matchRows.row k = some n ∧ Open n) →
      ∀ r ∈ m.state.reservations,
        (∀ x, c.reservations.row r = some x →
          ∃ y, d.reservations.row r = some y ∧ y.members = x.members) ∧
        ∀ uid, c.reservationOf uid = some r → d.reservationOf uid = some r)
    (haccount : ∀ uid b, c.account uid = some b → d.account uid = some b) : d.Lobbies where
  live := hlive
  apart k j n n' hn hnlive hn' hnlive' r hr hr' := by
    obtain ⟨m, hm, hmlive, hres, -⟩ := hrows k n hn hnlive
    obtain ⟨m', hm', hmlive', hres', -⟩ := hrows j n' hn' hnlive'
    exact h.apart k j m m' hm hmlive hm' hmlive' r (hres ▸ hr) (hres' ▸ hr')
  lobby k n hn hopen := by
    obtain ⟨m, hm, -, -, hsame⟩ := hrows k n hn hopen.unfinished
    obtain ⟨hmopen, hseats, hcaptains⟩ := hsame hopen
    have hkept := hleases k m hm ⟨n, hn, hopen⟩
    exact (h.lobby k m hm hmopen).frame hseats hcaptains (fun r hr => (hkept r hr).1)
      (fun uid r hr => (hkept r hr).2 uid) haccount

/-- The queue, the match pointers and the settlements do not matter, and accounts may
be added. -/
theorem Lobbies.same (h : c.Lobbies) (hres : d.reservations = c.reservations)
    (hheld : d.reservationOf = c.reservationOf) (hrows : d.matchRows = c.matchRows)
    (haccount : ∀ uid b, c.account uid = some b → d.account uid = some b) : d.Lobbies := by
  refine h.frame (hres ▸ h.live) (fun k n hn hlive => ?_) (fun k m _ _ r _ => ⟨fun x hx => ?_, ?_⟩)
    haccount
  · exact ⟨n, hrows ▸ hn, hlive, rfl, fun hopen => ⟨hopen, rfl, rfl⟩⟩
  · exact ⟨x, hres ▸ hx, rfl⟩
  · rw [hheld]
    exact fun _ => id

/-- Free players take a new lease. -/
theorem Lobbies.reserve (h : c.Lobbies) (x : Reservation) (hidle : c.Idle x.members)
    (hx : x.released = false) (reservationOf : UserId → Option ReservationId)
    (hheld : ∀ uid, reservationOf uid =
      if uid ∈ x.members then some c.reservations.next else c.reservationOf uid) :
    Lobbies
      { c with reservations := c.reservations.insert x, reservationOf := reservationOf } := by
  refine h.frame (fun r y hy => ?_)
    (fun k n hn hlive => ⟨n, hn, hlive, rfl, fun hopen => ⟨hopen, rfl, rfl⟩⟩)
    (fun k m _ _ r _ => ⟨fun y hy => ⟨y, ?_, rfl⟩, fun uid hr => ?_⟩) fun _ _ => id
  · have hy : (c.reservations.insert x).row r = some y := hy
    rw [Table.row_insert] at hy
    split at hy
    · exact Option.some.inj hy ▸ hx
    · exact h.live r y hy
  · exact Table.row_insert_of_some hy
  · exact (hheld uid).trans (hidle.kept hr)

/-- Leases are released that no live match has. -/
theorem Lobbies.release {rs : List ReservationId} (h : c.Lobbies) (hr : Released c d rs)
    (hfree : ∀ k m, c.matchRows.row k = some m → m.stage.final = false →
      ∀ r ∈ m.state.reservations, r ∉ rs) : d.Lobbies := by
  refine h.frame (fun r x hx => ?_) (fun k n hn hlive => ?_) (fun k m hm ⟨n, hn, hopen⟩ r hmem => ?_)
    (fun uid b => by rw [hr.account]; exact id)
  · rw [hr.row] at hx
    split at hx
    · simp at hx
    · exact h.live r x hx
  · exact ⟨n, hr.matchRows ▸ hn, hlive, rfl, fun hopen => ⟨hopen, rfl, rfl⟩⟩
  · have hn : c.matchRows.row k = some n := hr.matchRows ▸ hn
    obtain rfl := Option.some.inj (hm.symm.trans hn)
    have hnot := hfree k m hm hopen.unfinished r hmem
    refine ⟨fun x hx => ⟨x, ?_, rfl⟩, fun uid hheld => ?_⟩
    · rw [hr.row, if_neg hnot]
      exact hx
    · rw [hr.held, if_neg, hheld]
      rintro ⟨r', hr', heq⟩
      exact hnot (Option.some.inj (hheld.symm.trans heq) ▸ hr')

theorem Lobbies.renew (h : c.Lobbies) (r : ReservationId) (t : Time) :
    Lobbies
      { c with reservations := c.reservations.modify r fun x => { x with expiresAt := t } } := by
  refine h.frame (fun r' y hy => ?_)
    (fun k n hn hlive => ⟨n, hn, hlive, rfl, fun hopen => ⟨hopen, rfl, rfl⟩⟩)
    (fun k m _ _ r' _ => ⟨fun x hx => ?_, fun _ => id⟩) fun _ _ => id
  · obtain ⟨x, hx, -, -, hreleased⟩ := row_of_renewed hy
    exact hreleased.trans (h.live r' x hx)
  · obtain ⟨y, hy, -, hmembers, -⟩ := renewed_of_row hx
    exact ⟨y, hy, hmembers⟩

/-- The row of a live match changes, but not its leases. -/
theorem Lobbies.put (h : c.Lobbies) {k : MatchId} {m m' : Match} (hrow : c.matchRows.row k = some m)
    (hlive : m.stage.final = false) (hleases : m'.state.reservations = m.state.reservations)
    (hopen : Open m' → Open m ∧ m'.seats = m.seats ∧ m'.state.captains = m.state.captains) :
    Lobbies { c with matchRows := c.matchRows.modify k fun _ => m' } := by
  refine h.frame h.live (fun j n hn hnlive => ?_)
    (fun j m₁ _ _ r _ => ⟨fun x hx => ⟨x, hx, rfl⟩, fun _ => id⟩) fun _ _ => id
  replace hn : (c.matchRows.modify k fun _ => m').row j = some n := hn
  rw [Table.row_modify] at hn
  split at hn
  · next hj =>
    subst hj
    rw [hrow] at hn
    obtain rfl := Option.some.inj hn
    exact ⟨m, hrow, hlive, hleases, hopen⟩
  · exact ⟨n, hn, hnlive, rfl, fun hopen => ⟨hopen, rfl, rfl⟩⟩

/-- A live match ends and its leases are released. -/
theorem Lobbies.finish (h : c.Lobbies) {k : MatchId} {m m' : Match}
    (hrow : c.matchRows.row k = some m) (hlive : m.stage.final = false)
    (hleases : m'.state.reservations = m.state.reservations) (hfinal : m'.stage.final = true)
    (hr : Released { c with matchRows := c.matchRows.modify k fun _ => m' } d m.state.reservations) :
    d.Lobbies := by
  have hput : Lobbies { c with matchRows := c.matchRows.modify k fun _ => m' } := by
    refine h.put hrow hlive hleases fun hopen => ?_
    rw [hopen.unfinished] at hfinal
    simp at hfinal
  refine hput.release hr fun j n hn hnlive r hmem hmem' => ?_
  replace hn : (c.matchRows.modify k fun _ => m').row j = some n := hn
  rw [Table.row_modify] at hn
  split at hn
  · obtain ⟨_, -, rfl⟩ := Option.map_eq_some_iff.mp hn
    rw [hfinal] at hnlive
    simp at hnlive
  · next hj => exact hj (h.apart j k n m hn hnlive hrow hlive r hmem hmem')

/-- A match opens under leases that no live match has. -/
theorem Lobbies.add (h : c.Lobbies) {m : Match} {queue : Table QueueEntry}
    {matchOf : UserId → Option MatchId}
    (hown : ∀ j n, c.matchRows.row j = some n → n.stage.final = false →
      ∀ r ∈ m.state.reservations, r ∉ n.state.reservations)
    (hlobby : Open m → c.Lobby m) :
    Lobbies
      { c with matchRows := c.matchRows.insert m, queue := queue, matchOf := matchOf } := by
  have hrows : ∀ {j n}, (c.matchRows.insert m).row j = some n →
      (j = c.matchRows.next ∧ n = m) ∨ c.matchRows.row j = some n := by
    intro j n hn
    rw [Table.row_insert] at hn
    split at hn
    · next heq => exact .inl ⟨heq, (Option.some.inj hn).symm⟩
    · exact .inr hn
  have hsame : ∀ {n : Match}, c.Lobby n → Lobby
      { c with matchRows := c.matchRows.insert m, queue := queue, matchOf := matchOf } n := fun hn =>
    hn.frame rfl rfl (fun _ _ x hx => ⟨x, hx, rfl⟩) (fun _ _ _ => id) fun _ _ => id
  refine ⟨h.live, fun k j n n' hn hnlive hn' hnlive' r hr hr' => ?_, fun k n hn hopen => ?_⟩
  · rcases hrows hn with ⟨rfl, rfl⟩ | hold
    · rcases hrows hn' with ⟨rfl, -⟩ | hold'
      · rfl
      · exact absurd hr' (hown j n' hold' hnlive' r hr)
    · rcases hrows hn' with ⟨rfl, rfl⟩ | hold'
      · exact absurd hr (hown k n hold hnlive r hr')
      · exact h.apart k j n n' hold hnlive hold' hnlive' r hr hr'
  · rcases hrows hn with ⟨-, rfl⟩ | hold
    · exact hsame (hlobby hopen)
    · exact hsame (h.lobby k n hold hopen)

/-- A lobby takes a new lease, or none. -/
theorem Lobbies.seat (h : c.Lobbies) {k : MatchId} {m m' : Match} {lease : Option ReservationId}
    {matchOf : UserId → Option MatchId} (hrow : c.matchRows.row k = some m)
    (hlive : m.stage.final = false)
    (hleases : m'.state.reservations = m.state.reservations ++ lease.toList)
    (hnew : ∀ r, lease = some r → ∀ j n, c.matchRows.row j = some n → n.stage.final = false →
      r ∉ n.state.reservations)
    (hlobby : c.Lobby m') :
    Lobbies { c with matchRows := c.matchRows.modify k fun _ => m', matchOf := matchOf } := by
  have hrows : ∀ {j n}, (c.matchRows.modify k fun _ => m').row j = some n →
      (j = k ∧ n = m') ∨ j ≠ k ∧ c.matchRows.row j = some n := by
    intro j n hn
    rw [Table.row_modify] at hn
    split at hn
    · next hj =>
      subst hj
      rw [hrow] at hn
      exact .inl ⟨rfl, (Option.some.inj hn).symm⟩
    · next hj => exact .inr ⟨hj, hn⟩
  have hsame : ∀ {n : Match}, c.Lobby n → Lobby
      { c with matchRows := c.matchRows.modify k fun _ => m', matchOf := matchOf } n := fun hn =>
    hn.frame rfl rfl (fun _ _ x hx => ⟨x, hx, rfl⟩) (fun _ _ _ => id) fun _ _ => id
  -- Another live match has none of the leases of the lobby.
  have hother : ∀ {j n}, j ≠ k → c.matchRows.row j = some n → n.stage.final = false →
      ∀ r ∈ m'.state.reservations, r ∉ n.state.reservations := by
    intro j n hj hn hnlive r hr hr'
    rw [hleases, List.mem_append, Option.mem_toList] at hr
    rcases hr with hr | hr
    · exact hj (h.apart j k n m hn hnlive hrow hlive r hr' hr)
    · exact hnew r hr j n hn hnlive hr'
  refine ⟨h.live, fun i j n n' hn hnlive hn' hnlive' r hr hr' => ?_, fun j n hn hopen => ?_⟩
  · rcases hrows hn with ⟨rfl, rfl⟩ | ⟨hi, hold⟩
    · rcases hrows hn' with ⟨rfl, -⟩ | ⟨hj, hold'⟩
      · rfl
      · exact absurd hr' (hother hj hold' hnlive' r hr)
    · rcases hrows hn' with ⟨rfl, rfl⟩ | ⟨hj, hold'⟩
      · exact absurd hr (hother hi hold hnlive r hr')
      · exact h.apart i j n n' hold hnlive hold' hnlive' r hr hr'
  · rcases hrows hn with ⟨-, rfl⟩ | ⟨-, hold⟩
    · exact hsame hlobby
    · exact hsame (h.lobby j n hold hopen)

/-! ## Seats -/

/-- Who sits in a lobby after members took seats in it. -/
theorem membersOf_seat_perm (m : Match) (ctx : Ctx) (members : List UserId) (team : Team)
    (lease : Option ReservationId) :
    (membersOf (m.seat ctx members team lease)).Perm
      ((membersOf m).filter (fun uid => uid ∉ members) ++ members) := by
  cases team with
  | red =>
    simp only [membersOf, Match.seat, Match.touch, PerTeam.map, PerTeam.set, PerTeam.get,
      List.filter_append, List.append_assoc]
    exact List.perm_append_comm.append_left _
  | blue =>
    simp only [membersOf, Match.seat, Match.touch, PerTeam.map, PerTeam.set, PerTeam.get,
      List.filter_append, List.append_assoc]
    exact .refl _

/-- Members who hold one lease, new to the lobby or one of its own, take seats in it. -/
theorem Lobby.seat {m : Match} (ctx : Ctx) {members : List UserId} {team : Team}
    {lease : Option ReservationId} {r : ReservationId} {x : Reservation} (h : c.Lobby m) (hc : c.Held)
    (hrow : c.reservations.row r = some x) (hmembers : x.members = members)
    (hlease : (lease = some r ∧ r ∉ m.state.reservations) ∨
      (lease = none ∧ r ∈ m.state.reservations))
    (hfree : m.state.bots ≠ [] → team = .red)
    (hfits : ((m.state.teams.get team).filter fun uid => uid ∉ members).length + members.length ≤
      m.format.size) : c.Lobby (m.seat ctx members team lease) := by
  subst hmembers
  have hroster := membersOf_seat_perm m ctx x.members team lease
  have hmem : ∀ {uid}, uid ∈ membersOf (m.seat ctx x.members team lease) ↔
      uid ∈ membersOf m ∨ uid ∈ x.members := fun {uid} => by
    rw [hroster.mem_iff]
    by_cases hu : uid ∈ x.members <;> simp [hu]
  have hplayer : ∀ bot ∈ m.state.bots, bot.userId ∉ x.members := by
    intro bot hbot hu
    have haccount := hc.player r x hrow _ hu
    rw [h.bots bot hbot] at haccount
    simp at haccount
  have hhumans : ∀ {uid}, uid ∈ humansOf (m.seat ctx x.members team lease) ↔
      uid ∈ humansOf m ∨ uid ∈ x.members := by
    intro uid
    constructor
    · intro hu
      obtain ⟨hin, hnot⟩ := mem_humansOf hu
      refine (hmem.mp hin).imp_left fun hold => ?_
      exact (human_or_bot hold).resolve_right fun ⟨bot, hbot, heq⟩ => hnot bot hbot heq
    · intro hu
      refine (human_or_bot (hmem.mpr (hu.imp_left fun hold => (mem_humansOf hold).1))).resolve_right ?_
      rintro ⟨bot, hbot, rfl⟩
      rcases hu with hold | hnew
      · exact (mem_humansOf hold).2 bot hbot rfl
      · exact hplayer bot hbot hnew
  have hown : r ∈ (m.seat ctx x.members team lease).state.reservations := by
    show r ∈ m.state.reservations ++ lease.toList
    rcases hlease with ⟨rfl, -⟩ | ⟨-, hr⟩
    · simp
    · exact List.mem_append_left _ hr
  refine ⟨?_, ?_, rfl, ?_, ?_, h.bots, ?_, ?_, ?_⟩
  · rw [hroster.nodup_iff]
    refine (h.nodup.filter _).append (hc.nodup r x hrow) fun uid hu hu' => ?_
    simp [hu'] at hu
  · intro other
    by_cases hother : other = team
    · subst hother
      cases other <;> simpa [Match.seat, Match.touch, PerTeam.map, PerTeam.set, PerTeam.get]
        using hfits
    · have hsame : (m.seat ctx x.members team lease).state.teams.get other =
          (m.state.teams.get other).filter fun uid => uid ∉ x.members := by
        cases other <;> cases team <;> first | exact absurd rfl hother | rfl
      rw [hsame]
      exact (List.length_filter_le _ _).trans (h.fits other)
  · intro bot hbot hred
    have hred : bot.userId ∈ m.state.teams.red ∨ bot.userId ∈ x.members := by
      cases team <;>
        simp only [Match.seat, Match.touch, PerTeam.map, PerTeam.set, PerTeam.get, List.mem_append,
          List.mem_filter] at hred
      · exact hred.imp_left And.left
      · exact .inl hred.1
    exact hred.elim (h.red bot hbot) (hplayer bot hbot)
  · intro hbots uid hblue
    obtain rfl := hfree hbots
    exact h.blue hbots uid (List.mem_filter.mp hblue).1
  · show (m.state.reservations ++ lease.toList).Nodup
    rcases hlease with ⟨rfl, hr⟩ | ⟨rfl, -⟩
    · exact h.leases.append (List.nodup_singleton r) (by simpa using hr)
    · simpa using h.leases
  · intro r' hr'
    have hr' : r' ∈ m.state.reservations ++ lease.toList := hr'
    rw [List.mem_append, Option.mem_toList] at hr'
    rcases hr' with hr' | hr'
    · obtain ⟨y, hy, hhuman⟩ := h.lease r' hr'
      exact ⟨y, hy, fun uid hu => hhumans.mpr (.inl (hhuman uid hu))⟩
    · rcases hlease with ⟨rfl, -⟩ | ⟨rfl, -⟩
      · obtain rfl := Option.some.inj hr'
        exact ⟨x, hrow, fun uid hu => hhumans.mpr (.inr hu)⟩
      · simp at hr'
  · intro uid hu
    rcases hhumans.mp hu with hold | hnew
    · obtain ⟨r', hr', hheld⟩ := h.held uid hold
      exact ⟨r', List.mem_append_left _ hr', hheld⟩
    · exact ⟨r, hown, hc.held r x hrow uid hnew⟩

/-- A match that was just opened is a lobby. -/
theorem lobby_newMatch {ctx : Ctx} {k : MatchId} {setup : Setup} {pool : Pool} {rating : ℚ}
    {room : RoomId} {w u : World} (hseating : Seating setup) (hleased : Leased w u setup) :
    u.core.Lobby (newMatch ctx k setup pool rating room) where
  nodup := hseating.nodup
  fits := hseating.fits
  captains := rfl
  red := hseating.bots
  blue := hseating.blue
  bots bot hbot := (hleased.bots bot hbot).2
  leases := hseating.leases
  lease r hr := by
    obtain ⟨-, x, hx, hmem⟩ := hleased.lease r hr
    exact ⟨x, hx, fun uid hu => humansOf_newMatch.mpr (hmem uid hu)⟩
  held uid hu := hleased.held uid (humansOf_newMatch.mp hu)

end World.Core

/-! ## Changes -/

section Changes

variable {clock : Prop} {ctx : Ctx} {k : MatchId} {w u t : World} {m : Match}

theorem World.Quiet.lobbies (h : Quiet w t) (hw : w.core.Lobbies) : t.core.Lobbies := by
  rw [h.core]
  exact hw

theorem World.Leases.lobbies (h : Leases w u) (hw : w.core.Lobbies) : u.core.Lobbies := by
  induction h with
  | refl => exact hw
  | @tail v t _ hlast ih =>
    cases hlast with
    | quiet hq => exact hq.lobbies ih
    | @reserve now captain members kind partyId hidle hkind =>
      rw [core_reserve]
      exact ih.reserve (leaseOf now captain members kind partyId) hidle rfl _ fun _ => rfl
    | bots count name =>
      exact ih.same rfl rfl rfl fun uid b hb =>
        account_leases (.single (.bots v count name)) uid b hb

theorem finishMatch_lobbies (winner : Option Team) (cancelled : Bool) (reason : String)
    (hrow : w.matchRows.row k = some m) (hlive : m.stage.final = false) (hheld : w.core.Held)
    (hw : w.core.Lobbies) : (w.finishMatch ctx k winner cancelled reason).core.Lobbies := by
  unfold finishMatch
  simp only [hrow, hlive, Bool.false_eq_true, if_false]
  obtain ⟨l, hsettle⟩ := core_settle ctx w k (m.closed ctx winner cancelled reason) winner cancelled
  generalize w.settle ctx k _ winner cancelled = settled at hsettle ⊢
  have hsettled : settled.1.core.Lobbies := by
    rw [hsettle]
    exact hw.same rfl rfl rfl fun _ _ => id
  have hrow' : settled.1.core.matchRows.row k = some m := by
    rw [hsettle]
    exact hrow
  generalize hclosed : (m.closed ctx winner cancelled reason).withRatings winner settled.2 = m'
  have hfinal : m'.stage.final = true := by
    rw [← hclosed]
    exact final_finalStage cancelled
  have hleases : m'.state.reservations = m.state.reservations := by
    rw [← hclosed]
    rfl
  have hheld' : (settled.1.putMatch k m').core.Held := by
    have hsame : settled.1.core.Held := hsettle ▸ hheld.same rfl rfl fun _ _ => id
    exact hsame.same rfl rfl fun _ _ => id
  have hreleased := released_all ctx.now m.state.reservations hheld'
  have hlobbies := hsettled.finish hrow' hlive hleases hfinal hreleased
  rw [core_pointAt]
  exact hlobbies.same rfl rfl rfl fun _ _ => id

theorem Play.lobbies (h : Play clock ctx k w t) (hheld : w.core.Held) (hw : w.core.Lobbies) :
    t.core.Lobbies := by
  cases h with
  | quiet hq => exact hq.lobbies hw
  | @move m m' hrow hupdate =>
    have hseats := hupdate.move.seats
    refine hw.put hrow hupdate.live (congrArg Match.Seats.reservations hseats) fun hopen => ?_
    obtain ⟨hwaits, hcase⟩ := hupdate.waiting hopen.2
    have hranked : m.ranked = false := (congrArg Match.Seats.ranked hseats).symm.trans hopen.1
    refine ⟨⟨hranked, hwaits⟩, hseats, ?_⟩
    obtain ⟨uid, ready, rfl⟩ | ⟨_, _, rfl⟩ | ⟨e, rfl⟩ := hcase
    · unfold Match.answer
      simp only [hwaits, if_true]
      rfl
    · rfl
    · rfl
  | finish hrow hlive => exact finishMatch_lobbies _ _ _ hrow hlive hheld hw
  | @round m hrow slot winner totals players forfeit reason hslot hcounts champion cancelled why =>
    have hput : (w.putMatch k (m.record ctx slot winner totals players forfeit
        reason)).core.Lobbies := by
      refine hw.put hrow hcounts.live rfl fun hopen => ?_
      have hround := hcounts.inRound
      rw [show m.stage = .waiting from hopen.2] at hround
      simp [Stage.inRound] at hround
    refine finishMatch_lobbies champion cancelled why (row_putMatch hrow _) hcounts.live ?_ hput
    exact hheld.same rfl rfl fun _ _ => id

/-- Queue rows go, and with them their leases. -/
theorem dropEntries_lobbies (now : Time) {rows : List QueueRow} (hinv : w.core.Inv False)
    (hw : w.core.Lobbies) (hrows : w.Rows rows) :
    (((rows.map fun x => x.2.reservationId).foldl (releaseReservation now) w).deleteEntries
      rows).core.Lobbies := by
  have hreleased := released_all now (rows.map fun x => x.2.reservationId) hinv.held
  have hlobbies := hw.release hreleased fun k m hm hlive r hr hmem => by
    obtain ⟨x, hx, rfl⟩ := List.mem_map.mp hmem
    exact hinv.queued.apart k m hm hlive _ hr x.1 x.2 (hrows.current x hx) rfl
  obtain ⟨queue, hframe⟩ := deleteEntries_frame rows
    ((rows.map fun x => x.2.reservationId).foldl (releaseReservation now) w)
  rw [hframe]
  exact hlobbies.same rfl rfl rfl fun _ _ => id

/-- Every change keeps the lobbies. -/
theorem World.Change.lobbies (h : Change clock ctx w t) (hinv : w.core.Inv False)
    (hw : w.core.Lobbies) : t.core.Lobbies := by
  cases h with
  | play h => exact Play.lobbies h hinv.held hw
  | expire hrow hkind =>
    rw [hinv.held.kind _ _ hrow] at hkind
    simp at hkind
  | renew r time => exact hw.renew r time
  | refresh i time => exact hw.same rfl rfl rfl fun _ _ => id
  | @drop x hrow =>
    have hrows : w.Rows [x] :=
      ⟨fun y hy => by rw [List.mem_singleton.mp hy]; exact hrow, List.nodup_singleton _⟩
    exact dropEntries_lobbies ctx.now hinv hw hrows
  | @enqueue u hl entry x hnew hrow hmembers =>
    have hpointers := setMatches ctx.now none entry.members
      { u with queue := u.queue.insert entry }
    obtain ⟨activity, hframe⟩ := enqueue_frame ctx.now entry u
    have hheld : (u.enqueue ctx.now entry).reservationOf = u.reservationOf :=
      funext fun uid => (hpointers uid).2
    refine (hl.lobbies hw).same ?_ hheld ?_ fun uid b hb => ?_ <;> rw [hframe] <;>
      first | rfl | exact hb
  | @group selected teams anchor pool rating hrows hteams =>
    obtain ⟨queue, hframe⟩ := deleteEntries_frame selected
      (w.openMatch ctx (groupSetup selected teams anchor) pool rating)
    have hcore := core_openMatch ctx (groupSetup selected teams anchor) pool rating w
    rw [hframe]
    have hown : ∀ j n, w.core.matchRows.row j = some n → n.stage.final = false →
        ∀ r ∈ selected.map fun x => x.2.reservationId, r ∉ n.state.reservations := by
      intro j n hn hlive r hr hmem
      obtain ⟨x, hx, rfl⟩ := List.mem_map.mp hr
      exact hinv.queued.apart j n hn hlive _ hmem x.1 x.2 (hrows.current x hx) rfl
    have hopen : ¬ Core.Open (newMatch ctx w.matchRows.next (groupSetup selected teams anchor) pool
        rating w.nextRoom) := fun hopen => absurd hopen.1 (by simp [newMatch, groupSetup])
    have hadd : Core.Lobbies
        { (w.openMatch ctx (groupSetup selected teams anchor) pool rating).core with
          queue := queue } := by
      rw [hcore]
      exact hw.add hown fun h => absurd h hopen
    exact hadd
  | ungroup hrows => exact dropEntries_lobbies ctx.now hinv hw hrows
  | @opened u hl setup pool rating hranked hleased hseating =>
    obtain ⟨-, -, hrows⟩ := hl.inv hinv
    rw [core_openMatch]
    refine (hl.lobbies hw).add (fun j n hn hlive r hr => ?_) fun _ =>
      Core.lobby_newMatch hseating hleased
    exact (hinv.older (hleased.lease r hr).1).2 j n (hrows ▸ hn) hlive
  | @seat u hl k m hrow hranked hstage members team lease hseated hfree hfits =>
    obtain ⟨hu, -, hrows⟩ := hl.inv hinv
    have hlobbies := hl.lobbies hw
    have hlive : m.stage.final = false := by rw [hstage]; rfl
    have hrow' : u.core.matchRows.row k = some m := by
      rw [show u.core.matchRows = w.matchRows from hrows]
      exact hrow
    have hlobby := hlobbies.lobby k m hrow' ⟨hranked, hstage⟩
    rw [core_pointAt]
    refine hlobbies.seat hrow' hlive rfl (fun r hr j n hn hnlive => ?_) ?_
    · subst hr
      cases hseated with
      | joins hnew => exact (hinv.older hnew).2 j n (hrows ▸ hn) hnlive
    · cases hseated with
      | @joins r x hnew hx hmembers =>
        have hfresh := (hinv.older hnew).2 k m hrow hlive
        exact hlobby.seat ctx hu.held hx hmembers (.inl ⟨rfl, hfresh⟩) hfree hfits
      | @moves captain r x hseat hheld hx hmembers =>
        -- The captain sits in the lobby, so the lease is one of the lobby's.
        obtain ⟨y, hy, hcaptain⟩ := hu.held.holder captain r hheld
        have hhuman : captain ∈ humansOf m := by
          rcases Core.human_or_bot hseat with hhuman | ⟨bot, hbot, rfl⟩
          · exact hhuman
          · have hbotAccount := hlobby.bots bot hbot
            rw [hu.held.player r y hy _ hcaptain] at hbotAccount
            simp at hbotAccount
        obtain ⟨r', hr', hheld'⟩ := hlobby.held captain hhuman
        obtain rfl := Option.some.inj (hheld.symm.trans hheld')
        exact hlobby.seat ctx hu.held hx hmembers (.inr ⟨rfl, hr'⟩) hfree hfits

theorem World.Changes.lobbies (h : Changes clock ctx w t) (hinv : w.core.Inv False)
    (hw : w.core.Lobbies) : t.core.Inv False ∧ t.core.Lobbies := by
  induction h with
  | refl => exact ⟨hinv, hw⟩
  | tail _ hlast ih => exact ⟨hlast.inv ih.1, hlast.lobbies ih.1 ih.2⟩

end Changes

/-! ## Runs -/

/-- No queue row and no live match has the lease. -/
def World.Unleased (w : World) (r : ReservationId) : Prop :=
  w.entryOf r = none ∧
    ∀ k m, w.matchRows.row k = some m → m.stage.final = false → r ∉ m.state.reservations

/-- The event frees no lease of a queue row or of a live match by a native claim
or by its id. -/
def World.KeepsLobbies (w : World) : Event → Prop
  | .served ctx (.nativeClaim roomId uid) =>
    ∀ r, ClaimFrees w ctx.now uid roomId r → w.Unleased r
  | .served _ (.release r) => w.Unleased r
  | _ => True

section Runs

variable {ctx : Ctx} {request : Request} {u w t : World}

theorem World.KeepsLobbies.keepsQueue {e : Event} (h : w.KeepsLobbies e) : w.KeepsQueue e := by
  cases e with
  | served ctx request =>
    cases request with
    | nativeClaim roomId uid => exact fun r hclaim => (h r hclaim).1
    | release r => exact h.1
    | _ => trivial
  | _ => trivial

theorem unleased_congr (hcore : u.core = w.core) {r : ReservationId} (h : w.Unleased r) :
    u.Unleased r := by
  have hentry : u.entryOf r = w.entryOf r := by
    show u.core.queue.find _ = w.core.queue.find _
    rw [hcore]
  refine ⟨hentry.trans h.1, fun k m hm => h.2 k m ?_⟩
  rwa [show u.matchRows = w.matchRows from congrArg Core.matchRows hcore] at hm

/-- The condition on a request reads the core and the accounts alone. -/
theorem keepsLobbies_congr (hcore : u.core = w.core) (haccounts : u.accounts = w.accounts)
    {e : Event} (h : w.KeepsLobbies e) : u.KeepsLobbies e := by
  unfold KeepsLobbies at h ⊢
  split at h
  · next ctx roomId uid =>
    intro r hclaim
    refine unleased_congr hcore (h r ⟨?_, ?_, fun k m hk hm => ?_⟩)
    · rw [← freeToClaim_accounts haccounts]
      exact hclaim.free
    · rw [← show u.reservationOf = w.reservationOf from congrArg Core.reservationOf hcore]
      exact hclaim.held
    · refine hclaim.pointer k m ?_ ?_
      · rwa [show u.matchOf = w.matchOf from congrArg Core.matchOf hcore]
      · rwa [show u.matchRows = w.matchRows from congrArg Core.matchRows hcore]
  · exact unleased_congr hcore h
  · trivial

/-- A departure keeps the lobbies under the condition on its request. -/
theorem Departure.lobbies (h : Departure ctx request u t) (hu : u.core.Held)
    (hlobbies : u.core.Lobbies) (hkeeps : u.KeepsLobbies (.served ctx request)) :
    t.core.Lobbies := by
  have hrelease : ∀ r, u.Unleased r → (u.releaseReservation ctx.now r).core.Lobbies := fun r hr =>
    hlobbies.release (released_one ctx.now hu r) fun k m hm hlive r' hr' hmem =>
      hr.2 k m hm hlive (List.mem_singleton.mp hmem ▸ hr')
  cases h with
  | forget =>
    rw [core_setMatch]
    exact hlobbies.same rfl rfl rfl fun _ _ => id
  | @claim _ uid roomId r hfree hheld hpointer =>
    exact hrelease r (hkeeps r ⟨hfree, hheld, hpointer⟩)
  | release r => exact hrelease r hkeeps

/-- Every step under the condition keeps the lobbies. -/
theorem Step.lobbies {e : Event} (h : Step w e t) (hinv : w.core.Inv False)
    (hw : w.core.Lobbies) (hkeeps : w.KeepsLobbies e) : t.core.Lobbies := by
  cases h with
  | served ctx request =>
    rcases after_served w ctx request with h | ⟨hquiet, haccounts, hdepart, hrest⟩
    · exact (h.lobbies hinv hw).2
    · have hall := (quiet_lockSomsai ctx.now hinv.held).trans hquiet
      have hinvu := hall.core.symm ▸ hinv
      have hkeepsu := keepsLobbies_congr hall.core haccounts hkeeps
      have hinvv := hdepart.inv hinvu hkeepsu.keepsQueue False.elim
      have hlobbies := hdepart.lobbies hinvu.held (hall.lobbies hw) hkeepsu
      exact (hrest.lobbies hinvv hlobbies).2
  | changed o ho =>
    refine hw.same rfl rfl rfl fun uid b hb => ?_
    obtain ⟨user, hrow, rfl⟩ := Option.map_eq_some_iff.mp hb
    obtain ⟨user', hrow', hbot⟩ := ho.users_kept uid user hrow
    show (o.users.row uid).map (·.isBot) = _
    rw [hrow', Option.map_some, hbot]

theorem World.Initial.lobbies (h : w.Initial) : w.core.Lobbies := by
  have hmatches : ∀ k m, w.core.matchRows.row k ≠ some m := fun k m => by
    simp [World.core, h.matchRows]
  exact ⟨fun r x hx => by simp [World.core, h.reservations] at hx,
    fun k _ m _ hm => absurd hm (hmatches k m), fun k m hm => absurd hm (hmatches k m)⟩

theorem Reaches.lobbies {P : World → Event → Prop} (h : Reaches P w)
    (hP : ∀ v e, P v e → v.KeepsLobbies e) : w.core.Inv False ∧ w.core.Lobbies := by
  obtain ⟨w₀, h₀, hrun⟩ := h
  have hstep : ∀ s e t, s.core.Inv False ∧ s.core.Lobbies → P s e → Step s e t →
      t.core.Inv False ∧ t.core.Lobbies := fun s e t hs he hone =>
    ⟨hone.inv hs.1 (hP s e he).keepsQueue False.elim, hone.lobbies hs.1 hs.2 (hP s e he)⟩
  have hinv := hrun.invariant (I := fun v => v.core.Inv False ∧ v.core.Lobbies) hstep
    ⟨h₀.inv, h₀.lobbies⟩
  exact hinv

/-- What holds of a waiting custom match. -/
structure World.CustomLobby (w : World) (m : Match) : Prop where
  once : (membersOf m).Nodup
  fits : ∀ team, (m.state.teams.get team).length ≤ m.format.size
  captains : ∀ team, m.state.captains.get team = (m.state.teams.get team).head?
  bots : ∀ bot ∈ m.state.bots, bot.userId ∉ m.state.teams.red
  listed : m.state.reservations.Nodup
  live : ∀ r ∈ m.state.reservations, ∃ x, w.reservations.row r = some x ∧ x.released = false
  humans : ∀ uid, uid ∈ humansOf m ↔
    ∃ r ∈ m.state.reservations, ∃ x, w.reservations.row r = some x ∧ uid ∈ x.members
  disjoint : ∀ r ∈ m.state.reservations, ∀ s ∈ m.state.reservations, r ≠ s →
    ∀ x y, w.reservations.row r = some x → w.reservations.row s = some y →
      x.members.Disjoint y.members

/-- Every waiting custom match is a lobby, along the runs that free no lease of
one from outside. -/
theorem custom_lobby (h : Reaches World.KeepsLobbies w) {k : MatchId} {m : Match}
    (hrow : w.matchRows.row k = some m) (hranked : m.ranked = false)
    (hstage : m.stage = .waiting) : w.CustomLobby m := by
  obtain ⟨hinv, hlobbies⟩ := h.lobbies fun _ _ hkeeps => hkeeps
  have hlobby := hlobbies.lobby k m hrow ⟨hranked, hstage⟩
  have hheld := hinv.held
  refine ⟨hlobby.nodup, hlobby.fits, fun team => ?_, hlobby.red, hlobby.leases,
    fun r hr => ?_, fun uid => ⟨fun hu => ?_, fun ⟨r, hr, x, hx, hu⟩ => ?_⟩,
    fun r hr s hs hne x y hx hy uid hux huy => ?_⟩
  · rw [hlobby.captains]
    cases team <;> rfl
  · obtain ⟨x, hx, -⟩ := hlobby.lease r hr
    exact ⟨x, hx, hlobbies.live r x hx⟩
  · obtain ⟨r, hr, hres⟩ := hlobby.held uid hu
    obtain ⟨x, hx, hmem⟩ := hheld.holder uid r hres
    exact ⟨r, hr, x, hx, hmem⟩
  · obtain ⟨y, hy, hhuman⟩ := hlobby.lease r hr
    obtain rfl := Option.some.inj (hy.symm.trans hx)
    exact hhuman uid hu
  · -- A user holds one lease at most.
    have hr' := hheld.held r x hx uid hux
    have hs' := hheld.held s y hy uid huy
    exact hne (Option.some.inj (hr'.symm.trans hs'))

/-- Player 1 opens a lobby and player 2 takes a seat in it. -/
def lobbyStore : World :=
  (threePlayers.acts 1 (.customCreate {
    poolId := none, targetMmr := none, targetRank := some (.division .bronze 0), personas := []
    privateLobby := false, arbitrary := false })).acts 2 (.customJoin (some 1) .blue)

theorem custom_lobby_joined : ∃ m, lobbyStore.matchRows.row 1 = some m ∧
    m.state.teams = ⟨[1], [2]⟩ ∧ lobbyStore.CustomLobby m := by
  have hrow : (lobbyStore.matchRows.row 1).map
      (fun m => (m.ranked, m.stage, m.state.teams)) = some (false, .waiting, ⟨[1], [2]⟩) := by
    decide +kernel
  obtain ⟨m, hm, hfields⟩ := Option.map_eq_some_iff.mp hrow
  obtain ⟨hranked, hfields⟩ := Prod.mk.inj hfields
  obtain ⟨hstage, hteams⟩ := Prod.mk.inj hfields
  have hreaches : Reaches KeepsLobbies lobbyStore :=
    (reaches_threePlayers.acts 1 _ trivial).acts 2 _ trivial
  exact ⟨m, hm, hteams, custom_lobby hreaches hm hranked hstage⟩

end Runs

end Soms.Somsai

import Soms.Somsai.Served

/-!
# Rounds and scores

Every change turns the rows of the matches by steps of their boards, so the
board's invariant holds of every match in every reachable store.
-/

namespace Soms.Somsai

open Txn World

/-! ## The end of a match -/

namespace World

/-- `settle_ratings` changes ratings and records the match. -/
theorem settleRatings_frame (ctx : Ctx) (w : World) (k : MatchId) (m : Match)
    (winner : Option Team) : ∃ ratings,
      (w.settleRatings ctx k m winner).1 =
        { w with ratings := ratings, settled := w.settled ++ [k] } := by
  have hensure : ∀ (keys : List RatingKey) (v : World), ∃ ratings,
      v.ensureRatings keys = { v with ratings := ratings } := by
    intro keys
    induction keys with
    | nil => exact fun v => ⟨v.ratings, rfl⟩
    | cons key rest ih =>
      intro v
      have hone : ∃ ratings, v.ensureRating key = { v with ratings := ratings } := by
        unfold ensureRating
        split <;> exact ⟨_, rfl⟩
      obtain ⟨first, hfirst⟩ := hone
      obtain ⟨ratings, h⟩ := ih (v.ensureRating key)
      refine ⟨ratings, ?_⟩
      rw [ensureRatings, List.foldl_cons]
      rw [ensureRatings] at h
      rw [h, hfirst]
  have hseats : ∀ (expected : ℚ) (impacts : List (UserId × Int)) (seats : List (Team × UserId))
      (acc : World × List RatingChange), ∃ ratings,
      (seats.foldl (settleSeat m expected winner impacts) acc).1 =
        { acc.1 with ratings := ratings } := by
    intro expected impacts seats
    induction seats with
    | nil => exact fun acc => ⟨acc.1.ratings, rfl⟩
    | cons seat rest ih =>
      intro acc
      obtain ⟨ratings, h⟩ := ih (settleSeat m expected winner impacts acc seat)
      exact ⟨ratings, h⟩
  unfold settleRatings
  dsimp only
  obtain ⟨ratings, h⟩ := hensure ((membersOf m).map (ratingKey m)) w
  rw [h]
  obtain ⟨ratings', h'⟩ := hseats _ _ (seatsOf m.state.teams) (_, [])
  exact ⟨ratings', h'⟩

/-- The matches settled when a match ends. -/
def settledBy (k : MatchId) (m : Match) (cancelled : Bool) : List MatchId :=
  if m.ranked && !cancelled then [k] else []

/-- Ending a live match closes its row, settles its ratings, and otherwise
changes leases and activity rows alone. -/
theorem finishMatch_frame (ctx : Ctx) {k : MatchId} (winner : Option Team) (cancelled : Bool)
    (reason : String) {w : World} {m : Match} (hrow : w.matchRows.row k = some m)
    (hlive : m.stage.final = false) : ∃ changes activity reservations,
      w.finishMatch ctx k winner cancelled reason =
        { w.putMatch k ((m.closed ctx winner cancelled reason).withRatings winner changes) with
          activity := activity
          reservations := reservations
          ratings := (w.settle ctx k (m.closed ctx winner cancelled reason) winner
            cancelled).1.ratings
          settled := w.settled ++ settledBy k m cancelled } := by
  obtain ⟨ratings, hsettle⟩ : ∃ ratings,
      (w.settle ctx k (m.closed ctx winner cancelled reason) winner cancelled).1 =
        { w with ratings := ratings, settled := w.settled ++ settledBy k m cancelled } := by
    unfold settle settledBy
    have hranked : (m.closed ctx winner cancelled reason).ranked = m.ranked := rfl
    rw [hranked]
    split
    · exact settleRatings_frame ctx w k _ winner
    · exact ⟨w.ratings, by rw [List.append_nil]⟩
  unfold finishMatch
  simp only [hrow, hlive, Bool.false_eq_true, if_false]
  generalize w.settle ctx k _ winner cancelled = settled at hsettle ⊢
  obtain ⟨activity, reservations, hrelease⟩ := releaseAll_frame ctx.now m.state.reservations
    (settled.1.putMatch k ((m.closed ctx winner cancelled reason).withRatings winner settled.2))
  obtain ⟨activity', hpoint⟩ := pointAt_frame ctx k (membersOf m)
    (m.state.reservations.foldl (World.releaseReservation ctx.now) (settled.1.putMatch k
      ((m.closed ctx winner cancelled reason).withRatings winner settled.2)))
  refine ⟨settled.2, activity', reservations, ?_⟩
  rw [hpoint, hrelease, hsettle]
  rfl

/-- The row of a match that ended. -/
theorem row_finishMatch (ctx : Ctx) {k : MatchId} (winner : Option Team) (cancelled : Bool)
    (reason : String) {w : World} {m : Match} (hrow : w.matchRows.row k = some m)
    (hlive : m.stage.final = false) : ∃ changes,
      (w.finishMatch ctx k winner cancelled reason).matchRows.row k =
        some ((m.closed ctx winner cancelled reason).withRatings winner changes) := by
  obtain ⟨changes, _, _, hframe⟩ := finishMatch_frame ctx winner cancelled reason hrow hlive
  rw [hframe]
  exact ⟨changes, row_putMatch hrow _⟩

end World

/-! ## Turns of a row -/

/-- One update of a live row. -/
structure Match.Turn (m m' : Match) : Prop where
  live : m.stage.final = false
  ranked : m'.ranked = m.ranked
  seats : m.ranked = true → m'.seats = m.seats
  board : m.auto → m'.auto ∧ (m'.board = m.board ∨ Board.Step m.board m'.board)

theorem Match.Move.turn {m m' : Match} (h : m.Move m') : m.Turn m' where
  live := h.live
  ranked := congrArg Seats.ranked h.seats
  seats _ := h.seats
  board := h.board

/-- What a change does to the row of a match. -/
inductive RowChange (clock : Prop) (ctx : Ctx) (k : MatchId) : Option Match → Option Match → Prop
  | same (o : Option Match) : RowChange clock ctx k o o
  | update {m m' : Match} (w : World) (h : m.Update clock ctx w m') : RowChange clock ctx k (some m) (some m')
  | ends {m : Match} (hlive : m.stage.final = false) {winner : Option Team} {cancelled : Bool}
      {reason : String} (hending : m.Ending ctx winner cancelled reason)
      (changes : List RatingChange) :
      RowChange clock ctx k (some m)
        (some ((m.closed ctx winner cancelled reason).withRatings winner changes))
  | concludes {m : Match} (w : World) {slot : Slot} {winner : Option Team} {totals : PerTeam Nat}
      {players : List PlayerResult} {forfeit : Bool} {reason : String}
      (hslot : m.state.playedSlot = some slot)
      (hcounts : m.Counts clock ctx w slot winner totals players forfeit reason)
      {champion : Option Team} {cancelled : Bool} {why : String}
      (hconcludes : (m.record ctx slot winner totals players forfeit reason).Concludes winner
        forfeit champion cancelled why) (changes : List RatingChange) :
      RowChange clock ctx k (some m)
        (some (((m.record ctx slot winner totals players forfeit reason).closed ctx champion
          cancelled why).withRatings champion changes))
  | seat {m : Match} (hranked : m.ranked = false) (hstage : m.stage = .waiting)
      (members : List UserId) (team : Team) (lease : Option ReservationId)
      (hfree : m.state.bots ≠ [] → team = .red)
      (hfits : ((m.state.teams.get team).filter fun x => x ∉ members).length + members.length ≤
        m.format.size) : RowChange clock ctx k (some m) (some (m.seat ctx members team lease))
  | opens (setup : Setup) {pool : Pool} (rating : ℚ) (room : RoomId) (hpool : pool.WellFormed)
      (hranked : setup.ranked = true → ∀ team, (setup.teams.get team).length = setup.format.size)
      (hcustom : setup.ranked = false → Seating setup) :
      RowChange clock ctx k none (some (newMatch ctx k setup pool rating room))

section RowChange

variable {clock : Prop} {ctx : Ctx} {w t : World}

theorem Match.turn_closed {m : Match} {winner : Option Team} {cancelled : Bool} {reason : String}
    {changes : List RatingChange} (hlive : m.stage.final = false) :
    m.Turn ((m.closed ctx winner cancelled reason).withRatings winner changes) where
  live := hlive
  ranked := rfl
  seats _ := rfl
  board hauto := ⟨hauto, .inr (Match.board_closed ▸
    .finish hlive _ (final_finalStage cancelled) winner)⟩

/-- The rows of the matches when members take seats. -/
theorem Match.turn_seat {m : Match} (hranked : m.ranked = false) (hstage : m.stage = .waiting)
    (members : List UserId) (team : Team) (lease : Option ReservationId) :
    m.Turn (m.seat ctx members team lease) where
  live := by rw [hstage]; rfl
  ranked := rfl
  seats h := by simp [hranked] at h
  board hauto := ⟨hauto, .inl rfl⟩

/-- A row stays, and if it changes, it turns. -/
theorem RowChange.turn {k : MatchId} {m : Match} {o : Option Match}
    (h : RowChange clock ctx k (some m) o) : ∃ m', o = some m' ∧ (m' = m ∨ m.Turn m') := by
  cases h with
  | same => exact ⟨m, rfl, .inl rfl⟩
  | update w hupdate => exact ⟨_, rfl, .inr hupdate.move.turn⟩
  | ends hlive => exact ⟨_, rfl, .inr (Match.turn_closed hlive)⟩
  | concludes w hslot hcounts hconcludes =>
    exact ⟨_, rfl, .inr ⟨hcounts.live, rfl, fun _ => rfl, fun ha => ⟨ha, .inr
      (Match.board_closed ▸ Match.board_count hslot hcounts (hconcludes.after _))⟩⟩⟩
  | seat hranked hstage members team lease =>
    exact ⟨_, rfl, .inr (Match.turn_seat hranked hstage members team lease)⟩

theorem row_putMatch_other {k j : MatchId} (hj : j ≠ k) (w : World) (m : Match) :
    (w.putMatch k m).matchRows.row j = w.matchRows.row j := by
  simp only [putMatch, Table.row_modify, if_neg hj]

/-- A change of the row of one match leaves the rows of the others alone. -/
theorem rowChange_put {k j : MatchId} {m m' : Match} (hrow : w.matchRows.row k = some m)
    (hchange : RowChange clock ctx k (some m) (some m')) :
    RowChange clock ctx j (w.matchRows.row j) ((w.putMatch k m').matchRows.row j) := by
  by_cases hj : j = k
  · subst hj
    rw [row_putMatch hrow, hrow]
    exact hchange
  · rw [row_putMatch_other hj]
    exact .same _

theorem rowChange_open {j : MatchId} {setup : Setup} {pool : Pool} {rating : ℚ}
    (hpool : pool.WellFormed)
    (hranked : setup.ranked = true → ∀ team, (setup.teams.get team).length = setup.format.size)
    (hcustom : setup.ranked = false → Seating setup) : RowChange clock ctx j (w.matchRows.row j)
      ((w.openMatch ctx setup pool rating).matchRows.row j) := by
  rw [row_openMatch, Table.row_insert]
  split
  · next hj =>
    subst hj
    rw [Table.row_next]
    exact .opens setup rating _ hpool hranked hcustom
  · exact .same _

theorem World.Leases.rows (h : Leases w t) : t.matchRows = w.matchRows := by
  induction h with
  | refl => rfl
  | tail _ hlast ih =>
    cases hlast with
    | quiet hq => exact (congrArg Core.matchRows hq.core).trans ih
    | reserve now captain partyId _ _ =>
      obtain ⟨activity, hframe⟩ := reserve_frame now captain _ _ partyId _
      rw [hframe]
      exact ih
    | bots count name => exact ih

theorem World.Leases.queue (h : Leases w t) : t.queue = w.queue := by
  induction h with
  | refl => rfl
  | tail _ hlast ih =>
    cases hlast with
    | quiet hq => exact (congrArg Core.queue hq.core).trans ih
    | reserve now captain partyId _ _ =>
      obtain ⟨activity, hframe⟩ := reserve_frame now captain _ _ partyId _
      rw [hframe]
      exact ih
    | bots count name => exact ih

theorem Play.row {k : MatchId} (h : Play clock ctx k w t) (j : MatchId) :
    RowChange clock ctx j (w.matchRows.row j) (t.matchRows.row j) := by
  cases h with
  | quiet hq =>
    rw [hq.row]
    exact .same _
  | move hrow hupdate => exact rowChange_put hrow (.update w hupdate)
  | finish hrow hlive hending =>
    obtain ⟨changes, _, _, h⟩ := finishMatch_frame ctx _ _ _ hrow hlive
    rw [h]
    exact rowChange_put hrow (.ends hlive hending changes)
  | @round m hrow slot winner totals players forfeit reason hslot hcounts champion cancelled why
      hconcludes =>
    have hlive : (m.record ctx slot winner totals players forfeit reason).stage.final = false :=
      hcounts.live
    obtain ⟨changes, _, _, h⟩ := finishMatch_frame ctx champion cancelled why
      (row_putMatch hrow _) hlive
    rw [h, putMatch_putMatch]
    exact rowChange_put hrow (.concludes w hslot hcounts hconcludes changes)

theorem World.rows_releaseReservation (now : Time) (w : World) (r : ReservationId) :
    (w.releaseReservation now r).matchRows = w.matchRows := by
  obtain ⟨_, _, hframe⟩ := releaseReservation_frame now w r
  rw [hframe]

theorem World.rows_deleteEntries (rows : List QueueRow) (w : World) :
    (w.deleteEntries rows).matchRows = w.matchRows := by
  obtain ⟨_, hframe⟩ := deleteEntries_frame rows w
  rw [hframe]

theorem World.Change.row (h : Change clock ctx w t) (k : MatchId) :
    RowChange clock ctx k (w.matchRows.row k) (t.matchRows.row k) := by
  have hsame : t.matchRows = w.matchRows →
      RowChange clock ctx k (w.matchRows.row k) (t.matchRows.row k) := by
    intro heq
    rw [heq]
    exact .same _
  cases h with
  | play h => exact h.row k
  | expire => exact hsame (rows_releaseReservation ctx.now w _)
  | renew => exact hsame rfl
  | refresh => exact hsame rfl
  | drop => exact hsame (rows_releaseReservation ctx.now w _)
  | enqueue hl =>
    obtain ⟨_, hframe⟩ := enqueue_frame ctx.now _ _
    refine hsame (Eq.trans ?_ hl.rows)
    rw [hframe]
  | group anchor rating hrows hteams hsizes hpool =>
    rw [rows_deleteEntries]
    exact rowChange_open hpool (fun _ => hsizes) (by simp [groupSetup])
  | ungroup hrows =>
    refine hsame ((rows_deleteEntries _ _).trans ?_)
    exact foldl_leaves World.matchRows (rows_releaseReservation ctx.now) _ w
  | opened hl rating hranked hleased hseating hpool =>
    rw [← hl.rows]
    exact rowChange_open hpool (by simp [hranked]) fun _ => hseating
  | seat hl hrow hranked hstage team hseated hfree hfits =>
    obtain ⟨_, hframe⟩ := pointAt_frame ctx _ _ _
    rw [hframe, ← hl.rows]
    rw [← hl.rows] at hrow
    exact rowChange_put hrow (.seat hranked hstage _ team _ hfree hfits)

/-- The rows of a store and of a later one. -/
def RowChanges (clock : Prop) (ctx : Ctx) (k : MatchId) : Option Match → Option Match → Prop :=
  Relation.ReflTransGen (RowChange clock ctx k)

/-- An invariant of rows that each change keeps. -/
theorem RowChanges.keeps {I : Match → Prop} {k : MatchId} {o o' : Option Match}
    (h : RowChanges clock ctx k o o')
    (hnew : ∀ clock ctx k m, RowChange clock ctx k none (some m) → I m)
    (hchange : ∀ clock ctx k m m', RowChange clock ctx k (some m) (some m') → I m → I m')
    (ho : ∀ m, o = some m → I m) : ∀ m, o' = some m → I m := by
  induction h with
  | refl => exact ho
  | @tail o₁ o₂ _ hlast ih =>
    rintro m rfl
    cases o₁ with
    | none => exact hnew clock ctx k m hlast
    | some m₁ => exact hchange clock ctx k m₁ m hlast (ih m₁ rfl)

theorem World.Changes.row (h : Changes clock ctx w t) (k : MatchId) :
    RowChanges clock ctx k (w.matchRows.row k) (t.matchRows.row k) :=
  Relation.ReflTransGen.lift (fun v : World => v.matchRows.row k)
    (fun _ _ hone => World.Change.row hone k) _ _ h

theorem Departure.rows {request : Request} (h : Departure ctx request w t) :
    t.matchRows = w.matchRows := by
  cases h with
  | forget => rfl
  | claim | release => exact rows_releaseReservation ctx.now w _

theorem World.rows_lockSomsai (now : Time) (w : World) :
    (w.lockSomsai now).matchRows = w.matchRows := by
  have hparties := quiet_of_view (quietView_expireStaleParties now w)
  have hrelease : ∀ (v : World) (x : Nat × Reservation),
      (if x.2.kind.isRanked then v.releaseReservation now x.1 else v).matchRows = v.matchRows := by
    intro v x
    split
    · exact rows_releaseReservation now v x.1
    · rfl
  refine Eq.trans ?_ (congrArg Core.matchRows hparties.core)
  exact foldl_leaves World.matchRows hrelease _ _

theorem Served.row {request : Request} (h : Served ctx request w t) (k : MatchId) :
    RowChanges (request = .tick) ctx k (w.matchRows.row k) (t.matchRows.row k) := by
  cases h with
  | changes h => exact World.Changes.row h k
  | @departs u v hquiet _ hdepart hrest =>
    have hrow : w.matchRows.row k = v.matchRows.row k := by
      rw [hdepart.rows, hquiet.row, rows_lockSomsai]
    rw [hrow]
    exact World.Changes.row hrest k

/-- Whether the event is a scheduled `tick`. -/
def Event.ticks : Event → Prop
  | .served _ request => request = .tick
  | .changed _ => False

/-- One event changes the row of a match by turns, or opens the match. -/
theorem Step.row {w' : World} {e : Event} (h : Step w e w') (k : MatchId) :
    ∃ ctx, RowChanges e.ticks ctx k (w.matchRows.row k) (w'.matchRows.row k) := by
  cases h with
  | served ctx request => exact ⟨ctx, (after_served w ctx request).row k⟩
  | changed o h => exact ⟨Ctx.steady 0, .refl⟩

/-- A final match is never changed again. -/
theorem Step.row_final {e : Event} (h : Step w e t) {k : MatchId} {m : Match}
    (hrow : w.matchRows.row k = some m) (hfinal : m.stage.final = true) :
    t.matchRows.row k = some m := by
  obtain ⟨ctx, hrows⟩ := h.row k
  rw [hrow] at hrows
  generalize t.matchRows.row k = o at hrows
  induction hrows with
  | refl => rfl
  | tail _ hlast ih =>
    subst ih
    obtain ⟨m', rfl, rfl | hturn⟩ := hlast.turn
    · rfl
    · rw [hturn.live] at hfinal
      simp at hfinal

/-- What new matches satisfy and changes of a row keep holds of every match of a run. -/
theorem Reaches.rows {P : World → Event → Prop} (I : Match → Prop) (h : Reaches P w)
    (hnew : ∀ clock ctx k m, RowChange clock ctx k none (some m) → I m)
    (hchange : ∀ clock ctx k m m', RowChange clock ctx k (some m) (some m') → I m → I m') {k : MatchId}
    {m : Match} (hrow : w.matchRows.row k = some m) : I m := by
  obtain ⟨w₀, h₀, hrun⟩ := h
  have hstart : ∀ k m, w₀.matchRows.row k = some m → I m := by simp [h₀.matchRows]
  have hstep : ∀ v e v', (∀ k m, v.matchRows.row k = some m → I m) → P v e → Step v e v' →
      ∀ k m, v'.matchRows.row k = some m → I m := by
    intro v e v' hv _ hone k m hm
    obtain ⟨ctx, hrows⟩ := hone.row k
    exact hrows.keeps hnew hchange (hv k) m hm
  exact (hrun.invariant hstep hstart) k m hrow

/-- What new matches satisfy and turns keep holds of every match of a run. -/
theorem Reaches.row {P : World → Event → Prop} (I : Match → Prop) (h : Reaches P w)
    (hnew : ∀ ctx k setup pool rating room, pool.WellFormed →
      I (newMatch ctx k setup pool rating room))
    (hturn : ∀ m m', m.Turn m' → I m → I m') {k : MatchId} {m : Match}
    (hrow : w.matchRows.row k = some m) : I m := by
  refine h.rows I (fun _ ctx k m hopen => ?_) (fun _ ctx k m m' hchange hm => ?_) hrow
  · cases hopen with
    | opens setup rating room hpool => exact hnew ctx k setup _ rating room hpool
  · obtain ⟨_, ⟨⟩, rfl | hone⟩ := hchange.turn
    · exact hm
    · exact hturn _ _ hone hm

end RowChange

/-! ## The board of every match -/

/-- A new match has no rounds and a tiebreaker that was not drafted. -/
theorem newMatch_board {ctx : Ctx} {k : MatchId} {setup : Setup} {pool : Pool} {rating : ℚ}
    {room : RoomId} (hpool : pool.WellFormed) :
    (newMatch ctx k setup pool rating room).auto ∧
      (newMatch ctx k setup pool rating room).board.Inv := by
  have hodd := hpool.bestOf_odd
  have hfresh : (newMatch ctx k setup pool rating room).board.fresh := by
    obtain ⟨slot, hmem, hid⟩ := List.mem_map.mp hpool.tiebreaker
    show ((initialSlots pool.slots).find? fun s => s.id = TB).map (·.status) = _
    have hfind : ((initialSlots pool.slots).find? fun s => s.id = TB).isSome = true := by
      rw [List.find?_isSome]
      exact ⟨_, List.mem_map_of_mem hmem, by simp [hid, TB]⟩
    obtain ⟨found, hfound⟩ := Option.isSome_iff_exists.mp hfind
    obtain ⟨slot', -, rfl⟩ := List.mem_map.mp (List.mem_of_find?_eq_some hfound)
    have htie := List.find?_some hfound
    have hid' : slot'.id = "TB" := of_decide_eq_true htie
    rw [hfound]
    simp [hid']
  refine ⟨⟨rfl, rfl⟩, ?_⟩
  exact {
    odd := hodd
    noVote := by simp [Match.board, newMatch]
    wins := by intro team; cases team <;> rfl
    below := fun _ => by
      show max 0 0 < (pool.bestOf + 1) / 2
      omega
    increasing := List.Pairwise.nil
    counted := by simp [Match.board, newMatch, newState]
    uncounted := by simp [Match.board, newMatch, newState]
    tiebreaker := .inl hfresh
    even := by simp [Match.board, newMatch, Board.inRound]
    used := fun hused => absurd hfresh hused
    decided := fun hdecided => by
      have htarget : (pool.bestOf + 1) / 2 ≤ max 0 0 := hdecided
      omega }

/-- The board invariant holds of every match in every reachable store. -/
theorem Reaches.board {P : World → Event → Prop} {w : World} (h : Reaches P w) {k : MatchId}
    {m : Match} (hrow : w.matchRows.row k = some m) : m.board.Inv := by
  have hboth : m.auto ∧ m.board.Inv := by
    refine h.row (fun m => m.auto ∧ m.board.Inv)
      (fun ctx k setup pool rating room hpool => newMatch_board hpool)
      (fun m m' hturn hm => ?_) hrow
    obtain ⟨hauto, hstep⟩ := hturn.board hm.1
    refine ⟨hauto, ?_⟩
    rcases hstep with heq | hstep
    · rw [heq]
      exact hm.2
    · exact hstep.inv hm.2
  exact hboth.2

/-! ## Messages for another round -/

/-- What only a counted round or a draft action may change. -/
def Match.progress (m : Match) :
    Stage × PerTeam Nat × List HistoryEntry × List Slot × Option String × Nat :=
  (m.stage, m.state.wins, m.state.history, m.state.slots, m.state.currentSlot,
    m.state.playlistItemId)

section Messages

variable {clock : Prop} {ctx : Ctx} {w t : World} {k j : MatchId} {m : Match} {e : RoomEvent}

/-- A play of one match leaves the rows of the others alone. -/
theorem Plays.row_other (h : Plays clock ctx j w t) (hk : k ≠ j) :
    t.matchRows.row k = w.matchRows.row k := by
  induction h with
  | refl => rfl
  | tail _ hlast ih =>
    refine Eq.trans ?_ ih
    cases hlast with
    | quiet hq => exact hq.row
    | move => exact row_putMatch_other hk _ _
    | finish hrow hlive hending =>
      obtain ⟨_, _, _, hframe⟩ := finishMatch_frame ctx _ _ _ hrow hlive
      rw [hframe]
      exact row_putMatch_other hk _ _
    | @round m hrow slot winner totals players forfeit reason hslot hcounts champion cancelled why
        hconcludes =>
      have hlive : (m.record ctx slot winner totals players forfeit reason).stage.final = false :=
        hcounts.live
      obtain ⟨_, _, _, hframe⟩ := finishMatch_frame ctx champion cancelled why
        (row_putMatch hrow _) hlive
      rw [hframe]
      exact (row_putMatch_other hk _ _).trans (row_putMatch_other hk _ _)

theorem matchEvent_late {u : Unit} (hrow : w.matchRows.row k = some m)
    (hlate : e.playlistItemId ≠ m.state.playlistItemId)
    (h : matchEvent ctx k e w = (.ok u, t)) :
    ∃ m', t.matchRows.row k = some m' ∧ m'.progress = m.progress := by
  obtain ⟨m', _, hget, h⟩ := bind_ok.mp h
  obtain ⟨hrow', rfl⟩ := getMatch_ok hget
  obtain rfl := Option.some.inj (hrow.symm.trans hrow')
  split at h
  · obtain ⟨-, rfl⟩ := pure_ok.mp h
    exact ⟨m, hrow, rfl⟩
  · rw [if_neg fun habort => hlate habort.2.2] at h
    unfold roundEvent at h
    simp only [hlate, decide_false, Bool.false_eq_true, and_false, if_false] at h
    obtain rfl := write_ok.mp h
    exact ⟨_, row_putMatch hrow _, rfl⟩

/-- An event for another room or another round leaves the progress of a match alone. -/
theorem roomEvent_late {roomId : RoomId} {u : Unit} (hrow : w.matchRows.row k = some m)
    (hlate : m.roomId ≠ roomId ∨ e.playlistItemId ≠ m.state.playlistItemId)
    (h : roomEvent ctx roomId e w = (.ok u, t)) :
    ∃ m', t.matchRows.row k = some m' ∧ m'.progress = m.progress := by
  obtain ⟨found, _, hread, h⟩ := bind_ok.mp h
  obtain ⟨hfound, rfl⟩ := read_ok.mp hread
  rcases onSome_ok.mp h with ⟨x, rfl, h⟩ | ⟨-, rfl⟩
  · obtain ⟨_, v, hevent, hpayload⟩ := bind_ok.mp h
    have hquiet : Quiet v t := (inferInstance : Follows Quiet _).ok hpayload
    rw [hquiet.row]
    obtain ⟨hx, hroom⟩ := Table.find_some hfound
    by_cases hk : k = x.1
    · subst hk
      obtain rfl := Option.some.inj (hrow.symm.trans hx)
      exact matchEvent_late hrow (hlate.resolve_left (not_not.mpr (of_decide_eq_true hroom))) hevent
    · have hplays := (inferInstance : Follows (Plays True ctx x.1) (matchEvent ctx x.1 e)).ok hevent
      exact ⟨m, (hplays.row_other hk).trans hrow, rfl⟩
  · exact ⟨m, hrow, rfl⟩

theorem after_roomEvent_late {roomId : RoomId} (hrow : w.matchRows.row k = some m)
    (hlate : m.roomId ≠ roomId ∨ e.playlistItemId ≠ m.state.playlistItemId) :
    ∃ m', (w.after ctx (.roomEvent roomId e)).matchRows.row k = some m' ∧
      m'.progress = m.progress := by
  rcases after_cases w ctx (.roomEvent roomId e) with ⟨u, h⟩ | hsame
  · refine roomEvent_late ?_ hlate h
    rw [rows_lockSomsai]
    exact hrow
  · rw [hsame]
    exact ⟨m, hrow, rfl⟩

end Messages

/-- In every reachable store the rounds of a match have distinct, increasing item
ids up to the current one, and an event that names another item, or another
room, changes neither stage, score, history nor draft of the match. -/
theorem rounds_counted_once {P : World → Event → Prop} {w : World} (h : Reaches P w)
    {k : MatchId} {m : Match} (hrow : w.matchRows.row k = some m) :
    (m.state.history.map (·.playlistItemId)).Nodup ∧
    (m.state.history.map (·.playlistItemId)).Pairwise (· < ·) ∧
    (∀ entry ∈ m.state.history, entry.playlistItemId ≤ m.state.playlistItemId) ∧
    ∀ ctx roomId (e : RoomEvent),
      m.roomId ≠ roomId ∨ e.playlistItemId ≠ m.state.playlistItemId →
      ∃ m', (w.after ctx (.roomEvent roomId e)).matchRows.row k = some m' ∧
        m'.stage = m.stage ∧ m'.state.wins = m.state.wins ∧ m'.state.history = m.state.history ∧
        m'.state.slots = m.state.slots ∧ m'.state.currentSlot = m.state.currentSlot ∧
        m'.state.playlistItemId = m.state.playlistItemId := by
  have hboard := h.board hrow
  have hids : m.board.rounds.map Prod.fst = m.state.history.map (·.playlistItemId) := by
    simp [Match.board, Function.comp_def]
  have hincreasing := hboard.increasing
  have hcounted := hboard.counted
  rw [hids] at hincreasing hcounted
  refine ⟨hincreasing.imp fun hlt => Nat.ne_of_lt hlt, hincreasing,
    fun entry hentry => hcounted _ (List.mem_map_of_mem hentry), fun ctx roomId e hlate => ?_⟩
  obtain ⟨m', hrow', hprogress⟩ := after_roomEvent_late hrow hlate
  simp only [Match.progress, Prod.mk.injEq] at hprogress
  exact ⟨m', hrow', hprogress⟩

/-- A duel in which each captain banned a slot, one was picked and its round was
aborted by the game server. -/
def abortedStore : World :=
  let act := fun (w : World) uid action => w.after (.steady 0) (.action uid ⟨.one, 0, 0⟩ action)
  let play := fun (w : World) uid kind slotId =>
    act w uid (.play (some 1) kind (some slotId) none none)
  let duel := act (act (World.fresh (players 2) (.sample (.division .bronze 0) 550)) 1
    (.directInvite (some 2) (some .duel) none)) 2 (.directAnswer (some 1) true)
  let picked := play (play (play duel 1 .ban "NM1") 2 .ban "NM2") 1 .pick "NM3"
  picked.after (.steady 0) (.roomEvent 1
    { event := .aborted, playlistItemId := 1, connected := [], ready := [], available := none })

theorem reaches_abortedStore : Reaches anyEvent abortedStore :=
  ((((((Reaches.initial (World.initial_fresh _ _)).after _ _ trivial).after _ _ trivial).after
    _ _ trivial).after _ _ trivial).after _ _ trivial).after _ _ trivial

theorem rounds_counted_once_aborted : ∃ m, abortedStore.matchRows.row 1 = some m ∧
    m.state.history.map (·.playlistItemId) = [1] ∧ ∀ entry ∈ m.state.history,
      entry.playlistItemId ≤ m.state.playlistItemId := by
  have hrow : (abortedStore.matchRows.row 1).map
      (fun m => m.state.history.map (·.playlistItemId)) = some [1] := by
    decide +kernel
  obtain ⟨m, hm, hids⟩ := Option.map_eq_some_iff.mp hrow
  exact ⟨m, hm, hids, (rounds_counted_once reaches_abortedStore hm).2.2.1⟩

/-! ## The score -/

/-- The tiebreaker of a live series is not open to the draft. -/
theorem draftAction_tiebreaker {ctx : Ctx} {k : MatchId} {w : World} {m : Match}
    (hrow : w.matchRows.row k = some m) (hboard : m.board.Inv) (o : Option UserId)
    (kind : DraftKind) : ∃ failure, (draftAction ctx k o kind TB w).1 = .error failure := by
  rcases hrun : draftAction ctx k o kind TB w with ⟨result, t⟩
  cases result with
  | error failure => exact ⟨failure, rfl⟩
  | ok u =>
    obtain ⟨m', _, hget, h⟩ := bind_ok.mp hrun
    obtain ⟨hrow', rfl⟩ := getMatch_ok hget
    obtain rfl := Option.some.inj (hrow.symm.trans hrow')
    obtain ⟨_, _, hcaptain, h⟩ := bind_ok.mp h
    obtain ⟨-, rfl⟩ := refuse_ok.mp hcaptain
    obtain ⟨_, _, hphase, h⟩ := bind_ok.mp h
    obtain ⟨-, rfl⟩ := refuse_ok.mp hphase
    obtain ⟨slot, _, hreq, h⟩ := bind_ok.mp h
    obtain ⟨hslot, rfl⟩ := require_ok.mp hreq
    obtain ⟨_, _, hfree, h⟩ := bind_ok.mp h
    obtain ⟨hstatus, rfl⟩ := refuse_ok.mp hfree
    have hopen : m.board.slots TB = some .available := by
      show (m.state.findSlot TB).map (·.status) = _
      rw [hslot]
      exact congrArg some (not_not.mp hstatus)
    rcases hboard.tiebreaker with htie | htie | htie
    · rw [Board.fresh, hopen] at htie
      simp at htie
    · simp [hopen] at htie
    · simp [hopen] at htie

/-- In every reachable store the wins of a match are those of its history; nobody
has won a live match; the tiebreaker is kept out of the draft and comes up at an
even score alone; and a match that the rounds decided ended with its winner. -/
theorem score_invariant {P : World → Event → Prop} {w : World} (h : Reaches P w) {k : MatchId}
    {m : Match} (hrow : w.matchRows.row k = some m) :
    m.state.bestOf % 2 = 1 ∧
    (∀ team, m.state.wins.get team =
      (m.state.history.filter fun entry => entry.winnerTeamId = some team).length) ∧
    (m.stage.final = false → m.state.maxWins < m.state.target) ∧
    (∃ slot, m.state.findSlot TB = some slot ∧
      (slot.status = .tiebreaker ∨ slot.status = .picked ∨ slot.status = .played) ∧
      (slot.status ≠ .tiebreaker → ∀ team, m.state.bestOf / 2 ≤ m.state.wins.get team)) ∧
    (∀ ctx o kind, ∃ failure, (draftAction ctx k o kind TB w).1 = .error failure) ∧
    (m.stage.inRound = true → m.state.currentSlot = some TB →
      ∀ team, m.state.wins.get team = m.state.bestOf / 2) ∧
    (m.state.target ≤ m.state.maxWins → m.stage = .ended ∧ ∃ team,
      m.state.winnerTeamId = some team ∧ m.state.wins.get team = m.state.target ∧
      m.state.wins.get team.other < m.state.target) := by
  have hboard := h.board hrow
  refine ⟨hboard.odd, fun team => ?_, hboard.below, ?_,
    fun ctx o kind => draftAction_tiebreaker hrow hboard o kind,
    fun hround => hboard.even (Match.board_inRound hround), hboard.decided⟩
  · refine (hboard.wins team).trans ?_
    simp only [Match.board, Board.roundsWon, List.filter_map, List.length_map]
    rfl
  · have hstatus : ∃ status, m.board.slots TB = some status ∧
        (status = .tiebreaker ∨ status = .picked ∨ status = .played) := by
      rcases hboard.tiebreaker with htie | htie | htie
      · exact ⟨_, htie, .inl rfl⟩
      · exact ⟨_, htie, .inr (.inl rfl)⟩
      · exact ⟨_, htie, .inr (.inr rfl)⟩
    obtain ⟨status, hslots, hcases⟩ := hstatus
    obtain ⟨slot, hslot, rfl⟩ := Option.map_eq_some_iff.mp hslots
    refine ⟨slot, hslot, hcases, fun hused team => ?_⟩
    have hdrafted : ¬ m.board.fresh := fun hfresh => hused (by
      rw [Board.fresh, hslots] at hfresh
      exact Option.some.inj hfresh)
    exact Nat.le_trans (hboard.used hdrafted) (Board.Inv.wins_le m.board team).1

theorem score_invariant_aborted : ∃ m, abortedStore.matchRows.row 1 = some m ∧
    m.state.history.length = 1 ∧ m.state.maxWins < m.state.target := by
  have hrow : (abortedStore.matchRows.row 1).map
      (fun m => (m.state.history.length, m.stage.final)) = some (1, false) := by
    decide +kernel
  obtain ⟨m, hm, hlive⟩ := Option.map_eq_some_iff.mp hrow
  obtain ⟨hlength, hlive⟩ := Prod.mk.inj hlive
  exact ⟨m, hm, hlength, (score_invariant reaches_abortedStore hm).2.2.1 hlive⟩

end Soms.Somsai

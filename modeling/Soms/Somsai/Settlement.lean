import Soms.Somsai.Links

/-!
# Settlement of ratings

`settle_ratings` is applied once to every ended ranked match and never again, so
that the games of a rating row are the ended ranked matches of its player.  The
second part counts a roster without repeated players, which the queue keeps
under its condition.
-/

namespace Soms.Somsai

open Txn World

/-! ## What is counted -/

/-- The match has its ratings settled. -/
def Match.settles (m : Match) : Bool := m.ranked && decide (m.stage = .ended)

/-- The match counts for the rating row. -/
def Match.rates (key : RatingKey) (m : Match) : Bool :=
  m.settles && decide (key.userId ∈ membersOf m ∧ ratingKey m key.userId = key)

/-- `games` is the sum of the three results. -/
def Rating.Balanced (row : Rating) : Prop := row.games = row.wins + row.losses + row.draws

namespace World

/-- The games of a rating row, none if there is no row. -/
def gamesOf (w : World) (key : RatingKey) : Nat := ((w.ratings key).map (·.games)).getD 0

/-- The tables that settlement reads and writes. -/
def books (w : World) : (RatingKey → Option Rating) × List MatchId × Table Match :=
  (w.ratings, w.settled, w.matchRows)

/-- Settlements and games are those of the ended ranked matches. -/
structure Settled (w : World) : Prop where
  once : ∀ k, w.settled.count k = if (w.matchRows.row k).any Match.settles then 1 else 0
  games : ∀ key, w.gamesOf key = w.matchRows.count (Match.rates key)
  balanced : ∀ key row, w.ratings key = some row → row.Balanced

end World

/-! ## One settlement -/

section Settlement

variable {clock : Prop} {ctx : Ctx} {w t : World} {k : MatchId} {m : Match}

theorem ratedRow_games (poolRank : Rank) (expectation : ℚ) (team : Team) (winner : Option Team)
    (row : Rating) : (ratedRow poolRank expectation team winner row).1.games = row.games + 1 ∧
      (row.Balanced → (ratedRow poolRank expectation team winner row).1.Balanced) := by
  refine ⟨rfl, fun hrow => ?_⟩
  have hresult : (if winner = some team then 1 else 0) + (if winner = some team.other then 1 else 0) +
      (if winner = none then 1 else 0) = 1 := by
    rcases winner with _ | winner
    · simp
    · cases team <;> cases winner <;> rfl
  simp only [ratedRow, Rating.Balanced] at hrow ⊢
  omega

theorem gamesOf_ratingRow (w : World) (key : RatingKey) : (w.ratingRow key).games = w.gamesOf key := by
  unfold ratingRow gamesOf
  cases w.ratings key <;> rfl

theorem balanced_ratingRow (hw : ∀ key row, w.ratings key = some row → row.Balanced)
    (key : RatingKey) : (w.ratingRow key).Balanced := by
  unfold ratingRow
  cases hrow : w.ratings key with
  | none => rfl
  | some row => exact hw key row hrow

/-- A seat adds one game to its own row and none to the others. -/
theorem settleSeat_books {expected : ℚ} {winner : Option Team} {impacts : List (UserId × Int)}
    (acc : World × List RatingChange) (seat : Team × UserId) (key : RatingKey) :
    (settleSeat m expected winner impacts acc seat).1.gamesOf key =
        acc.1.gamesOf key + (if ratingKey m seat.2 = key then 1 else 0) ∧
      ((∀ key row, acc.1.ratings key = some row → row.Balanced) → ∀ key row,
        (settleSeat m expected winner impacts acc seat).1.ratings key = some row →
          row.Balanced) := by
  obtain ⟨expectation, hseat⟩ : ∃ expectation,
      (settleSeat m expected winner impacts acc seat).1.ratings =
        Function.update acc.1.ratings (ratingKey m seat.2) (some (ratedRow m.state.poolRank
          expectation seat.1 winner (acc.1.ratingRow (ratingKey m seat.2))).1) := ⟨_, rfl⟩
  obtain ⟨hgames, hbalanced⟩ := ratedRow_games m.state.poolRank expectation seat.1 winner
    (acc.1.ratingRow (ratingKey m seat.2))
  generalize ratedRow m.state.poolRank expectation seat.1 winner
    (acc.1.ratingRow (ratingKey m seat.2)) = rated at hgames hbalanced hseat
  constructor
  · unfold gamesOf
    rw [hseat]
    by_cases hkey : ratingKey m seat.2 = key
    · subst hkey
      rw [Function.update_self, if_pos rfl, Option.map_some, Option.getD_some, hgames,
        gamesOf_ratingRow]
      rfl
    · have hne : ¬ key = ratingKey m seat.2 := fun h => hkey h.symm
      rw [Function.update_of_ne hne, if_neg hkey]
      rfl
  · intro hacc key row hrow
    rw [hseat] at hrow
    by_cases hkey : key = ratingKey m seat.2
    · subst hkey
      rw [Function.update_self] at hrow
      obtain rfl := Option.some.inj hrow
      exact hbalanced (balanced_ratingRow hacc _)
    · rw [Function.update_of_ne hkey] at hrow
      exact hacc key row hrow

theorem settleSeats_books {expected : ℚ} {winner : Option Team} {impacts : List (UserId × Int)}
    (seats : List (Team × UserId)) (acc : World × List RatingChange) (key : RatingKey) :
    (seats.foldl (settleSeat m expected winner impacts) acc).1.gamesOf key =
        acc.1.gamesOf key + (seats.map fun seat => ratingKey m seat.2).count key ∧
      ((∀ key row, acc.1.ratings key = some row → row.Balanced) → ∀ key row,
        (seats.foldl (settleSeat m expected winner impacts) acc).1.ratings key = some row →
          row.Balanced) := by
  induction seats generalizing acc with
  | nil => exact ⟨rfl, id⟩
  | cons seat rest ih =>
    obtain ⟨hgames, hbalanced⟩ := settleSeat_books acc seat key
    obtain ⟨hrest, hrestBalanced⟩ := ih (settleSeat m expected winner impacts acc seat)
    refine ⟨?_, fun hacc => hrestBalanced (hbalanced hacc)⟩
    rw [List.foldl_cons, hrest, hgames, List.map_cons, List.count_cons]
    simp only [beq_iff_eq]
    omega

/-- `ensure_rating` adds rows without games. -/
theorem quiet_books (h : Quiet w t) (key : RatingKey) : t.gamesOf key = w.gamesOf key ∧
    ((∀ key row, w.ratings key = some row → row.Balanced) → ∀ key row,
      t.ratings key = some row → row.Balanced) := by
  constructor
  · rcases h.ratings key with hkey | ⟨hnone, rating, hnew⟩
    · simp [gamesOf, hkey]
    · simp [gamesOf, hnone, hnew]
  · intro hw key row hrow
    rcases h.ratings key with hkey | ⟨-, rating, hnew⟩
    · exact hw key row (hkey ▸ hrow)
    · obtain rfl := Option.some.inj (hnew.symm.trans hrow)
      rfl

/-- The seats of a roster without repeated players count each member once. -/
theorem count_seats (hnodup : (membersOf m).Nodup) (key : RatingKey) :
    ((seatsOf m.state.teams).map fun seat => ratingKey m seat.2).count key =
      if key.userId ∈ membersOf m ∧ ratingKey m key.userId = key then 1 else 0 := by
  have hseats : ((seatsOf m.state.teams).map fun seat => ratingKey m seat.2) =
      (membersOf m).map (ratingKey m) := by
    simp [seatsOf, membersOf, Function.comp_def]
  have hinjective : ∀ a b, ratingKey m a = ratingKey m b → a = b :=
    fun a b h => congrArg RatingKey.userId h
  have hmem : key ∈ (membersOf m).map (ratingKey m) ↔
      key.userId ∈ membersOf m ∧ ratingKey m key.userId = key := by
    constructor
    · intro h
      obtain ⟨uid, huid, rfl⟩ := List.mem_map.mp h
      exact ⟨huid, rfl⟩
    · rintro ⟨huid, hkey⟩
      exact List.mem_map.mpr ⟨key.userId, huid, hkey⟩
  rw [hseats, List.Nodup.count (hnodup.map hinjective)]
  simp only [hmem]

/-- What the end of a ranked match does to the rating rows. -/
theorem settle_books (ctx : Ctx) (w : World) (k : MatchId) (m : Match) (winner : Option Team)
    (cancelled : Bool) (hnodup : m.ranked = true → (membersOf m).Nodup) (key : RatingKey) :
    (w.settle ctx k m winner cancelled).1.gamesOf key = w.gamesOf key +
        (if (m.ranked && !cancelled) = true ∧
          key.userId ∈ membersOf m ∧ ratingKey m key.userId = key then 1 else 0) ∧
      ((∀ key row, w.ratings key = some row → row.Balanced) → ∀ key row,
        (w.settle ctx k m winner cancelled).1.ratings key = some row → row.Balanced) := by
  unfold settle
  by_cases hranked : (m.ranked && !cancelled) = true
  · have hensure := quiet_books (quiet_ensureRatings w ((membersOf m).map (ratingKey m))) key
    rw [if_pos hranked]
    simp only [settleRatings]
    generalize w.ensureRatings ((membersOf m).map (ratingKey m)) = v at hensure ⊢
    obtain ⟨hgames, hbalanced⟩ := settleSeats_books (seatsOf m.state.teams)
      ({ v with settled := v.settled ++ [k] }, []) key
    refine ⟨?_, fun hw => hbalanced (hensure.2 hw)⟩
    rw [hgames, count_seats (hnodup (by simp_all))]
    simp only [hranked, true_and]
    rw [← hensure.1]
    rfl
  · rw [if_neg hranked]
    simp [hranked]

end Settlement

/-! ## The changes -/

namespace World

variable {clock : Prop} {ctx : Ctx} {w t : World} {k : MatchId} {m : Match}

theorem Settled.books (h : w.Settled) (hbooks : t.books = w.books) : t.Settled := by
  simp only [World.books, Prod.mk.injEq] at hbooks
  obtain ⟨hratings, hsettled, hrows⟩ := hbooks
  refine ⟨?_, ?_, ?_⟩
  · rw [hsettled, hrows]
    exact h.once
  · simp only [gamesOf, hratings, hrows]
    exact h.games
  · rw [hratings]
    exact h.balanced

theorem Settled.quiet (h : w.Settled) (hq : Quiet w t) : t.Settled := by
  have hrows : t.matchRows = w.matchRows := congrArg Core.matchRows hq.core
  have hsettled : t.settled = w.settled := congrArg Core.settled hq.core
  refine ⟨?_, fun key => ?_, ?_⟩
  · rw [hsettled, hrows]
    exact h.once
  · rw [(quiet_books hq key).1, hrows]
    exact h.games key
  · exact (quiet_books hq ⟨0, 0, 0, .one⟩).2 h.balanced

theorem settles_live (hlive : m.stage.final = false) : m.settles = false := by
  have hended : m.stage ≠ .ended := by
    intro h
    rw [h] at hlive
    simp [Stage.final] at hlive
  simp [Match.settles, hended]

theorem rates_live (hlive : m.stage.final = false) (key : RatingKey) : m.rates key = false := by
  simp [Match.rates, settles_live hlive]

/-- The row of a live match changes and stays live. -/
theorem Settled.put {m' : Match} (h : w.Settled) (hrow : w.matchRows.row k = some m)
    (hlive : m.stage.final = false) (hlive' : m'.stage.final = false) : (w.putMatch k m').Settled where
  once j := by
    show w.settled.count j = if ((w.matchRows.modify k fun _ => m').row j).any _ then 1 else 0
    rw [h.once, Table.row_modify]
    by_cases hj : j = k
    · subst hj
      simp [hrow, settles_live hlive, settles_live hlive']
    · rw [if_neg hj]
  games key := by
    have hcount := w.matchRows.count_modify (fun _ => m') (Match.rates key) hrow
    simp only [rates_live hlive, rates_live hlive'] at hcount
    exact (h.games key).trans hcount.symm
  balanced := h.balanced

/-- The end of a live match settles its ratings once. -/
theorem Settled.finish {winner : Option Team} {cancelled : Bool} {reason : String} (h : w.Settled)
    (hrow : w.matchRows.row k = some m) (hlive : m.stage.final = false)
    (hnodup : m.ranked = true → (membersOf m).Nodup) :
    (w.finishMatch ctx k winner cancelled reason).Settled := by
  have hclosed : ∀ changes, ((m.closed ctx winner cancelled reason).withRatings winner
      changes).settles = (m.ranked && !cancelled) := by
    intro changes
    cases cancelled <;> simp [Match.settles, Match.withRatings, Match.closed, Match.touch]
  obtain ⟨changes, _, _, hframe⟩ := finishMatch_frame ctx winner cancelled reason hrow hlive
  have hbooks := settle_books ctx w k (m.closed ctx winner cancelled reason) winner cancelled hnodup
  generalize (w.settle ctx k (m.closed ctx winner cancelled reason) winner cancelled).1 = v
    at hframe hbooks
  rw [hframe]
  refine ⟨fun j => ?_, fun key => ?_, (hbooks ⟨0, 0, 0, .one⟩).2 h.balanced⟩
  · show (w.settled ++ settledBy k m cancelled).count j = if ((w.matchRows.modify k fun _ =>
      (m.closed ctx winner cancelled reason).withRatings winner changes).row j).any _ then 1 else 0
    rw [List.count_append, h.once, Table.row_modify]
    by_cases hj : j = k
    · subst hj
      simp only [hrow, Option.any_some, settles_live hlive, if_true, Option.map_some, hclosed,
        settledBy, Bool.false_eq_true, if_false, Nat.zero_add]
      by_cases hsettles : (m.ranked && !cancelled) = true
      · rw [if_pos hsettles, if_pos hsettles, List.count_singleton_self]
      · rw [if_neg hsettles, if_neg hsettles, List.count_nil]
    · have hne : ¬ k = j := fun heq => hj heq.symm
      have hzero : (settledBy k m cancelled).count j = 0 := by
        unfold settledBy
        split <;> simp [hne]
      rw [if_neg hj, hzero, Nat.add_zero]
  · have hcount := w.matchRows.count_modify (fun _ => (m.closed ctx winner cancelled
      reason).withRatings winner changes) (Match.rates key) hrow
    have hrates : ((m.closed ctx winner cancelled reason).withRatings winner changes).rates key =
        decide ((m.ranked && !cancelled) = true ∧
          key.userId ∈ membersOf m ∧ ratingKey m key.userId = key) := by
      simp only [Match.rates, hclosed, Bool.decide_and, Bool.decide_eq_true]
      rfl
    rw [rates_live hlive key, hrates] at hcount
    simp only [Bool.false_eq_true, if_false, Nat.add_zero, decide_eq_true_eq] at hcount
    refine ((hbooks key).1.trans ?_).trans hcount.symm
    rw [h.games key]
    rfl

theorem Settled.open {setup : Setup} {pool : Pool} {rating : ℚ} (h : w.Settled) :
    (w.openMatch ctx setup pool rating).Settled := by
  obtain ⟨_, hpoint⟩ := pointAt_frame ctx w.matchRows.next setup.members
    (w.addMatch ctx setup pool rating)
  have hnew : (newMatch ctx w.matchRows.next setup pool rating w.nextRoom).stage.final = false := rfl
  rw [openMatch, hpoint]
  refine ⟨fun j => ?_, fun key => ?_, h.balanced⟩
  · show w.settled.count j = if ((w.matchRows.insert _).row j).any _ then 1 else 0
    rw [h.once, Table.row_insert]
    by_cases hj : j = w.matchRows.next
    · subst hj
      rw [if_pos rfl, Table.row_next, Option.any_some, settles_live hnew]
      rfl
    · rw [if_neg hj]
  · refine (h.games key).trans ?_
    show _ = (w.matchRows.insert _).count _
    rw [Table.count_insert, rates_live hnew]
    rfl

theorem Settled.leases (h : w.Settled) (hl : Leases w t) : t.Settled := by
  induction hl with
  | refl => exact h
  | tail _ hlast ih =>
    cases hlast with
    | quiet hq => exact ih.quiet hq
    | reserve now captain partyId _ _ =>
      obtain ⟨_, hframe⟩ := reserve_frame now captain _ _ partyId _
      rw [hframe]
      exact ih.books rfl
    | bots count name => exact ih.books rfl

theorem Settled.release (h : w.Settled) (now : Time) (r : ReservationId) :
    (w.releaseReservation now r).Settled := by
  obtain ⟨_, _, hframe⟩ := releaseReservation_frame now w r
  rw [hframe]
  exact h.books rfl

theorem Settled.point (h : w.Settled) (members : List UserId) : (w.pointAt ctx k members).Settled := by
  obtain ⟨_, hframe⟩ := pointAt_frame ctx k members w
  rw [hframe]
  exact h.books rfl

theorem Settled.deleteEntries (h : w.Settled) (rows : List QueueRow) :
    (w.deleteEntries rows).Settled := by
  obtain ⟨_, hframe⟩ := deleteEntries_frame rows w
  rw [hframe]
  exact h.books rfl

theorem Play.settled (h : Play clock ctx k w t) (hs : w.Settled)
    (hranked : ∀ k m, w.matchRows.row k = some m → m.ranked = true → (membersOf m).Nodup) :
    t.Settled := by
  cases h with
  | quiet hq => exact hs.quiet hq
  | move hrow hupdate => exact hs.put hrow hupdate.live hupdate.move.live'
  | finish hrow hlive => exact hs.finish hrow hlive (hranked k _ hrow)
  | @round m hrow slot winner totals players forfeit reason hslot hcounts =>
    have hlive : (m.record ctx slot winner totals players forfeit reason).stage.final = false :=
      hcounts.live
    exact (hs.put hrow hcounts.live hlive).finish (row_putMatch hrow _) hlive (hranked k m hrow)

/-- Every change settles what it ends. -/
theorem Change.settled (h : Change clock ctx w t) (hw : w.core.Inv False) (hs : w.Settled) :
    t.Settled := by
  cases h with
  | play h => exact Play.settled h hs hw.queued.ranked
  | expire => exact hs.release ctx.now _
  | renew => exact hs.books rfl
  | refresh => exact hs.books rfl
  | drop => exact (hs.release ctx.now _).books rfl
  | enqueue hl =>
    obtain ⟨_, hframe⟩ := enqueue_frame ctx.now _ _
    rw [hframe]
    exact (hs.leases hl).books rfl
  | group => exact hs.open.deleteEntries _
  | @ungroup selected hrows =>
    obtain ⟨_, _, hframe⟩ := releaseAll_frame ctx.now (selected.map fun x => x.2.reservationId) w
    rw [hframe]
    refine Settled.deleteEntries ?_ selected
    exact hs.books rfl
  | opened hl => exact (hs.leases hl).open
  | @seat u hl k m hrow hranked hstage members team lease hseated =>
    rw [← hl.rows] at hrow
    have hlive : m.stage.final = false := by rw [hstage]; rfl
    have hlive' : (m.seat ctx members team lease).stage.final = false := hlive
    exact ((hs.leases hl).put hrow hlive hlive').point members

theorem Changes.settled (h : Changes clock ctx w t) (hw : w.core.Inv False) (hs : w.Settled) :
    t.Settled := by
  suffices hboth : t.core.Inv False ∧ t.Settled from hboth.2
  induction h with
  | refl => exact ⟨hw, hs⟩
  | tail _ hlast ih => exact ⟨Change.inv hlast ih.1, Change.settled hlast ih.1 ih.2⟩

end World

section Runs

variable {clock : Prop} {w t : World}

/-- A departure leaves the books alone. -/
theorem Departure.settled {ctx : Ctx} {request : Request} (h : Departure ctx request w t)
    (hs : w.Settled) : t.Settled := by
  cases h with
  | forget => exact hs.books rfl
  | claim => exact hs.release ctx.now _
  | release r => exact hs.release ctx.now r

theorem Step.settled {e : Event} (h : Step w e t) (hw : w.core.Inv False) (hs : w.Settled)
    (hqueue : w.KeepsQueue e) : t.Settled := by
  cases h with
  | served ctx request =>
    rcases after_served w ctx request with h | ⟨hquiet, haccounts, hdepart, hrest⟩
    · exact World.Changes.settled h hw hs
    · have hbefore := (quiet_lockSomsai ctx.now hw.held).trans hquiet
      have hinv := hdepart.inv (hbefore.core.symm ▸ hw)
        ((keeps_congr hbefore.core haccounts _).1 hqueue) False.elim
      exact World.Changes.settled hrest hinv (hdepart.settled (hs.quiet hbefore))
  | changed o ho => exact hs.books rfl

theorem World.Initial.settles (h : w.Initial) : w.Settled where
  once k := by simp [h.settled, h.matchRows]
  games key := by simp [gamesOf, h.ratings, h.matchRows]
  balanced key row hrow := by simp [h.ratings] at hrow

/-- Settlement along the runs that free no lease of a queue row. -/
theorem Reaches.settled (h : Reaches World.KeepsQueue w) : w.Settled := by
  obtain ⟨w₀, h₀, hrun⟩ := h
  have hstep : ∀ s e t, (s.core.Inv False ∧ s.Settled) → s.KeepsQueue e → Step s e t →
      t.core.Inv False ∧ t.Settled :=
    fun s e t hs he hone => ⟨hone.inv hs.1 he False.elim, hone.settled hs.1 hs.2 he⟩
  exact (hrun.invariant hstep ⟨h₀.inv, h₀.settles⟩).2

end Runs

/-- Along the runs that free no lease of a queue row, ratings are settled once for
every ended ranked match and for no other; a final match never changes again; and
the games of a rating row are its results and the ended ranked matches of its
player. -/
theorem ratings_settled_once {w : World} (h : Reaches World.KeepsQueue w) :
    (∀ k m, w.matchRows.row k = some m → m.ranked = true →
      (m.stage = .ended → w.settled.count k = 1) ∧ (m.stage ≠ .ended → w.settled.count k = 0)) ∧
    (∀ k m, w.matchRows.row k = some m → m.stage.final = true →
      ∀ w', Run Step anyEvent w w' → w'.matchRows.row k = some m) ∧
    (∀ key row, w.ratings key = some row → row.games = row.wins + row.losses + row.draws) ∧
    ∀ key, w.gamesOf key = w.matchRows.count fun m => m.ranked && decide (m.stage = .ended) &&
      decide (key.userId ∈ membersOf m ∧ ratingKey m key.userId = key) := by
  have hsettled := h.settled
  refine ⟨fun k m hrow hranked => ?_, fun k m hrow hfinal w' hrun => ?_, hsettled.balanced,
    hsettled.games⟩
  · have honce := hsettled.once k
    rw [hrow, Option.any_some, Match.settles, hranked, Bool.true_and] at honce
    exact ⟨fun hended => by simpa [hended] using honce, fun hended => by simpa [hended] using honce⟩
  · have hstep : ∀ s e t, s.matchRows.row k = some m → anyEvent s e → Step s e t →
        t.matchRows.row k = some m := fun s e t hs _ hone => hone.row_final hs hfinal
    have hkept := hrun.invariant hstep hrow
    exact hkept

/-- A ranked 1v1 between players 1 and 2, which player 2 wins by default. -/
def rankedStore : World :=
  let play := fun (w : World) uid kind => w.acts uid (.play (some 1) kind none none none)
  let queued := (threePlayers.acts 1 .queueJoin).acts 2 .queueJoin
  play (play (play (queued.after (.steady 0) .tick) 1 .ready) 2 .ready) 1 .leaveMatch

theorem reaches_rankedStore : Reaches World.KeepsQueue rankedStore :=
  (((((reaches_threePlayers.acts 1 _ trivial).acts 2 _ trivial).after _ _ trivial).acts 1 _
    trivial).acts 2 _ trivial).acts 1 _ trivial

theorem ratings_settled_once_ranked :
    rankedStore.gamesOf ⟨1, 0, 0, .one⟩ = 1 ∧ rankedStore.settled = [1] ∧ ∀ m,
      rankedStore.matchRows.row 1 = some m → m.ranked = true → m.stage = .ended →
      rankedStore.settled.count 1 = 1 :=
  ⟨by decide +kernel, by decide +kernel, fun m hrow hranked =>
    ((ratings_settled_once reaches_rankedStore).1 1 m hrow hranked).1⟩

/-- The player who was matched against themself leaves the match. -/
def selfStore : World :=
  (rematchedStore.acts 1 (.play (some 1) .ready none none none)).acts 1 (leaveOf 1)

/-- One ended match gives its only player two games. -/
theorem one_match_two_games : Reaches anyEvent selfStore ∧
    selfStore.gamesOf ⟨1, 0, 0, .one⟩ = 2 ∧
    (selfStore.matchRows.count fun m => m.ranked && decide (m.stage = .ended) &&
      decide (1 ∈ membersOf m ∧ ratingKey m 1 = ⟨1, 0, 0, .one⟩)) = 1 :=
  ⟨(reaches_rematchedStore.acts 1 _ trivial).acts 1 _ trivial, by decide +kernel,
    by decide +kernel⟩

end Soms.Somsai

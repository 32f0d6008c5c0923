import Mathlib.Algebra.Order.Floor.Semiring
import Soms.Somsai.Party

/-!
# Ratings

`somsai_rating_service.py` in exact arithmetic.  The logistic expectation is the
one function that is not rational; a transaction carries it in its context.
-/

namespace Soms.Somsai

/-- `round`: to the nearest integer, halves to even. -/
def roundHalfEven (q : ℚ) : Int :=
  let f := ⌊q⌋
  if q - f < 1 / 2 then f
  else if 1 / 2 < q - f then f + 1
  else if f % 2 = 0 then f else f + 1

/-- `round(x, 2)`. -/
def roundCents (q : ℚ) : ℚ := roundHalfEven (q * 100) / 100

/-- `_K_ANCHORS`. -/
def kAnchors : List (ℚ × ℚ) :=
  [(0, 40), (600, 40), (1600, 32), (2300, 24), (2800, 16), (3500, 10), (5000, 10)]

/-- The interpolation between the first two neighbouring anchors around `r`. -/
def interpolate (r : ℚ) : List (ℚ × ℚ) → ℚ
  | (r₀, k₀) :: (r₁, k₁) :: rest =>
    if r₀ ≤ r ∧ r ≤ r₁ then
      k₀ + (if r₁ ≠ r₀ then (r - r₀) / (r₁ - r₀) else 0) * (k₁ - k₀)
    else interpolate r ((r₁, k₁) :: rest)
  | _ => 10

/-- `k_factor`. -/
def kFactor (rating : ℚ) (games : Nat) : ℚ :=
  if games < 10 then 64 else interpolate (max 0 (min 5000 rating)) kAnchors

/-! ## Impacts -/

/-- The share of one player in one round: own score over the round's mean, at
most two. -/
def roundShare (uid : UserId) (entry : HistoryEntry) : ℚ :=
  let own : Nat := ((entry.players.find? fun p => p.userId = uid).map (·.score)).getD 0
  let average : ℚ := ((entry.players.map (·.score)).sum : Nat) / (max 1 entry.players.length : Nat)
  if 0 < average then min 2 (own / average) else 0

def impactOf (uid : UserId) (team : Team) (rounds : List HistoryEntry) (winner : Option Team) :
    Int :=
  let shares := rounds.map (roundShare uid)
  let roundWins := (rounds.filter fun entry => entry.winnerTeamId = some team).length
  let quality := shares.sum / (max 1 shares.length : Nat)
  let value := 10 + 30 * quality + 20 * (roundWins : ℚ) / (max 1 rounds.length : Nat) +
    (if winner = some team then 20 else if winner = none then 10 else 0)
  roundHalfEven (max 1 (min 100 value))

/-- The members with their teams, in the order the source visits them. -/
def seatsOf (teams : PerTeam (List UserId)) : List (Team × UserId) :=
  teams.red.map (fun uid => (.red, uid)) ++ teams.blue.map (fun uid => (.blue, uid))

/-- `performance_impacts`, as the items of the dictionary. -/
def performanceImpacts (teams : PerTeam (List UserId)) (rounds : List HistoryEntry)
    (winner : Option Team) : List (UserId × Int) :=
  (seatsOf teams).map fun seat => (seat.2, impactOf seat.2 seat.1 rounds winner)

/-- A dictionary keeps the last value stored under a key. -/
def lookupLast (items : List (UserId × Int)) (uid : UserId) : Int :=
  ((items.reverse.find? fun item => item.1 = uid).map Prod.snd).getD 0

/-! ## Settlement -/

def ratingKey (m : Match) (uid : UserId) : RatingKey :=
  { userId := uid, rulesetId := m.rulesetId, variantId := m.variantId, format := m.format }

namespace World

/-- `ensure_rating`. -/
def ensureRating (w : World) (key : RatingKey) : World :=
  match w.ratings key with
  | some _ => w
  | none =>
    let row : Rating := { rating := w.env.seed key.userId key.rulesetId }
    { w with ratings := Function.update w.ratings key (some row) }

/-- The row that `ensure_rating` returns. -/
def ratingRow (w : World) (key : RatingKey) : Rating :=
  (w.ratings key).getD { rating := w.env.seed key.userId key.rulesetId }

def ensureRatings (w : World) (keys : List RatingKey) : World := keys.foldl ensureRating w

end World

/-- `sum(xs) / len(xs)`. -/
def mean (xs : List ℚ) : ℚ := xs.sum / xs.length

/-- The rating after one match, with the gap between the pool and the player. -/
def ratedRow (poolRank : Rank) (expectation : ℚ) (team : Team) (winner : Option Team)
    (row : Rating) : Rating × ℚ :=
  let actual : ℚ := match winner with
    | none => 1 / 2
    | some t => if t = team then 1 else 0
  let before : ℚ := row.rating
  let rankGap := (rankMidpointRating poolRank - before) / 100
  let direction := if expectation < actual then rankGap else -rankGap
  let adjustment := kFactor before row.games * (actual - expectation) *
    max (6 / 10) (min (15 / 10) (1 + 8 / 100 * direction))
  let rating := roundHalfEven (max 0 (min 5000 (before + adjustment)))
  ({ row with
      rating := rating
      lastDelta := rating - row.rating
      games := row.games + 1
      wins := row.wins + (if winner = some team then 1 else 0)
      losses := row.losses + (if winner = some team.other then 1 else 0)
      draws := row.draws + (if winner = none then 1 else 0) }, rankGap)

/-- One turn of the loop of `settle_ratings`. -/
def settleSeat (m : Match) (expected : ℚ) (winner : Option Team) (impacts : List (UserId × Int))
    (acc : World × List RatingChange) (seat : Team × UserId) : World × List RatingChange :=
  let (w, changes) := acc
  let key := ratingKey m seat.2
  let row := w.ratingRow key
  let expectation := match seat.1 with
    | .red => expected
    | .blue => 1 - expected
  let (row', rankGap) := ratedRow m.state.poolRank expectation seat.1 winner row
  let change : RatingChange :=
    { userId := seat.2, before := row.rating, after := row'.rating, delta := row'.lastDelta,
      impact := lookupLast impacts seat.2, poolRankGap := roundCents rankGap }
  ({ w with ratings := Function.update w.ratings key (some row') }, changes ++ [change])

/-- `settle_ratings`. -/
def World.settleRatings (ctx : Ctx) (w : World) (id : MatchId) (m : Match) (winner : Option Team) :
    World × List RatingChange :=
  let teams := m.state.teams
  let impacts := performanceImpacts teams m.state.history winner
  let w := w.ensureRatings ((membersOf m).map (ratingKey m))
  let average := teams.map fun team =>
    mean (team.map fun uid => ((w.ratingRow (ratingKey m uid)).rating : ℚ))
  let expected := ctx.expectedScore (max (-4000) (min 4000 (average.blue - average.red)))
  let w := { w with settled := w.settled ++ [id] }
  (seatsOf teams).foldl (settleSeat m expected winner impacts) (w, [])

end Soms.Somsai

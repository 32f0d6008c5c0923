import Soms.Rankings.Ranking

/-!
# Refreshing all rankings

`refresh_all_rankings` of `service/ranking_cache_service.py`.  The tasks are interleaved at their
awaits: each turn of a task is one query, one row that is turned into its response, or one write
to Redis.  Between the turns the database changes.
-/

namespace Soms.Rankings.Refresh

open Soms.Scores (UserId GameMode)

/-! ## What the tasks read -/

/-- What the list of top scores selects a row of `scores` by. -/
structure ScoreRow where
  id : Nat
  gamemode : GameMode
  pp : ℚ
  deriving DecidableEq, Repr

/-- The database, and the day. -/
structure Tables where
  db : Db
  scores : List ScoreRow
  /-- `score_id` and `gamemode` of the rows of `best_scores`. -/
  best : List (Nat × GameMode)
  today : Day

/-- The settings, and what is outside of the rankings: `str.upper`, and `score.to_resp`. -/
structure Config (R : Type) where
  upper : String → String
  toResp : Tables → ScoreRow → R
  /-- `ranking_cache_max_pages` -/
  maxPages : Nat
  /-- `top_score_cache_max_pages` -/
  maxTopPages : Nat
  /-- `ranking_cache_top_countries` -/
  topCountries : Nat

/-- What a user ranking is ordered by. -/
def value : SortType → UserStatistics → ℚ
  | .performance => fun stat => stat.pp
  | .score => fun stat => stat.rankedScore

namespace Tables

/-- The statistics of a user ranking, in its order. -/
def ranking (upper : String → String) (t : Tables) (ruleset : GameMode) (type : SortType)
    (country : Option String) : List UserStatistics :=
  Db.ranked (t.db.publicRanking upper ruleset country) (value type)

/-- The response for one row of a user ranking. -/
def userRow (upper : String → String) (t : Tables) (type : SortType) (country : Option String)
    (stat : UserStatistics) : UserRow :=
  t.db.userRow upper t.today type country none stat

/-- `select(User.country_code).distinct()` without the empty codes. -/
def codes (t : Tables) : List String :=
  (t.db.users.map User.countryCode).eraseDups.filter (· ≠ "")

/-- The statistics of one country.  Unlike the endpoint, the task counts restricted users. -/
def countryStatistics (t : Tables) (ruleset : GameMode) (country : String) :
    Option CountryStatistics :=
  let stats := t.db.statistics.filter fun stat =>
    stat.mode == ruleset && t.db.hasRankedPp stat &&
      t.db.hasUser stat.userId (fun user => user.countryCode == country) &&
      t.db.hasUser stat.userId User.isActive
  if stats.isEmpty then none
  else
    some {
      code := country
      activeUsers := stats.length
      playCount := (stats.map UserStatistics.playCount).sum
      rankedScore := (stats.map UserStatistics.rankedScore).sum
      performance := Scores.round (stats.map UserStatistics.pp).sum }

/-- The scores of a mode that are the best of their users, by pp. -/
def topScores (t : Tables) (ruleset : GameMode) : List ScoreRow :=
  (t.scores.filter fun score =>
    score.gamemode == ruleset && t.best.contains (score.id, ruleset)).insertionSort
      fun a b => b.pp ≤ a.pp

/-- The pp at which a page after the first begins: that of the last score before it. -/
def cursor (t : Tables) (ruleset : GameMode) (page : Nat) : Option ℚ :=
  ((t.topScores ruleset)[(page - 1) * 50 - 1]?).map ScoreRow.pp

/-- One page of scores from a cursor on; the first page has none. -/
def scoresFrom (t : Tables) (ruleset : GameMode) (cursor : Option ℚ) : List ScoreRow :=
  ((t.topScores ruleset).filter fun score => cursor.all fun pp => decide (score.pp ≤ pp)).take 50

/-- The countries with the most active users. -/
def mostActive (t : Tables) (limit : Nat) : List String :=
  let codes := (t.db.users.filter User.isActive).map User.countryCode
  (codes.eraseDups.insertionSort fun a b => codes.count b ≤ codes.count a).take limit

end Tables

/-! ## The tasks -/

/-- What one task refreshes. -/
inductive RankingList where
  | users (ruleset : GameMode) (type : SortType) (country : Option String)
  | countries (ruleset : GameMode)
  | topScores (ruleset : GameMode)
  deriving DecidableEq, Repr

/-- The part of a cache key before the page. -/
inductive ListKey where
  | users (ruleset : GameMode) (type : SortType) (countryPart : Option String)
  | countries (ruleset : GameMode)
  | topScores (ruleset : GameMode)
  deriving DecidableEq, Repr

def RankingList.key (upper : String → String) : RankingList → ListKey
  | .users ruleset type country => .users ruleset type (countryPart upper country)
  | .countries ruleset => .countries ruleset
  | .topScores ruleset => .topScores ruleset

/-- `game_modes` -/
def gameModes : List GameMode := [.osu, .taiko, .fruits, .mania, .osurx, .osuap]

/-- `refresh_tasks` -/
def refreshTasks (topCountries : List String) : List RankingList :=
  (gameModes.flatMap fun mode => [SortType.performance, .score].map fun type =>
    .users mode type none) ++
  (topCountries.flatMap fun country => gameModes.flatMap fun mode =>
    [SortType.performance, .score].map fun type => .users mode type (some country)) ++
  gameModes.flatMap fun mode => [.countries mode, .topScores mode]

/-- A page in the cache. -/
inductive Cached (R : Type) where
  | users (rows : List UserRow)
  | countries (rows : List CountryStatistics)
  | topScores (rows : List R)

inductive Write (R : Type) where
  | page (number : Nat) (page : Cached R)
  | total (total : Nat)

/-- Where `refresh_ranking_cache` awaits. -/
inductive UserPhase where
  | count
  | stats (total : Nat)
  | page (number : Nat)
  | rows (number : Nat) (todo : List UserStatistics) (done : List UserRow)

/-- Where `refresh_country_ranking_cache` awaits. -/
inductive CountryPhase where
  | codes
  | country (todo : List String) (done : List CountryStatistics)
  | stats (countries : List CountryStatistics)
  | page (number : Nat) (countries : List CountryStatistics)

/-- Where `refresh_top_scores_cache` awaits. -/
inductive TopPhase (R : Type) where
  | cursor (number : Nat)
  | scores (number : Nat) (cursor : Option ℚ)
  | rows (number : Nat) (todo : List ScoreRow) (done : List R)

/-- What a turn leads to, none when the task ends, and what it writes. -/
abbrev Turn (P R : Type) := Option P × Option (Write R)

section Turns

variable {R : Type} (config : Config R) (t : Tables) (ruleset : GameMode)

/-- One turn of `refresh_ranking_cache`. -/
def UserPhase.turn (type : SortType) (country : Option String) : UserPhase → Turn UserPhase R
  | .count => (some (.stats (t.db.publicRanking config.upper ruleset country).length), none)
  | .stats total => (if 1 ≤ config.maxPages then some (.page 1) else none, some (.total total))
  | .page number =>
    let rows := pageOf (t.ranking config.upper ruleset type country) number
    (if rows = [] then none else some (.rows number rows []), none)
  | .rows number (stat :: todo) done =>
    (some (.rows number todo (done ++ [t.userRow config.upper type country stat])), none)
  | .rows number [] done =>
    (if number < config.maxPages then some (.page (number + 1)) else none,
      some (.page number (.users done)))

/-- One turn of `refresh_country_ranking_cache`. -/
def CountryPhase.turn : CountryPhase → Turn CountryPhase R
  | .codes => (some (.country t.codes []), none)
  | .country (code :: todo) done =>
    (some (.country todo (done ++ (t.countryStatistics ruleset code).toList)), none)
  | .country [] done => (some (.stats (sortedBy CountryStatistics.performance done)), none)
  | .stats countries =>
    (if 1 ≤ config.maxPages then some (.page 1 countries) else none,
      some (.total countries.length))
  | .page number countries =>
    let rows := pageOf countries number
    if rows = [] then (none, none)
    else
      (if number < config.maxPages then some (.page (number + 1) countries) else none,
        some (.page number (.countries rows)))

/-- One turn of `refresh_top_scores_cache`. -/
def TopPhase.turn : TopPhase R → Turn (TopPhase R) R
  | .cursor number =>
    if config.maxTopPages < number then (none, none)
    else if number = 1 then (some (.scores 1 none), none)
    else
      match t.cursor ruleset number with
      | none => (none, none)
      | some pp => (some (.scores number (some pp)), none)
  | .scores number start => (some (.rows number (t.scoresFrom ruleset start) []), none)
  | .rows number (score :: todo) done =>
    (some (.rows number todo (done ++ [config.toResp t score])), none)
  | .rows number [] done => (some (.cursor (number + 1)), some (.page number (.topScores done)))

end Turns

/-! ## The call -/

inductive Phase (R : Type) where
  | waiting
  | users (phase : UserPhase)
  | countries (phase : CountryPhase)
  | topScores (phase : TopPhase R)
  | finished
  /-- The task found another refresh in progress. -/
  | skipped

namespace Phase

variable {R : Type}

def running : Phase R → Bool
  | .users _ | .countries _ | .topScores _ => true
  | _ => false

def isWaiting : Phase R → Bool
  | .waiting => true
  | _ => false

def isFinished : Phase R → Bool
  | .finished => true
  | _ => false

/-- The task has returned. -/
def returned : Phase R → Bool
  | .finished | .skipped => true
  | _ => false

/-- Where a task that found no refresh in progress begins. -/
def first : RankingList → Phase R
  | .users _ _ _ => .users .count
  | .countries _ => .countries .codes
  | .topScores _ => .topScores (.cursor 1)

/-- One turn of the task of a list. -/
def turn (config : Config R) (t : Tables) (l : RankingList) (phase : Phase R) :
    Phase R × Option (Write R) :=
  match l, phase with
  | .users ruleset type country, .users phase =>
    let (next, write) := phase.turn config t ruleset type country
    ((next.map users).getD finished, write)
  | .countries ruleset, .countries phase =>
    let (next, write) := phase.turn config t ruleset
    ((next.map countries).getD finished, write)
  | .topScores ruleset, .topScores phase =>
    let (next, write) := phase.turn config t ruleset
    ((next.map topScores).getD finished, write)
  | _, phase => (phase, none)

end Phase

/-- The state of a call.  The semaphore counts the running tasks. -/
structure State (R : Type) where
  tables : Tables
  /-- `_refreshing` -/
  refreshing : Bool
  pages : ListKey → Nat → Option (Cached R)
  totals : ListKey → Option Nat
  phases : RankingList → Phase R

namespace State

variable {R : Type}

/-- The caches after a write under a key. -/
def write (s : State R) (k : ListKey) : Option (Write R) → State R
  | none => s
  | some (.total total) => { s with totals := Function.update s.totals k (some total) }
  | some (.page number page) =>
    { s with pages :=
        Function.update s.pages k (Function.update (s.pages k) number (some page)) }

inductive Event where
  | change (tables : Tables)
  /-- A task gets past the semaphore and looks at the flag. -/
  | enter (l : RankingList)
  | run (l : RankingList)

def after (config : Config R) (s : State R) : Event → State R
  | .change tables => { s with tables := tables }
  | .enter l =>
    if s.refreshing then { s with phases := Function.update s.phases l .skipped }
    else { s with refreshing := true, phases := Function.update s.phases l (.first l) }
  | .run l =>
    let (phase, write) := (s.phases l).turn config s.tables l
    let s := s.write (l.key config.upper) write
    { s with
      phases := Function.update s.phases l phase
      -- the `finally` block
      refreshing := s.refreshing && !phase.isFinished }

/-- What the scheduler may do: at most fifteen tasks are past the semaphore. -/
def Allowed (tasks : List RankingList) (s : State R) : Event → Prop
  | .change _ => True
  | .enter l => l ∈ tasks ∧ (s.phases l).isWaiting = true ∧
      (tasks.filter fun l => (s.phases l).running).length < 15
  | .run l => l ∈ tasks ∧ (s.phases l).running = true

inductive Step (config : Config R) : State R → Event → State R → Prop
  | mk (s : State R) (e : Event) : Step config s e (s.after config e)

/-- The gathered tasks have all returned. -/
def Complete (tasks : List RankingList) (s : State R) : Prop :=
  ∀ l ∈ tasks, (s.phases l).returned = true

end State

end Soms.Rankings.Refresh

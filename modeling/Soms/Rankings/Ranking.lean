import Soms.Library.Run
import Soms.Scores.Data

/-!
# Rankings

The user, team and country rankings of `router/v2/ranking.py`, as they are answered from the
database, and the caches of `service/ranking_cache_service.py` in front of them.

A cache key stands for the string that is put together from its parts.  `upper` is Python's
`str.upper`.
-/

namespace Soms.Rankings

open Soms.Scores (UserId GameMode)

abbrev TeamId := Nat
abbrev Day := Nat
abbrev RequestId := Nat

inductive SortType where
  | performance | score
  deriving DecidableEq, Repr

/-! ## The database -/

structure User where
  id : UserId
  countryCode : String
  isActive : Bool := true
  isBot : Bool := false
  restricted : Bool := false
  deriving DecidableEq, Repr

structure UserStatistics where
  userId : UserId
  mode : GameMode
  pp : ℚ
  rankedScore : Int
  playCount : Int := 0
  isRanked : Bool := true
  deriving DecidableEq, Repr

structure BestScore where
  userId : UserId
  gamemode : GameMode
  pp : ℚ
  deriving DecidableEq, Repr

structure RankHistory where
  userId : UserId
  mode : GameMode
  date : Day
  rank : Nat
  deriving DecidableEq, Repr

structure Team where
  id : TeamId
  name : String
  shortName : String
  leaderId : UserId
  deriving DecidableEq, Repr

structure TeamMember where
  userId : UserId
  teamId : TeamId
  deriving DecidableEq, Repr

structure Db where
  users : List User
  statistics : List UserStatistics
  bestScores : List BestScore
  rankHistory : List RankHistory
  teams : List Team
  members : List TeamMember

namespace Db

def hasUser (db : Db) (uid : UserId) (p : User → Bool) : Bool :=
  db.users.any fun user => user.id == uid && p user

/-- `User.is_restricted_query` -/
def isRestricted (db : Db) (uid : UserId) : Bool := db.hasUser uid User.restricted

def hasRankedPp (db : Db) (stat : UserStatistics) : Bool :=
  decide (0 < stat.pp) || db.bestScores.any fun best =>
    best.userId == stat.userId && best.gamemode == stat.mode && decide (0 < best.pp)

/-- The statistics that meet `public_ranking_conditions`. -/
def publicRanking (upper : String → String) (db : Db) (mode : GameMode)
    (country : Option String) : List UserStatistics :=
  db.statistics.filter fun stat =>
    stat.mode == mode && db.hasRankedPp stat && stat.isRanked &&
      db.hasUser stat.userId (fun user => user.isActive && !user.isBot) &&
      !db.isRestricted stat.userId &&
      country.all fun c => db.hasUser stat.userId fun user => user.countryCode == upper c

/-- The statistics by a value, the highest first, and then by the user. -/
def ranked (stats : List UserStatistics) (value : UserStatistics → ℚ) : List UserStatistics :=
  stats.insertionSort fun a b =>
    value b < value a ∨ value a = value b ∧ a.userId ≤ b.userId

def getRank (upper : String → String) (db : Db) (stat : UserStatistics)
    (country : Option String) : Option Nat :=
  ((ranked (db.publicRanking upper stat.mode country) UserStatistics.pp).findIdx?
    fun row => row.userId == stat.userId).map (· + 1)

/-- The ranks of the user in the thirty days up to today.  Today's row is written first. -/
def recentRanks (db : Db) (today : Day) (stat : UserStatistics) (rank : Nat) : List Nat :=
  rank :: ((db.rankHistory.filter fun row =>
    row.userId == stat.userId && decide (today < row.date + 30) &&
      !(row.mode == stat.mode && row.date == today)).map RankHistory.rank)

def rankChangeSince30Days (upper : String → String) (db : Db) (today : Day)
    (stat : UserStatistics) : Int :=
  match db.getRank upper stat none with
  | none => 0
  | some rank => ((db.recentRanks today stat rank).foldr max 0 : Nat) - (rank : Int)

end Db

/-! ## The answers -/

/-- One user of a ranking. -/
structure UserRow where
  statistics : UserStatistics
  globalRank : Option Nat
  /-- The country and the team of the user. -/
  user : Option String × Option TeamId
  rankChangeSince30Days : Option Int
  countryRank : Option (Option Nat)
  deriving DecidableEq, Repr

structure TeamStatistics where
  teamId : TeamId
  rulesetId : Nat
  playCount : Int
  rankedScore : Int
  performance : Int
  team : Team
  memberCount : Nat
  deriving DecidableEq, Repr

structure CountryStatistics where
  code : String
  activeUsers : Nat
  playCount : Int
  rankedScore : Int
  performance : Int
  deriving DecidableEq, Repr

inductive Page where
  | users (rows : List UserRow)
  | teams (rows : List TeamStatistics)
  | countries (rows : List CountryStatistics)
  deriving DecidableEq, Repr

def Page.isEmpty : Page → Bool
  | users rows => rows.isEmpty
  | teams rows => rows.isEmpty
  | countries rows => rows.isEmpty

structure Response where
  ranking : Page
  /-- A country ranking has no total. -/
  total : Option Nat
  deriving DecidableEq, Repr

/-- The rows of one page.  Pages count from one. -/
def pageOf {α : Type} (rows : List α) (page : Nat) : List α :=
  (rows.drop (50 * (page - 1))).take 50

/-- The rows by a value, the highest first; ties keep their order. -/
def sortedBy {α : Type} (value : α → Int) (rows : List α) : List α :=
  rows.insertionSort fun a b => value b ≤ value a

/-- A country that is given and is not empty. -/
def filtered (country : Option String) : Bool := country.any (· ≠ "")

namespace Db

/-- The country of the requesting user. -/
def userCountry (db : Db) (currentUser : Option UserId) : Option String :=
  currentUser.bind fun uid => (db.users.find? fun user => user.id == uid).map User.countryCode

def userRow (upper : String → String) (db : Db) (today : Day) (sort : SortType)
    (country : Option String) (userCountry : Option String) (stat : UserStatistics) : UserRow where
  statistics := stat
  globalRank := db.getRank upper stat none
  user := ((db.users.find? fun user => user.id == stat.userId).map User.countryCode,
    (db.members.find? fun member => member.userId == stat.userId).map TeamMember.teamId)
  rankChangeSince30Days :=
    if sort = .performance then some (db.rankChangeSince30Days upper today stat) else none
  countryRank := if filtered country then some (db.getRank upper stat userCountry) else none

/-- `get_user_ranking`, from the database. -/
def userRanking (upper : String → String) (db : Db) (today : Day) (ruleset : GameMode)
    (sort : SortType) (country : Option String) (page : Nat) (currentUser : Option UserId) :
    Response :=
  let rows := db.publicRanking upper ruleset country
  let value : UserStatistics → ℚ := match sort with
    | .performance => fun stat => stat.pp
    | .score => fun stat => stat.rankedScore
  { ranking := .users ((pageOf (ranked rows value) page).map
      (db.userRow upper today sort country (db.userCountry currentUser)))
    total := some rows.length }

/-- The row of a team, unless none of its members has statistics. -/
def teamStatistics (db : Db) (ruleset : GameMode) (team : Team) : Option TeamStatistics :=
  let stats := db.statistics.filter fun stat =>
    stat.mode == ruleset && db.hasRankedPp stat && db.members.contains ⟨stat.userId, team.id⟩ &&
      !db.isRestricted stat.userId
  if stats.isEmpty then none
  else
    some {
      teamId := team.id
      rulesetId := ruleset.toInt
      playCount := (stats.map UserStatistics.playCount).sum
      rankedScore := (stats.map UserStatistics.rankedScore).sum
      performance := Scores.round (stats.map UserStatistics.pp).sum
      team := team
      memberCount := stats.length }

/-- `get_team_ranking`, from the database. -/
def teamRanking (db : Db) (ruleset : GameMode) (sort : SortType) (page : Nat) : Response :=
  let teams := db.teams.filterMap (db.teamStatistics ruleset)
  let value : TeamStatistics → Int := match sort with
    | .performance => TeamStatistics.performance
    | .score => TeamStatistics.rankedScore
  { ranking := .teams (pageOf (sortedBy value teams) page)
    total := some teams.length }

/-- The row of a country, unless it has no code or none of its users has statistics. -/
def countryStatistics (db : Db) (ruleset : GameMode) (country : String) :
    Option CountryStatistics :=
  let stats := db.statistics.filter fun stat =>
    stat.mode == ruleset && db.hasRankedPp stat &&
      db.hasUser stat.userId (fun user => user.countryCode == country) &&
      db.hasUser stat.userId User.isActive && !db.isRestricted stat.userId
  if country = "" ∨ stats.isEmpty then none
  else
    some {
      code := country
      activeUsers := stats.length
      playCount := (stats.map UserStatistics.playCount).sum
      rankedScore := (stats.map UserStatistics.rankedScore).sum
      performance := Scores.round (stats.map UserStatistics.pp).sum }

/-- `get_country_ranking`, from the database. -/
def countryRanking (db : Db) (ruleset : GameMode) (sort : SortType) (page : Nat) : Response :=
  let countries :=
    (db.users.map User.countryCode).eraseDups.filterMap (db.countryStatistics ruleset)
  let value : CountryStatistics → Int := match sort with
    | .performance => CountryStatistics.performance
    | .score => CountryStatistics.rankedScore
  { ranking := .countries (pageOf (sortedBy value countries) page)
    total := none }

end Db

/-! ## The requests and the caches -/

inductive Request where
  | users (today : Day) (ruleset : GameMode) (sort : SortType) (country : Option String)
      (page : Nat) (currentUser : Option UserId)
  | teams (ruleset : GameMode) (sort : SortType) (page : Nat)
  | countries (ruleset : GameMode) (sort : SortType) (page : Nat)
  deriving DecidableEq, Repr

/-- The answer from the database. -/
def Db.answer (upper : String → String) (db : Db) : Request → Response
  | .users today ruleset sort country page currentUser =>
    db.userRanking upper today ruleset sort country page currentUser
  | .teams ruleset sort page => db.teamRanking ruleset sort page
  | .countries ruleset sort page => db.countryRanking ruleset sort page

inductive PageKey where
  | users (ruleset : GameMode) (type : SortType) (countryPart : Option String) (page : Nat)
  | teams (ruleset : GameMode) (page : Nat)
  | countries (ruleset : GameMode) (page : Nat)
  deriving DecidableEq, Repr

inductive StatsKey where
  | users (ruleset : GameMode) (type : SortType) (countryPart : Option String)
  | teams (ruleset : GameMode)
  deriving DecidableEq, Repr

def countryPart (upper : String → String) (country : Option String) : Option String :=
  if filtered country then country.map upper else none

/-- `_get_cache_key`, `_get_team_cache_key` and `_get_country_cache_key` -/
def Request.pageKey (upper : String → String) : Request → PageKey
  | .users _ ruleset sort country page _ => .users ruleset sort (countryPart upper country) page
  | .teams ruleset _ page => .teams ruleset page
  | .countries ruleset _ page => .countries ruleset page

/-- `_get_stats_cache_key` and `_get_team_stats_cache_key` -/
def Request.statsKey (upper : String → String) : Request → Option StatsKey
  | .users _ ruleset sort country _ _ => some (.users ruleset sort (countryPart upper country))
  | .teams ruleset _ _ => some (.teams ruleset)
  | .countries _ _ _ => none

/-- What a request that was answered from the database caches in the background. -/
structure Task where
  request : Request
  response : Response
  deriving DecidableEq, Repr

/-- The total, and the key it is cached under. -/
def Task.stats (upper : String → String) (task : Task) : Option (StatsKey × Nat) :=
  (task.request.statsKey upper).bind fun k => task.response.total.map fun total => (k, total)

structure State where
  pages : PageKey → Option Page
  totals : StatsKey → Option Nat
  tasks : RequestId → Option Task

/-- The answer from the caches.  An empty page does not count as cached. -/
def State.cached (upper : String → String) (s : State) (r : Request) : Option Response :=
  match (s.pages (r.pageKey upper)).filter fun page => !page.isEmpty with
  | none => none
  | some ranking =>
    match r.statsKey upper with
    | none => some ⟨ranking, none⟩
    | some k => (s.totals k).map fun total => ⟨ranking, some total⟩

/-- The response to a request. -/
def State.respond (upper : String → String) (db : Db) (s : State) (r : Request) : Response :=
  (s.cached upper r).getD (db.answer upper r)

inductive Event where
  | request (i : RequestId) (r : Request)
  /-- The background tasks of request `i`. -/
  | cacheRanking (i : RequestId)
  | cacheStats (i : RequestId)
  | expireRanking (k : PageKey)
  | expireStats (k : StatsKey)

/-- The database stays as it is. -/
def State.after (upper : String → String) (db : Db) (s : State) : Event → State
  | .request i r =>
    match s.cached upper r with
    | some _ => s
    | none => { s with tasks := Function.update s.tasks i (some ⟨r, db.answer upper r⟩) }
  | .cacheRanking i =>
    match s.tasks i with
    | none => s
    | some task =>
      { s with
        pages := Function.update s.pages (task.request.pageKey upper) (some task.response.ranking) }
  | .cacheStats i =>
    match (s.tasks i).bind (Task.stats upper) with
    | none => s
    | some (k, total) => { s with totals := Function.update s.totals k (some total) }
  | .expireRanking k => { s with pages := Function.update s.pages k none }
  | .expireStats k => { s with totals := Function.update s.totals k none }

def State.empty : State := ⟨fun _ => none, fun _ => none, fun _ => none⟩

inductive Step (upper : String → String) (db : Db) : State → Event → State → Prop
  | mk (s : State) (e : Event) : Step upper db s e (s.after upper db e)

end Soms.Rankings

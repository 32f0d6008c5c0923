import Soms.Boards.Website
import Soms.Library.Assoc

/-!
# The first place of a map

The announcements, the profiles and the pages of the board rank the rows each in a query of its
own, the pages one row of each user.  The score ids break the ties, so no two rows are equal in any
of them.
-/

namespace Soms.Boards.Website

open Soms.Scores (UserId BeatmapId ScoreId GameMode)

variable {db : Database} {now : Int} {beatmapId : BeatmapId} {mode : GameMode}
  {row : TotalScoreBestScore} {cond : TotalScoreBestScore → Score → User → Bool}

/-! ## Joins -/

namespace Database

theorem score?_eq_some {score : Score} {id : ScoreId} :
    db.score? id = some score ↔ score ∈ db.scores ∧ score.id = id :=
  Assoc.find?_key db.scoreIds

theorem user?_eq_some {user : User} {id : UserId} :
    db.user? id = some user ↔ user ∈ db.users ∧ user.id = id :=
  Assoc.find?_key db.userIds

/-- The score and the user of a row. -/
theorem exists_joined (hrow : row ∈ db.bestScores) :
    ∃ score user, db.score? row.scoreId = some score ∧ db.user? row.userId = some user ∧
      score.id = row.scoreId ∧ score.userId = row.userId ∧ score.beatmapId = row.beatmapId ∧
      user.id = row.userId := by
  obtain ⟨score, hscore, hid, huser, hmap⟩ := db.hasScore row hrow
  obtain ⟨user, hmem, huserId⟩ := db.hasUser row hrow
  exact ⟨score, user, score?_eq_some.mpr ⟨hscore, hid⟩, user?_eq_some.mpr ⟨hmem, huserId⟩,
    hid, huser, hmap, huserId⟩

theorem mem_select : row ∈ db.select cond ↔ row ∈ db.bestScores ∧ ∃ score user,
    db.score? row.scoreId = some score ∧ db.user? row.userId = some user ∧
      cond row score user = true := by
  rw [select, List.mem_filter, Option.any_eq_true]
  simp only [Option.any_eq_true]
  constructor
  · rintro ⟨hrow, score, hscore, user, huser, hcond⟩
    exact ⟨hrow, score, user, hscore, huser, hcond⟩
  · rintro ⟨hrow, score, user, hscore, huser, hcond⟩
    exact ⟨hrow, score, hscore, user, huser, hcond⟩

theorem nodup_keys (db : Database) (cond : TotalScoreBestScore → Score → User → Bool) :
    ((db.select cond).map boardKey).Nodup := by
  refine List.Nodup.of_map (fun key => (ofLex key).2) ?_
  rw [List.map_map]
  exact db.bestScoreIds.sublist (List.filter_sublist.map _)

end Database

/-! ## The lines of the board -/

/-- The visible rows of a map, which the global page and the winner are taken from. -/
def boardRows (db : Database) (now : Int) (beatmapId : BeatmapId) (mode : GameMode) :
    List TotalScoreBestScore :=
  db.select fun row score user => row.beatmapId == beatmapId && row.gamemode == mode &&
    visibleScoreConditions db now score user

/-- The line of a row at a position. -/
def lineOf (db : Database) (row : TotalScoreBestScore) (position : Nat) : Option Line := do
  let score ← db.score? row.scoreId
  let user ← db.user? score.userId
  return { score, user, position }

theorem lineOf_eq (hrow : row ∈ db.bestScores) (position : Nat) : ∃ score user,
    lineOf db row position = some ⟨score, user, position⟩ ∧ db.score? row.scoreId = some score ∧
      db.user? row.userId = some user := by
  obtain ⟨score, user, hscore, huser, _, howner, _⟩ := Database.exists_joined hrow
  refine ⟨score, user, ?_, hscore, huser⟩
  simp [lineOf, hscore, howner, huser]

/-- The rows of the users in the order of the board. -/
def standings (rows : List TotalScoreBestScore) : List TotalScoreBestScore :=
  byKey boardKey (firstRows (·.userId) boardKey rows)

theorem mem_standings {rows : List TotalScoreBestScore} :
    row ∈ standings rows ↔ row ∈ firstRows (·.userId) boardKey rows :=
  (byKey_perm boardKey _).mem_iff

theorem standings_subset {rows : List TotalScoreBestScore} (h : row ∈ standings rows) :
    row ∈ rows :=
  List.mem_of_mem_filter (mem_standings.mp h)

/-- The line of a row of the standings. -/
def standing (db : Database) (rows : List TotalScoreBestScore) (row : TotalScoreBestScore) :
    Option Line :=
  lineOf db row (rowNumber (fun _ => ()) (standings rows) row)

/-- Sorting by distinct numbers undoes any permutation. -/
theorem insertionSort_eq {α : Type} {f : α → Nat} {l sorted : List α} (hperm : l.Perm sorted)
    (hsorted : sorted.Pairwise fun a b => f a < f b) :
    l.insertionSort (fun a b => f a ≤ f b) = sorted := by
  have : Std.Total fun a b : α => f a ≤ f b := ⟨fun a b => le_total (f a) (f b)⟩
  have : IsTrans α fun a b => f a ≤ f b := ⟨fun _ _ _ h h' => h.trans h'⟩
  have hsort := List.perm_insertionSort (fun a b => f a ≤ f b) l
  have hnodup : (sorted.map f).Nodup := List.pairwise_map.mpr (hsorted.imp Nat.ne_of_lt)
  refine List.Perm.eq_of_pairwise ?_ (List.pairwise_insertionSort _ _) (hsorted.imp Nat.le_of_lt)
    (hsort.trans hperm)
  intro a b ha hb hab hba
  have ha : a ∈ sorted := hperm.mem_iff.mp (hsort.mem_iff.mp ha)
  exact List.inj_on_of_nodup_map hnodup ha hb (Nat.le_antisymm hab hba)

theorem map_filterMap_eq {α β γ : Type} {f : α → Option β} {g : β → γ} {k : α → γ} {l : List α}
    (h : ∀ a ∈ l, (f a).map g = some (k a)) : (l.filterMap f).map g = l.map k := by
  rw [List.map_filterMap, ← List.filterMap_eq_map]
  exact List.filterMap_congr h

section Board

variable (db) {rows : List TotalScoreBestScore} (hrows : rows ⊆ db.bestScores)
  (hkeys : (rows.map boardKey).Nodup)

include hrows

theorem standing_eq (hrow : row ∈ standings rows) : ∃ score user,
    standing db rows row =
      some ⟨score, user, rowNumber (fun _ => ()) (standings rows) row⟩ ∧
      db.score? row.scoreId = some score ∧ db.user? row.userId = some user :=
  lineOf_eq (hrows (standings_subset hrow)) _

include hkeys

/-- The positions of the lines, the first one being one. -/
theorem positions_standings : ((standings rows).filterMap (standing db rows)).map (·.position) =
    List.range' 1 (ranked rows).length := by
  have hfirst : ((firstRows (·.userId) boardKey rows).map boardKey).Nodup :=
    hkeys.sublist (List.filter_sublist.map _)
  rw [map_filterMap_eq (k := rowNumber (fun _ => ()) (standings rows)), standings,
    map_rowNumber hfirst _ fun _ _ _ _ => rfl, ranked, List.length_map]
  intro row hrow
  obtain ⟨score, user, hline, _⟩ := standing_eq db hrows hrow
  rw [hline]
  rfl

/-- The query returns the lines of the standings. -/
theorem query_ranked : query db (ranked rows) = (standings rows).filterMap (standing db rows) := by
  refine insertionSort_eq ?_ ?_
  · have hperm := (byKey_perm boardKey (firstRows (·.userId) boardKey rows)).symm.filterMap
      (standing db rows)
    rw [ranked, List.filterMap_map]
    exact hperm
  · have hpositions := positions_standings db hrows hkeys
    rw [← List.pairwise_map, hpositions]
    exact List.pairwise_lt_range'

/-- The first line is that of the first row of all. -/
theorem head?_query : (query db (ranked rows)).head? =
    (byKey boardKey rows).head?.bind fun row => lineOf db row 1 := by
  have hhead : (standings rows).head? = (byKey boardKey rows).head? :=
    head?_byKey_firstRows hkeys (·.userId)
  have hpositions := positions_standings db hrows hkeys
  rw [query_ranked db hrows hkeys, ← hhead]
  cases h : standings rows with
  | nil => rfl
  | cons row rest =>
    obtain ⟨score, user, hline, hscore, huser⟩ := standing_eq db hrows (h ▸ List.mem_cons_self)
    rw [h, List.filterMap_cons_some hline] at hpositions
    rw [List.filterMap_cons_some hline]
    cases hlength : (ranked rows).length with
    | zero =>
      rw [hlength] at hpositions
      exact absurd hpositions (by simp)
    | succ n =>
      rw [hlength, List.range'_succ, List.map_cons] at hpositions
      have hone := (List.cons.inj hpositions).1
      rw [List.head?_cons, List.head?_cons, Option.bind_some, ← hline, standing]
      exact congrArg (lineOf db row) hone

/-- One line of each user who has a row. -/
theorem users_query {listed : User → Bool}
    (hlisted : ∀ user ∈ db.users, listed user = true ↔ ∃ row ∈ rows, row.userId = user.id) :
    ((query db (ranked rows)).map (·.user)).Perm (db.users.filter listed) := by
  have hline : ∀ row ∈ standings rows, ∃ score user,
      standing db rows row = some ⟨score, user, rowNumber (fun _ => ()) (standings rows) row⟩ ∧
      user ∈ db.users ∧ user.id = row.userId := by
    intro row hrow
    obtain ⟨score, user, hline, _, huser⟩ := standing_eq db hrows hrow
    exact ⟨score, user, hline, Database.user?_eq_some.mp huser⟩
  have hids : ((query db (ranked rows)).map (·.user.id)).Nodup := by
    have hmap : (query db (ranked rows)).map (·.user.id) = (standings rows).map (·.userId) := by
      rw [query_ranked db hrows hkeys]
      refine map_filterMap_eq fun row hrow => ?_
      obtain ⟨score, user, hsome, _, hid⟩ := hline row hrow
      rw [hsome, Option.map_some, hid]
    rw [hmap, standings, ((byKey_perm boardKey _).map _).nodup_iff]
    exact nodup_part_firstRows hkeys (·.userId)
  have hnodup : ((query db (ranked rows)).map (·.user)).Nodup := by
    refine List.Nodup.of_map (·.id) ?_
    rw [List.map_map]
    exact hids
  rw [List.perm_ext_iff_of_nodup hnodup (db.userIds.of_map.filter listed)]
  intro user
  rw [query_ranked db hrows hkeys, List.mem_map, List.mem_filter]
  constructor
  · intro ⟨line, hmem, huser⟩
    obtain ⟨row, hrow, hsome⟩ := List.mem_filterMap.mp hmem
    obtain ⟨score, owner, hsome', howner, hid⟩ := hline row hrow
    obtain rfl := Option.some.inj (hsome'.symm.trans hsome)
    subst huser
    exact ⟨howner, (hlisted _ howner).mpr ⟨row, standings_subset hrow, hid.symm⟩⟩
  · intro ⟨hmem, hlist⟩
    obtain ⟨row, hrow, hid⟩ := (hlisted user hmem).mp hlist
    obtain ⟨first, hfirst, hsame, _⟩ := exists_firstRow hkeys (·.userId) hrow
    have hfirst : first ∈ standings rows := mem_standings.mpr hfirst
    obtain ⟨score, owner, hsome, howner, hownerId⟩ := hline first hfirst
    have heq : owner = user := List.inj_on_of_nodup_map db.userIds howner hmem
      (hownerId.trans (hsame.trans hid))
    exact ⟨_, List.mem_filterMap.mpr ⟨first, hfirst, hsome⟩, heq⟩

end Board

/-! ## The pages -/

/-- The pages of one size, put together. -/
theorem flatMap_pages {α : Type} (l : List α) (size n : Nat) :
    (List.range n).flatMap (fun i => (l.drop (i * size)).take size) = l.take (n * size) := by
  induction n with
  | zero => simp
  | succ n ih =>
    rw [List.range_succ, List.flatMap_append, ih, List.flatMap_singleton, Nat.add_mul, Nat.one_mul,
      List.take_add]

/-- Whether the user has a visible score in the mode of the map. -/
def hasVisibleScore (db : Database) (now : Int) (beatmapId : BeatmapId) (mode : GameMode)
    (user : User) : Bool :=
  db.bestScores.any fun row => row.userId == user.id && row.beatmapId == beatmapId &&
    row.gamemode == mode && (db.score? row.scoreId).any fun score =>
      visibleScoreConditions db now score user

theorem hasVisibleScore_iff {user : User} (huser : user ∈ db.users) :
    hasVisibleScore db now beatmapId mode user = true ↔
      ∃ row ∈ boardRows db now beatmapId mode, row.userId = user.id := by
  simp only [hasVisibleScore, List.any_eq_true, Bool.and_eq_true, beq_iff_eq, Option.any_eq_true,
    boardRows, Database.mem_select]
  constructor
  · rintro ⟨row, hrow, ⟨⟨hid, hmap⟩, hmode⟩, score, hscore, hvisible⟩
    exact ⟨row, ⟨hrow, score, user, hscore, Database.user?_eq_some.mpr ⟨huser, hid.symm⟩,
      ⟨hmap, hmode⟩, hvisible⟩, hid⟩
  · rintro ⟨row, ⟨hrow, score, owner, hscore, howner, ⟨hmap, hmode⟩, hvisible⟩, hid⟩
    rw [hid, Database.user?_eq_some.mpr ⟨huser, rfl⟩] at howner
    obtain rfl := Option.some.inj howner
    exact ⟨row, hrow, ⟨⟨hid, hmap⟩, hmode⟩, score, hscore, hvisible⟩

theorem boardRows_subset : boardRows db now beatmapId mode ⊆ db.bestScores :=
  fun _ h => (Database.mem_select.mp h).1

theorem nodup_boardRows (db : Database) (now : Int) (beatmapId : BeatmapId) (mode : GameMode) :
    ((boardRows db now beatmapId mode).map boardKey).Nodup := Database.nodup_keys db _

/-- A page of the global board without a filter. -/
def globalPage (db : Database) (now : Int) (beatmapId : BeatmapId) (mode : GameMode)
    (pageSize : Nat) (viewer : Option User) (page : Nat) : Page :=
  let ranked := ranked (boardRows db now beatmapId mode)
  { rows := ((query db ranked).drop ((page - 1) * pageSize)).take pageSize
    top := (query db ranked).head?
    personal := viewer.bind fun viewer =>
      (query db (ranked.filter fun (row, _) => row.userId == viewer.id)).head?
    total := ranked.length
    mode }

theorem leaderboardPage_global (unicode : Unicode) (db : Database) (now : Int)
    (beatmapId : BeatmapId) (mode : Option GameMode) (pageSize : Nat) (viewer : Option User)
    (page : Nat) :
    leaderboardPage unicode db now beatmapId mode page pageSize viewer .global none =
      .ok (globalPage db now beatmapId (gameMode db beatmapId mode) pageSize viewer page) := by
  let rows := boardRows db now beatmapId (gameMode db beatmapId mode)
  let found := ((query db (ranked rows)).drop ((page - 1) * pageSize)).take pageSize
  have hselect : (db.select fun row score user => row.beatmapId == beatmapId &&
      row.gamemode == gameMode db beatmapId mode && visibleScoreConditions db now score user &&
      true && true) = rows := by
    simp only [Bool.and_true]
    rfl
  have htop : (if page = 1 ∧ found ≠ [] then found.head?
      else if (ranked rows).length ≠ 0 then (query db (ranked rows)).head? else none) =
        (query db (ranked rows)).head? := by
    split
    case isTrue h =>
      obtain ⟨hpage, hfound⟩ := h
      have hsize : pageSize ≠ 0 := fun hzero => hfound (by simp [found, hzero])
      simp [found, hpage, List.head?_take, hsize]
    case isFalse =>
      split
      case isTrue => rfl
      case isFalse h =>
        have hnil : ranked rows = [] := by simpa using h
        rw [hnil]
        rfl
  have hpage : leaderboardPage unicode db now beatmapId mode page pageSize viewer .global none =
      .ok (Page.mk found (if page = 1 ∧ found ≠ [] then found.head?
        else if (ranked rows).length ≠ 0 then (query db (ranked rows)).head? else none)
        (viewer.bind fun viewer =>
          (query db ((ranked rows).filter fun (row, _) => row.userId == viewer.id)).head?)
        (ranked rows).length (gameMode db beatmapId mode)) := by
    simp only [found, ← hselect]
    rfl
  rw [hpage, htop]
  rfl

/-- The row that all three rankings put first. -/
def firstRow (db : Database) (now : Int) (beatmapId : BeatmapId) (mode : GameMode) :
    Option TotalScoreBestScore := (byKey boardKey (boardRows db now beatmapId mode)).head?

theorem firstRow_eq_some : firstRow db now beatmapId mode = some row ↔
    row ∈ boardRows db now beatmapId mode ∧
      ∀ other ∈ boardRows db now beatmapId mode, boardKey other ≤ boardKey row :=
  head?_byKey (nodup_boardRows db now beatmapId mode)

/-- The winner is taken from the first row. -/
theorem currentWinner_eq : currentWinner db now beatmapId mode =
    (firstRow db now beatmapId mode).bind fun row =>
      (db.user? row.userId).bind fun user => some (row.scoreId, row.userId, user.username) := rfl

/-- The winner is on the first line. -/
theorem currentWinner_top : currentWinner db now beatmapId mode =
    (query db (ranked (boardRows db now beatmapId mode))).head?.map fun line =>
      (line.score.id, line.user.id, line.user.username) := by
  rw [head?_query db boardRows_subset (nodup_boardRows db now beatmapId mode), currentWinner_eq]
  cases h : firstRow db now beatmapId mode with
  | none =>
    rw [firstRow] at h
    rw [h]
    rfl
  | some row =>
    have hmem := boardRows_subset (firstRow_eq_some.mp h).1
    rw [firstRow] at h
    obtain ⟨score, user, hline, hscore, huser⟩ := lineOf_eq hmem 1
    rw [h, Option.bind_some, Option.bind_some, hline, huser,
      Option.bind_some, Option.map_some]
    dsimp only
    rw [(Database.score?_eq_some.mp hscore).2, (Database.user?_eq_some.mp huser).2]

/-- Among the first places of its owner is the first row of a map. -/
theorem mem_firstPlaceScoreIds (hrow : row ∈ db.bestScores) :
    row.scoreId ∈ firstPlaceScoreIds db now row.userId mode ↔
      firstRow db now row.beatmapId mode = some row := by
  let rows := db.select fun row score user => row.gamemode == mode &&
    visibleScoreConditions db now score user
  have hkeys : (rows.map boardKey).Nodup := Database.nodup_keys db _
  have hboard : ∀ other, other ∈ boardRows db now row.beatmapId mode ↔
      other ∈ rows ∧ other.beatmapId = row.beatmapId := by
    intro other
    simp only [boardRows, rows, Database.mem_select, Bool.and_eq_true, beq_iff_eq]
    constructor
    · rintro ⟨hmem, score, user, hscore, huser, ⟨hmap, hmode⟩, hvisible⟩
      exact ⟨⟨hmem, score, user, hscore, huser, hmode, hvisible⟩, hmap⟩
    · rintro ⟨⟨hmem, score, user, hscore, huser, hmode, hvisible⟩, hmap⟩
      exact ⟨hmem, score, user, hscore, huser, ⟨hmap, hmode⟩, hvisible⟩
  have hfirst : row.scoreId ∈ firstPlaceScoreIds db now row.userId mode ↔
      row ∈ firstRows (·.beatmapId) boardKey rows := by
    simp only [firstPlaceScoreIds, List.mem_map, List.mem_filter, Bool.and_eq_true, beq_iff_eq,
      firstRows, decide_eq_true_eq]
    constructor
    · rintro ⟨other, ⟨hother, hposition, _⟩, hid⟩
      obtain rfl : other = row :=
        List.inj_on_of_nodup_map db.bestScoreIds (Database.mem_select.mp hother).1 hrow hid
      exact ⟨hother, hposition⟩
    · rintro ⟨hmem, hposition⟩
      exact ⟨row, ⟨hmem, hposition, rfl⟩, rfl⟩
  rw [hfirst, mem_firstRows hkeys, firstRow_eq_some, hboard]
  constructor
  · rintro ⟨hmem, hle⟩
    exact ⟨⟨hmem, rfl⟩, fun other hother => hle other ((hboard other).mp hother).1
      ((hboard other).mp hother).2⟩
  · rintro ⟨⟨hmem, _⟩, hle⟩
    exact ⟨hmem, fun other hother hmap => hle other ((hboard other).mpr ⟨hother, hmap⟩)⟩

/-- What the pages of the global board, counted from one, say of the map, and what the other two
rankings say of its first place. -/
structure SameFirstPlace (db : Database) (now : Int) (beatmapId : BeatmapId) (mode : GameMode)
    (pageSize : Nat) (page : Nat → Page) : Prop where
  /-- The winner is the top of every page. -/
  winner : ∀ n, 1 ≤ n → currentWinner db now beatmapId mode =
    (page n).top.map fun line => (line.score.id, line.user.id, line.user.username)
  /-- The first line of the first page is the top. -/
  first : (page 1).rows.head? = (page 1).top
  /-- No other line has the position one. -/
  position : ∀ n, 1 ≤ n → ∀ line ∈ (page n).rows, line.position = 1 ↔ (page n).top = some line
  /-- It is the score of the map that is among the first places of its owner. -/
  profile : ∀ scoreId, (∃ score ∈ db.scores, score.id = scoreId ∧ score.beatmapId = beatmapId ∧
      scoreId ∈ firstPlaceScoreIds db now score.userId mode) ↔
    (currentWinner db now beatmapId mode).map (·.1) = some scoreId
  /-- The users with a visible score are counted. -/
  total : ∀ n, (page n).total = (db.users.filter (hasVisibleScore db now beatmapId mode)).length
  /-- The pages have one line of each of them. -/
  users : ∀ n, (page n).total ≤ n * pageSize →
    (((List.range n).flatMap fun i => (page (i + 1)).rows).map (·.user)).Perm
      (db.users.filter (hasVisibleScore db now beatmapId mode))
  /-- The positions are consecutive. -/
  positions : ∀ n, (page n).total ≤ n * pageSize →
    ((List.range n).flatMap fun i => (page (i + 1)).rows).map (·.position) =
      List.range' 1 (page n).total

theorem winner_scoreId : (currentWinner db now beatmapId mode).map (·.1) =
    (firstRow db now beatmapId mode).map (·.scoreId) := by
  rw [currentWinner_eq]
  cases h : firstRow db now beatmapId mode with
  | none => rfl
  | some row =>
    have hrow := boardRows_subset (firstRow_eq_some.mp h).1
    obtain ⟨_, user, _, huser, _⟩ := Database.exists_joined hrow
    rw [Option.bind_some, huser]
    rfl

/-- One score of the map is among the first places of its owner, that of the winner. -/
theorem exists_firstPlace_iff (scoreId : ScoreId) :
    (∃ score ∈ db.scores, score.id = scoreId ∧ score.beatmapId = beatmapId ∧
      scoreId ∈ firstPlaceScoreIds db now score.userId mode) ↔
    (currentWinner db now beatmapId mode).map (·.1) = some scoreId := by
  rw [winner_scoreId, Option.map_eq_some_iff]
  constructor
  · intro ⟨score, hscore, hid, hmap, hfirst⟩
    obtain ⟨row, hmem, hrowId⟩ := List.mem_map.mp hfirst
    obtain ⟨hselected, hposition⟩ := List.mem_filter.mp hmem
    have howner : row.userId = score.userId := by
      rw [Bool.and_eq_true, beq_iff_eq, beq_iff_eq] at hposition
      exact hposition.2
    have hrow := (Database.mem_select.mp hselected).1
    obtain ⟨joined, _, hjoined, _, _, _, hjoinedMap, _⟩ := Database.exists_joined hrow
    rw [Database.score?_eq_some.mpr ⟨hscore, hid.trans hrowId.symm⟩, Option.some.injEq] at hjoined
    rw [← hrowId, ← howner, mem_firstPlaceScoreIds hrow] at hfirst
    rw [← hmap, hjoined, hjoinedMap]
    exact ⟨row, hfirst, hrowId⟩
  · intro ⟨row, hrow, hid⟩
    obtain ⟨hmem, _⟩ := firstRow_eq_some.mp hrow
    have hbest := boardRows_subset hmem
    obtain ⟨_, _, _, _, _, hcond⟩ := Database.mem_select.mp hmem
    have hmap : row.beatmapId = beatmapId := by
      rw [Bool.and_eq_true, Bool.and_eq_true, beq_iff_eq] at hcond
      exact hcond.1.1
    obtain ⟨score, _, hscore, _, hscoreId, howner, hscoreMap, _⟩ := Database.exists_joined hbest
    refine ⟨score, (Database.score?_eq_some.mp hscore).1, hscoreId.trans hid,
      hscoreMap.trans hmap, ?_⟩
    rw [howner, ← hid, mem_firstPlaceScoreIds hbest, hmap]
    exact hrow

theorem head?_iff_position {lines : List Line} {total : Nat}
    (hpositions : lines.map (·.position) = List.range' 1 total) {line : Line}
    (hline : line ∈ lines) : line.position = 1 ↔ lines.head? = some line := by
  cases lines with
  | nil => exact absurd hline List.not_mem_nil
  | cons first rest =>
    cases total with
    | zero => exact absurd hpositions (by simp)
    | succ total =>
      rw [List.range'_succ, List.map_cons] at hpositions
      obtain ⟨hfirst, hrest⟩ := List.cons.inj hpositions
      rw [List.head?_cons, Option.some.injEq]
      constructor
      · intro hone
        rcases List.mem_cons.mp hline with rfl | hmem
        · rfl
        · have hlater : line.position ∈ List.range' 2 total := hrest ▸ List.mem_map_of_mem hmem
          have := (List.mem_range'_1.mp hlater).1
          omega
      · intro heq
        rw [← heq, hfirst]

/-- The announcements, the profiles and every page agree on the first place. -/
theorem same_first_place (unicode : Unicode) (db : Database) (now : Int) (beatmapId : BeatmapId)
    (mode : Option GameMode) (pageSize : Nat) (hsize : 0 < pageSize) (viewer : Option User) :
    ∃ page : Nat → Page,
      (∀ n, leaderboardPage unicode db now beatmapId mode n pageSize viewer .global none =
        .ok (page n)) ∧
      SameFirstPlace db now beatmapId (gameMode db beatmapId mode) pageSize page := by
  let rows := boardRows db now beatmapId (gameMode db beatmapId mode)
  have hrows : rows ⊆ db.bestScores := boardRows_subset
  have hkeys : (rows.map boardKey).Nodup := nodup_boardRows db _ _ _
  have hpositions : (query db (ranked rows)).map (·.position) =
      List.range' 1 (ranked rows).length := by
    rw [query_ranked db hrows hkeys]
    exact positions_standings db hrows hkeys
  have husers := users_query db hrows hkeys fun user huser => hasVisibleScore_iff huser
  have hlength : (query db (ranked rows)).length = (ranked rows).length := by
    simpa using congrArg List.length hpositions
  have hall : ∀ n, (ranked rows).length ≤ n * pageSize →
      ((List.range n).flatMap fun i => ((query db (ranked rows)).drop ((i + 1 - 1) * pageSize)).take
        pageSize) = query db (ranked rows) := by
    intro n hn
    simp only [Nat.add_sub_cancel]
    rw [flatMap_pages, List.take_of_length_le (hlength ▸ hn)]
  refine ⟨globalPage db now beatmapId (gameMode db beatmapId mode) pageSize viewer,
    leaderboardPage_global unicode db now beatmapId mode pageSize viewer, ?_⟩
  exact
    { winner := fun _ _ => currentWinner_top
      first := by
        show (((query db (ranked rows)).drop (0 * pageSize)).take pageSize).head? = _
        rw [Nat.zero_mul, List.drop_zero, List.head?_take, if_neg hsize.ne']
        rfl
      position := by
        intro n _ line hline
        exact head?_iff_position hpositions (List.mem_of_mem_drop (List.mem_of_mem_take hline))
      profile := exists_firstPlace_iff
      total := by
        intro n
        show (ranked rows).length = _
        rw [← hlength, ← husers.length_eq, List.length_map]
      users := by
        intro n hn
        show (List.map _ ((List.range n).flatMap fun i => ((query db (ranked rows)).drop
          ((i + 1 - 1) * pageSize)).take pageSize)).Perm _
        rw [hall n hn]
        exact husers
      positions := by
        intro n hn
        show List.map _ ((List.range n).flatMap fun i => ((query db (ranked rows)).drop
          ((i + 1 - 1) * pageSize)).take pageSize) = _
        rw [hall n hn]
        exact hpositions }

/-! ## A tie

The users 10 and 12 have equal totals, and 11, who has a higher one, is restricted. -/

def tiedScore (id userId : Nat) : Score := ⟨id, userId, 101, true, true, true⟩

def tiedUser (id : Nat) (username : String) : User := ⟨id, username, "XX", true, false, false⟩

def tied : Database where
  scores := [tiedScore 501 10, tiedScore 503 10, tiedScore 504 11, tiedScore 505 12]
  users := [tiedUser 10 "a", tiedUser 11 "b", tiedUser 12 "c"]
  bestScores := [⟨10, 501, 101, .osu, 900000, []⟩, ⟨10, 503, 101, .osu, 960000, ["DT", "HD"]⟩,
    ⟨11, 504, 101, .osu, 990000, []⟩, ⟨12, 505, 101, .osu, 960000, []⟩]
  accountHistory := [⟨11, .restriction, true, 0, 0⟩]
  relationships := []
  beatmapMode _ := some .osu
  scoreIds := by decide
  userIds := by decide
  bestScoreIds := by decide
  hasScore := by decide
  hasUser := by decide

def ascii : Unicode := ⟨Char.isWhitespace, List.map Char.toUpper⟩

theorem same_first_place_tied : currentWinner tied 0 101 .osu = some (505, 12, "c") ∧
    ∃ page : Nat → Page,
      (∀ n, leaderboardPage ascii tied 0 101 none n 50 none .global none = .ok (page n)) ∧
      SameFirstPlace tied 0 101 .osu 50 page :=
  ⟨by decide, same_first_place ascii tied 0 101 none 50 (by decide) none⟩

end Soms.Boards.Website

import Mathlib.Data.List.Nodup

/-!
# Medals

`process_achievements` and `unlock_achievements` of `database/achievement.py`, as the tasks that
finalise scores run them next to each other, and the endpoint of `router/v2/me.py` for the medals
that the game itself grants.  A task is interrupted between any two of its statements, and its
writes are seen when it commits.  Any number of tasks may be given the same score.
-/

namespace Soms.Medals

abbrev UserId := Nat
abbrev ScoreId := Nat
abbrev MedalId := Nat
abbrev TaskId := Nat

structure Achievement where
  id : MedalId
  clientside : Bool := false
  /-- Whether `MEDALS` has a processor for it. -/
  processor : Bool := true
  deriving DecidableEq, Repr

/-- `MEDALS` -/
structure Registry where
  medals : List Achievement
  distinct : (medals.map Achievement.id).Nodup
  clientside : ∀ medal ∈ medals, medal.clientside = true → medal.processor = false

/-- The ids of `achievements/clientside.py`, whose medals have no processors. -/
def clientside : List MedalId := [353, 354, 355, 356]

/-- The ids of the other files of `achievements`. -/
def processed : List MedalId :=
  -- `daily_challenge.py`
  [336, 337, 338] ++
  -- `hush_hush.py`
  [41, 44, 134, 137, 287, 138, 140, 144, 147, 148, 150, 151, 152, 153, 154, 160, 199, 202, 223, 225,
    273, 279, 285, 318, 319, 328, 346, 349] ++
  -- `mods.py`
  [119, 120, 121, 122, 123, 124, 125, 126, 127, 128, 131, 339, 340] ++
  -- `osu_combo.py` and `osu_playcount.py`
  [1, 3, 4, 5] ++ [20, 21, 22, 28] ++
  -- `skill.py`
  [55, 56, 57, 58, 59, 60, 61, 62, 242, 244, 63, 64, 65, 66, 67, 68, 69, 70, 243, 245, 71, 72, 73,
    74, 75, 76, 77, 78, 95, 96, 97, 98, 99, 100, 101, 102, 79, 80, 81, 82, 83, 84, 85, 86, 103, 104,
    105, 106, 107, 108, 109, 110, 87, 88, 89, 90, 91, 92, 93, 94, 111, 112, 113, 114, 115, 116, 117,
    118] ++
  -- `total_hits.py`
  [31, 32, 33, 291, 13, 23, 24, 292, 46, 47, 48, 293]

/-- The medals that `load_achievements` finds. -/
def registry : Registry where
  medals := clientside.map (fun id => ⟨id, true, false⟩) ++ processed.map fun id => ⟨id, false, true⟩
  distinct := by decide +kernel
  clientside := by decide +kernel

/-- What a score and its beatmap say of the chart. -/
structure Score where
  mapMd5 : String
  checksum : String
  deriving DecidableEq, Repr

/-- What does not change: the medals, the users of the scores, and `str.lower`. -/
structure Site where
  registry : Registry
  user : ScoreId → UserId
  lower : String → String

/-- The score was set on the chart that the server has. -/
def Site.Fits (site : Site) (score : Score) : Prop :=
  site.lower score.mapMd5 = site.lower score.checksum

instance (site : Site) (score : Score) : Decidable (site.Fits score) :=
  inferInstanceAs (Decidable (_ = _))

/-- The game grants the medal. -/
def Site.Clientside (site : Site) (id : MedalId) : Prop :=
  ∃ medal ∈ site.registry.medals, medal.id = id ∧ medal.clientside = true

instance (site : Site) (id : MedalId) : Decidable (site.Clientside id) :=
  inferInstanceAs (Decidable (∃ medal ∈ site.registry.medals, _))

/-- What a task has done. -/
inductive Phase where
  | delivered (score : ScoreId)
  /-- The user of the score is known, and the snapshot is given up. -/
  | found (score : ScoreId)
  /-- It has the lock of the user's row. -/
  | locked (score : ScoreId)
  | fitting (score : ScoreId) (row : Score)
  /-- The medals whose processors are still to be asked, and those that are due. -/
  | checking (score : ScoreId) (row : Score) (todo result : List Achievement)
  /-- `unlock_achievements`, called for a score or by the endpoint: the medals that are still to
  be published, and those that were added. -/
  | unlocking (user : UserId) (score : Option ScoreId) (todo added : List MedalId)
  /-- `process_achievements` has looked at the score and returned. -/
  | complete (score : ScoreId)
  | ended
  deriving DecidableEq, Repr

/-- The user whose row a task has locked. -/
def Phase.holds (site : Site) : Phase → Option UserId
  | .locked score => some (site.user score)
  | .fitting score _ => some (site.user score)
  | .checking score _ _ _ => some (site.user score)
  | .unlocking user (some _) _ _ => some user
  | _ => none

/-- An answer of a processor. -/
structure Check where
  task : TaskId
  score : ScoreId
  row : Score
  medal : MedalId
  due : Bool
  deriving DecidableEq, Repr

structure State where
  scores : ScoreId → Option Score
  users : UserId → Bool
  /-- `UserAchievement` -/
  rows : List (UserId × MedalId)
  /-- The rows of `Event` for medals. -/
  events : List (UserId × MedalId)
  /-- The notifications. -/
  published : List (UserId × MedalId)
  tasks : List Phase
  /-- What the processors have answered, the newest first. -/
  checks : List Check

namespace State

def empty (scores : ScoreId → Option Score) (users : UserId → Bool) : State :=
  ⟨scores, users, [], [], [], [], []⟩

def goto (t : TaskId) (phase : Phase) (s : State) : State :=
  { s with tasks := s.tasks.set t phase }

/-- `not_achieved` -/
def notAchieved (site : Site) (s : State) (user : UserId) : List Achievement :=
  site.registry.medals.filter fun medal => (user, medal.id) ∉ s.rows

/-- The next statement of a task; `due` is what a processor answers if one is asked. -/
def advance (site : Site) (t : TaskId) (due : Bool) (s : State) : Phase → State
  | .delivered score => s.goto t (if (s.scores score).isSome then .found score else .ended)
  | .found score =>
    -- `with_for_update` waits for the lock.
    if s.tasks.any fun other => other.holds site == some (site.user score) then s
    else s.goto t (if s.users (site.user score) then .locked score else .ended)
  | .locked score =>
    match s.scores score with
    | none => s.goto t .ended
    | some row => s.goto t (if site.Fits row then .fitting score row else .ended)
  | .fitting score row =>
    s.goto t (.checking score row (s.notAchieved site (site.user score)) [])
  | .checking score row (medal :: todo) result =>
    if medal.processor then
      { s with checks := ⟨t, score, row, medal.id, due⟩ :: s.checks }.goto t
        (.checking score row todo (if due then result ++ [medal] else result))
    else s.goto t (.checking score row todo result)
  | .checking score _ [] result =>
    s.goto t (if result = [] then .complete score
      else .unlocking (site.user score) (some score) (result.map Achievement.id) [])
  | .unlocking user score (medal :: todo) added =>
    { s with published := (user, medal) :: s.published }.goto t
      (.unlocking user score todo (added ++ [medal]))
  | .unlocking user score [] added =>
    { s with
      rows := s.rows ++ added.map fun medal => (user, medal)
      events := s.events ++ added.map fun medal => (user, medal) }.goto t
      (score.elim .ended .complete)
  | .complete _ => s
  | .ended => s

end State

/-- A task that has returned. -/
def Phase.isOver : Phase → Bool
  | .complete _ => true
  | .ended => true
  | _ => false

inductive Event where
  | deliver (score : ScoreId)
  /-- `unlock_clientside_achievement` -/
  | unlock (user : UserId) (id : MedalId)
  | resume (t : TaskId) (due : Bool)
  /-- The task raises or its process ends, and its transaction is rolled back. -/
  | fails (t : TaskId)
  /-- `clear_user_profile` -/
  | clear (user : UserId)
  /-- The rest of the server changes scores, beatmaps and users. -/
  | change (scores : ScoreId → Option Score) (users : UserId → Bool)

namespace State

def after (site : Site) (s : State) : Event → State
  | .deliver score => { s with tasks := s.tasks ++ [.delivered score] }
  | .unlock user id =>
    if site.Clientside id then { s with tasks := s.tasks ++ [.unlocking user none [id] []] } else s
  | .resume t due => s.tasks[t]?.elim s (s.advance site t due)
  | .fails t =>
    s.tasks[t]?.elim s fun phase => if phase.isOver then s else s.goto t .ended
  | .clear user =>
    { s with
      rows := s.rows.filter fun row => row.1 ≠ user
      events := s.events.filter fun row => row.1 ≠ user }
  | .change scores users => { s with scores := scores, users := users }

/-- The state after some events. -/
def run (site : Site) (s : State) (events : List Event) : State := events.foldl (after site) s

end State

end Soms.Medals

import Mathlib.Logic.Function.Basic
import Soms.Daily.Calendar
import Soms.Library.Run

/-!
# The daily challenge

`database/daily_challenge.py` and the nightly job of `tasks/daily_challenge.py`:
the statistics of a user, the submission of a score in the room of the day and
the placements of the day before.
-/

namespace Soms.Daily

abbrev UserId := Nat

structure DailyChallengeStats where
  dailyStreakBest : Nat := 0
  dailyStreakCurrent : Nat := 0
  lastUpdate : Option Time := none
  lastDayStreak : Option Time := none
  lastWeeklyStreak : Option Time := none
  playcount : Nat := 0
  top10pPlacements : Nat := 0
  top50pPlacements : Nat := 0
  weeklyStreakBest : Nat := 0
  weeklyStreakCurrent : Nat := 0
  deriving DecidableEq, Repr

namespace DailyChallengeStats

/-- `stats.last_update.date() == d` -/
def updatedOn (st : DailyChallengeStats) (d : Day) : Bool := st.lastUpdate.any fun t => date t == d

/-- The daily part of `process_daily_challenge_score`. -/
def countDay (now : Time) (st : DailyChallengeStats) : DailyChallengeStats :=
  let st := { st with playcount := st.playcount + 1 }
  if st.lastUpdate.isNone then { st with dailyStreakBest := 1, dailyStreakCurrent := 1 }
  else if st.updatedOn (date now - 1) then
    let st := { st with dailyStreakCurrent := st.dailyStreakCurrent + 1 }
    if st.dailyStreakBest < st.dailyStreakCurrent then
      { st with dailyStreakBest := st.dailyStreakCurrent }
    else st
  else if st.updatedOn (date now) then { st with playcount := st.playcount - 1 }
  else { st with dailyStreakCurrent := 1 }

/-- The weekly part of `process_daily_challenge_score`. -/
def countWeek (now : Time) (st : DailyChallengeStats) : DailyChallengeStats :=
  match st.lastWeeklyStreak with
  | none => { st with weeklyStreakCurrent := 1, weeklyStreakBest := 1 }
  | some t =>
    if areAdjacentWeeks t now then
      let st := { st with weeklyStreakCurrent := st.weeklyStreakCurrent + 1 }
      if st.weeklyStreakBest < st.weeklyStreakCurrent then
        { st with weeklyStreakBest := st.weeklyStreakCurrent }
      else st
    else if date t = date now then st
    else { st with weeklyStreakCurrent := 1 }

/-- The statistics of a user who did not take part on the day before. -/
def reset (now : Time) (st : DailyChallengeStats) : DailyChallengeStats :=
  if st.updatedOn (date now) then st
  else
    let st := { st with dailyStreakCurrent := 0 }
    let st :=
      if st.lastWeeklyStreak.any fun t => !areSameWeeks t (now - 7 * dayLength) then
        { st with weeklyStreakCurrent := 0 }
      else st
    { st with lastUpdate := some now }

/-- The placement number `i` of `total` on the day before.  The quotient is
rounded up before it is compared. -/
def place (now : Time) (i total : Nat) (st : DailyChallengeStats) : DailyChallengeStats :=
  let ceil := (i + 1 + total - 1) / total
  let st :=
    if st.updatedOn (date now) then st
    else
      let st := if total < 10 ∨ 10 * ceil ≤ 1 then
          { st with top10pPlacements := st.top10pPlacements + 1 }
        else st
      if total < 2 ∨ 2 * ceil ≤ 1 then { st with top50pPlacements := st.top50pPlacements + 1 }
      else st
  { st with lastUpdate := some now }

end DailyChallengeStats

/-- The table of the statistics. -/
abbrev Stats := UserId → Option DailyChallengeStats

/-- `process_daily_challenge_score`.  `passed` says whether the user's best score in
the room exists and is a pass. -/
def processDailyChallengeScore (now : Time) (uid : UserId) (passed : Bool) (stats : Stats) :
    Stats :=
  if passed then
    let st := ((stats uid).getD {}).countDay now |>.countWeek now
    Function.update stats uid <| some
      { st with lastUpdate := some now, lastDayStreak := some now, lastWeeklyStreak := some now }
  else stats

/-- The placements: the users with a passed best score in the room that ended, by
falling total. -/
def placeAll (now : Time) (total : Nat) : Nat → List UserId → Stats → Stats
  | _, [], stats => stats
  | i, uid :: rest, stats =>
    placeAll now total (i + 1) rest
      (Function.update stats uid ((stats uid).map (·.place now i total)))

/-- `process_daily_challenge_top`.  Without a room nobody took part. -/
def processDailyChallengeTop (now : Time) (scores : List UserId) (stats : Stats) : Stats :=
  let placed := placeAll now scores.length 0 scores stats
  fun uid => if uid ∈ scores then placed uid else (placed uid).map (·.reset now)

/-! ## The system -/

structure State where
  stats : Stats
  clock : Time
  /-- The day whose nightly job ran last. -/
  lastJob : Day

/-- When the job of a day runs. -/
def jobTime (d : Day) : Time := d * dayLength + 60000000

inductive Event where
  /-- A row is made with the account. -/
  | register (now : Time) (uid : UserId)
  /-- A passed score is submitted in the room of a day. -/
  | submit (now : Time) (uid : UserId) (passed : Bool)
  /-- The nightly job, with the users placed in the room that ended. -/
  | nightly (scores : List UserId)
  deriving DecidableEq, Repr

/-- Time does not run backwards and the job runs once a day, at its time. -/
inductive Step : State → Event → State → Prop
  | register {s : State} {now : Time} {uid : UserId} (hclock : s.clock ≤ now)
      (hjob : now < jobTime (s.lastJob + 1)) (hnew : s.stats uid = none) :
      Step s (.register now uid)
        { s with stats := Function.update s.stats uid (some {}), clock := now }
  | submit {s : State} {now : Time} {uid : UserId} {passed : Bool} (hclock : s.clock ≤ now)
      (hjob : now < jobTime (s.lastJob + 1)) :
      Step s (.submit now uid passed)
        { s with stats := processDailyChallengeScore now uid passed s.stats, clock := now }
  | nightly {s : State} {scores : List UserId} :
      Step s (.nightly scores)
        { stats := processDailyChallengeTop (jobTime (s.lastJob + 1)) scores s.stats
          clock := jobTime (s.lastJob + 1)
          lastJob := s.lastJob + 1 }

/-- Before the first event: no statistics, and the day's job has run. -/
structure Initial (s : State) : Prop where
  empty : ∀ uid, s.stats uid = none
  afterJob : jobTime s.lastJob ≤ s.clock
  beforeNext : s.clock < jobTime (s.lastJob + 1)

/-- The days on which the user passed the challenge. -/
def daysPassed (h : List (Event × State)) (uid : UserId) : List Day :=
  h.filterMap fun x =>
    match x.1 with
    | .submit now uid' true => if uid' = uid then some (date now) else none
    | _ => none

end Soms.Daily

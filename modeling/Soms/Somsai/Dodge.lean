import Soms.Somsai.Party

/-!
# Dodge penalties

`ranked_dodge_service.py` as SOMSAI uses it.  The penalty key of a native room is
its id; SOMSAI uses negative keys, which no room has.
-/

namespace Soms.Somsai

open Txn

/-! ## The calendar -/

def microsPerDay : Int := 86400000000

/-- Days since 1970-01-01 of a civil date in the proleptic Gregorian calendar. -/
def daysFromCivil (year month day : Int) : Int :=
  let y := if month ≤ 2 then year - 1 else year
  let era := y / 400
  let yearOfEra := y - era * 400
  let dayOfYear := (153 * (if 2 < month then month - 3 else month + 9) + 2) / 5 + day - 1
  let dayOfEra := yearOfEra * 365 + yearOfEra / 4 - yearOfEra / 100 + dayOfYear
  era * 146097 + dayOfEra - 719468

/-- The civil date (year, month, day) of a day number. -/
def civilFromDays (days : Int) : Int × Int × Int :=
  let z := days + 719468
  let era := z / 146097
  let dayOfEra := z - era * 146097
  let yearOfEra := (dayOfEra - dayOfEra / 1460 + dayOfEra / 36524 - dayOfEra / 146096) / 365
  let dayOfYear := dayOfEra - (365 * yearOfEra + yearOfEra / 4 - yearOfEra / 100)
  let mp := (5 * dayOfYear + 2) / 153
  let day := dayOfYear - (153 * mp + 2) / 5 + 1
  let month := if mp < 10 then mp + 3 else mp - 9
  let year := yearOfEra + era * 400 + (if month ≤ 2 then 1 else 0)
  (year, month, day)

/-- `calendar.monthrange(year, month)[1]`. -/
def daysInMonth (year month : Int) : Int :=
  let following := if month = 12 then daysFromCivil (year + 1) 1 1 else daysFromCivil year (month + 1) 1
  following - daysFromCivil year month 1

/-- The same time of day a number of months later, on the last day of the month
when the day does not exist. -/
def addMonths (now : Time) (months : Int) : Time :=
  let (y, m, d) := civilFromDays (now / microsPerDay)
  let total := y * 12 + m - 1 + months
  let year := total / 12
  let month := total % 12 + 1
  daysFromCivil year month (min d (daysInMonth year month)) * microsPerDay + now % microsPerDay

example : civilFromDays (daysFromCivil 2024 2 29) = (2024, 2, 29) := by decide

/-! ## Penalties -/

/-- Minutes of the first ten levels. -/
def penaltyMinutes : List Int := [5, 15, 30, 60, 90, 120, 1440, 10080, 20160, 43200]

/-- `penalty_end` for the levels 1 to 14. -/
def penaltyEnd (now : Time) (level : Nat) : Option Time :=
  match level with
  | 11 => some (addMonths now 3)
  | 12 => some (addMonths now 6)
  | 13 => some (addMonths now 12)
  | level => (penaltyMinutes[level - 1]?).map fun minutes => now + seconds (minutes * 60)

structure DodgeStatus where
  userId : UserId
  level : Nat := 0
  expiresAt : Option Time := none
  accountBanned : Bool := false
  deriving DecidableEq, Repr

/-- `status_for`. -/
def statusFor (penalty : DodgePenalty) : DodgeStatus :=
  { userId := penalty.userId, level := penalty.level, expiresAt := penalty.expiresAt,
    accountBanned := penalty.accountBanned }

/-- Whether `a` comes before `b` in the order of `latest_penalty`. -/
def DodgePenalty.later (a b : DodgePenalty) : Bool :=
  decide (b.createdAt < a.createdAt) ||
    (decide (a.createdAt = b.createdAt) &&
      (decide (b.level < a.level) || (decide (a.level = b.level) && decide (b.roomId < a.roomId))))

/-- A fold that at each element keeps what it has or takes the element. -/
theorem foldl_keeps_or_takes {α : Type} {step : Option α → α → Option α}
    (hstep : ∀ best x, step best x = best ∨ step best x = some x) {l : List α} {best : Option α}
    {y : α} (h : l.foldl step best = some y) : best = some y ∨ y ∈ l := by
  induction l generalizing best with
  | nil => exact .inl h
  | cons x rest ih =>
    rcases ih h with hstart | hmem
    · rcases hstep best x with hkeep | htake
      · exact .inl (hkeep ▸ hstart)
      · obtain rfl := Option.some.inj (htake.symm.trans hstart)
        exact .inr List.mem_cons_self
    · exact .inr (List.mem_cons_of_mem x hmem)

namespace World

/-- `latest_penalty`. -/
def latestPenalty (w : World) (uid : UserId) : Option DodgePenalty :=
  (w.penalties.filter fun p => p.userId = uid).foldl
    (fun best p =>
      match best with
      | none => some p
      | some b => if p.later b then some p else some b)
    none

/-- The penalty stored under a key. -/
def penaltyAt (w : World) (key : Int) : Option DodgePenalty :=
  w.penalties.find? fun p => p.roomId = key

/-- The next level: one more within 48 hours after the end of the last penalty. -/
def nextLevel (w : World) (now : Time) (uid : UserId) : Nat :=
  match w.latestPenalty uid with
  | none => 1
  | some previous =>
    match previous.expiresAt with
    | none => min 14 (previous.level + 1)
    | some expires => if now < expires + seconds (48 * 3600) then min 14 (previous.level + 1) else 1

/-- The penalty of a key that has none yet. -/
def newPenalty (w : World) (now : Time) (key : Int) (uid : UserId) : DodgePenalty :=
  let level := w.nextLevel now uid
  { roomId := key, userId := uid, level := level, createdAt := now,
    expiresAt := penaltyEnd now level, accountBanned := decide (level = 14) }

/-- Store a new penalty; level 14 also deactivates the account. -/
def addPenalty (w : World) (now : Time) (key : Int) (uid : UserId) : World :=
  let penalty := w.newPenalty now key uid
  { w with
    penalties := w.penalties ++ [penalty]
    users := if penalty.accountBanned then
        w.users.modify uid fun user => { user with isActive := false }
      else w.users }

end World

/-- `register_dodge` of a key that has no penalty yet.  `room` tells whether the key names a room
and whether that room plays Ranked. -/
def newDodge (now : Time) (key : Int) (uid : UserId) (room : Option Bool)
    (allowMissingRoom : Bool) : Act DodgeStatus := do
  refuse (fun w => (w.users.row uid).isNone) (.other "Player not found")
  refuse (fun _ => (room = none ∧ allowMissingRoom = false) ∨ room = some false)
    (.other "Ranked room not found")
  -- A DATETIME column stores whole seconds.
  let penalty ← read fun w => w.newPenalty (now / 1000000 * 1000000) key uid
  write fun w => w.addPenalty (now / 1000000 * 1000000) key uid
  pure (statusFor penalty)

/-- `register_dodge`. -/
def registerDodge (now : Time) (key : Int) (uid : UserId) (room : Option Bool)
    (allowMissingRoom : Bool) : Act DodgeStatus := do
  let existing ← read fun w => w.penaltyAt key
  match existing with
  | some penalty => pure (statusFor penalty)
  | none => newDodge now key uid room allowMissingRoom

/-- What an added penalty leaves alone, a registered dodge leaves alone. -/
theorem leaves_registerDodge {γ : Type} {π : World → γ} {now : Time} {key : Int} {uid : UserId}
    {room : Option Bool} {missing : Bool}
    [h : ∀ now, Frame π fun w : World => w.addPenalty now key uid] :
    Leaves π (registerDodge now key uid room missing) := by
  unfold registerDodge
  refine Leaves.bind inferInstance fun existing => ?_
  cases existing with
  | some penalty => exact leaves_pure (statusFor penalty)
  | none =>
    unfold newDodge
    infer_instance

/-- `dodge_status`. -/
def dodgeStatus (uid : UserId) : Act DodgeStatus := do
  let user ← require (fun w => w.users.row uid) (.other "Player not found")
  let previous ← read fun w => w.latestPenalty uid
  let status := (previous.map statusFor).getD { userId := uid }
  pure { status with accountBanned := !user.isActive }

end Soms.Somsai

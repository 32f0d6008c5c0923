import Mathlib.Tactic.FinCases
import Mathlib.Tactic.Linarith
import Mathlib.Tactic.NormNum
import Soms.Library.Table
import Soms.Library.Txn
import Soms.Mods.Definitions

/-!
# Marathons

`marathon_service.py`: a marathon is played through in an attempt, which may end when the playback
can have ended.  The rate of the playback is read from the mods of the attempt.  Times are in
seconds and numbers rational.
-/

namespace Soms.Marathons

open Txn
open Soms.Mods (apiMods getDefaultSetting getSpeedRate multiplyRate speedMods toNumber)
open Soms.Replays (APIMod Value)

abbrev UserId := Nat
abbrev MarathonId := Nat
abbrev AttemptId := Nat

/-- `MarathonSegment`, as far as its length. -/
structure MarathonSegment where
  startMs : Nat
  endMs : Nat
  valid_range : 5000 ≤ endMs - startMs ∧ endMs - startMs ≤ 180000

/-- `CreateMarathon`.  Fragments of more than 90 seconds are those of older marathons. -/
structure CreateMarathon where
  name : String
  rulesetId : Fin 4
  segments : List MarathonSegment
  two_segments : 2 ≤ segments.length
  twenty_segments : segments.length ≤ 20

/-- `duration_ms`: a second and a half before and after each song, and a second of crossfade. -/
def durationMs (segments : List MarathonSegment) : Int :=
  (segments.map fun segment => (segment.endMs : Int) - segment.startMs + 3000).sum -
    ((segments.length : Int) - 1) * 1000

structure Marathon where
  ownerId : UserId
  payload : CreateMarathon
  durationMs : Int
  deleted : Bool := false
  duration_eq : durationMs = Marathons.durationMs payload.segments

/-- `soms_marathon_scores` -/
structure MarathonScore where
  marathonId : MarathonId
  userId : UserId
  attemptId : AttemptId
  totalScore : Nat
  accuracy : ℚ
  maxCombo : Nat
  mods : List APIMod

/-- `marathon:attempt:{attempt_id}` -/
structure Attempt where
  userId : UserId
  marathonId : MarathonId
  mods : List APIMod
  startedAt : ℚ
  minimumSeconds : ℚ
  assisted : Bool

structure SubmitMarathonScore where
  attemptId : AttemptId
  totalScore : Nat
  accuracy : ℚ
  maxCombo : Nat

inductive Error where
  | marathonNotFound
  | restricted
  | tooMany
  | unknownMod
  | tooManySettings
  /-- A setting of a speed mod is no number. -/
  | typeError
  | attemptNotFound
  | expired
  | unfinished
  deriving DecidableEq, Repr

/-- The status and the text. -/
def Error.value : Error → Nat × String
  | .marathonNotFound => (404, "Марафон не найден")
  | .restricted => (403, "Недоступно для ограниченного аккаунта")
  | .tooMany => (422, "Можно сохранить до 100 марафонов. Удалите ненужные подборки.")
  | .unknownMod => (422, "Неизвестный мод")
  | .tooManySettings => (422, "Слишком много настроек модов")
  | .typeError => (500, "Internal Server Error")
  | .attemptNotFound => (404, "Попытка не найдена")
  | .expired => (422, "Срок этой попытки истёк")
  | .unfinished => (422, "Марафон ещё не завершён")

inductive Submitted where
  | saved (id : Nat)
  | assisted
  deriving DecidableEq, Repr

structure State where
  now : ℚ
  restricted : UserId → Bool
  marathons : Table Marathon
  scores : Table MarathonScore
  /-- The attempts in Redis, each with the time it expires. -/
  attempts : AttemptId → Option (Attempt × ℚ)

namespace State

def visibleMarathon (mid : MarathonId) (s : State) : Option Marathon :=
  (s.marathons.row mid).filter fun marathon => !marathon.deleted

/-- The attempt that Redis has not let expire. -/
def attempt (id : AttemptId) (s : State) : Option Attempt :=
  ((s.attempts id).filter fun entry => decide (s.now < entry.2)).map Prod.fst

end State

def createMarathon (uid : UserId) (payload : CreateMarathon) : Txn State Error MarathonId := do
  refuse (fun s => s.restricted uid = true) .restricted
  refuse (fun s => 100 ≤ s.marathons.count fun m => m.ownerId == uid && !m.deleted) .tooMany
  let id ← read fun s => s.marathons.next
  write fun s => { s with
    marathons := s.marathons.insert
      { ownerId := uid, payload := payload, durationMs := durationMs payload.segments
        duration_eq := rfl } }
  return id

/-- Assisted runs have no public result. -/
def isAssisted (mods : List APIMod) : Bool :=
  mods.any fun mod => decide (mod.acronym ∈ ["AT", "CN", "AP", "RX"])

/-- `start_marathon`, with a fresh attempt id; `dumps` is the length of `json.dumps`. -/
def startMarathon (dumps : List APIMod → Nat) (uid : UserId) (mid : MarathonId)
    (mods : List APIMod) (id : AttemptId) : Txn State Error AttemptId := do
  let marathon ← require (State.visibleMarathon mid) .marathonNotFound
  refuse (fun s => s.restricted uid = true) .restricted
  refuse (fun _ => ∃ mod ∈ mods, (apiMods marathon.payload.rulesetId mod.acronym).isNone)
    .unknownMod
  refuse (fun _ => 8000 < dumps mods) .tooManySettings
  let speed ← require (fun _ => getSpeedRate mods) .typeError
  let rate : ℚ := max (1 / 10) (min 10 speed)
  write fun s => { s with
    attempts := Function.update s.attempts id (some
      ({ userId := uid, marathonId := mid, mods := mods, startedAt := s.now
         minimumSeconds := (marathon.durationMs : ℚ) / 1000 / rate * (7 / 10)
         assisted := isAssisted mods }, s.now + 24 * 60 * 60)) }
  return id

def submitMarathonScore (uid : UserId) (mid : MarathonId) (payload : SubmitMarathonScore) :
    Txn State Error Submitted := do
  let _ ← require (State.visibleMarathon mid) .marathonNotFound
  refuse (fun s => s.restricted uid = true) .restricted
  let existing ← read fun s => s.scores.find fun row => row.attemptId == payload.attemptId
  match existing with
  | some (id, row) =>
    refuse (fun _ => row.userId ≠ uid ∨ row.marathonId ≠ mid) .attemptNotFound
    return .saved id
  | none =>
    let attempt ← require (State.attempt payload.attemptId) .expired
    refuse (fun _ => attempt.userId ≠ uid ∨ attempt.marathonId ≠ mid) .attemptNotFound
    if attempt.assisted then return .assisted
    else
      refuse (fun s => s.now - attempt.startedAt < attempt.minimumSeconds) .unfinished
      let id ← read fun s => s.scores.next
      write fun s => { s with
        scores := s.scores.insert
          { marathonId := mid, userId := uid, attemptId := payload.attemptId
            totalScore := payload.totalScore, accuracy := payload.accuracy
            maxCombo := payload.maxCombo, mods := attempt.mods }
        attempts := Function.update s.attempts payload.attemptId none }
      return .saved id

/-! ## The rate of the playback -/

def isSpeed (mod : APIMod) : Bool := decide (mod.acronym ∈ speedMods)

/-- The setting of a mod that is written out. -/
def speedChange (mod : APIMod) : Option Value := (mod.settings.getD []).lookup "speed_change"

/-- The rate at which a client plays: the speed of its speed mod, by default that of the mod's
definition. -/
def playbackRate (rulesetId : Nat) (mods : List APIMod) : Option ℚ :=
  match mods.find? isSpeed with
  | none => some 1
  | some mod =>
    toNumber ((speedChange mod).getD (getDefaultSetting rulesetId mod.acronym "speed_change"))

/-- The speed mods name their speed. -/
def Explicit (mods : List APIMod) : Prop :=
  ∀ mod ∈ mods, isSpeed mod = true → (speedChange mod).isSome

/-- The seconds of a marathon at the normal rate. -/
def Marathon.seconds (marathon : Marathon) : ℚ := marathon.durationMs / 1000

/-- The attempt is in Redis as it was stored, and not yet saved. -/
structure Pending (id : AttemptId) (t u : State) : Prop where
  attempt : u.attempts id = t.attempts id
  unsaved : ∀ k row, u.scores.row k = some row → row.attemptId ≠ id

/-- From `D / r` on the attempt is never refused as unfinished, and before `0.7 * D / r` it is
always refused. -/
def Matches (uid : UserId) (mid : MarathonId) (marathon : Marathon) (id : AttemptId) (rate : ℚ)
    (startedAt : ℚ) (t : State) : Prop :=
  ∀ u payload, Pending id t u → payload.attemptId = id →
    (marathon.seconds / rate ≤ u.now - startedAt →
      (submitMarathonScore uid mid payload u).1 ≠ .error .unfinished) ∧
    (u.now - startedAt < 7 / 10 * (marathon.seconds / rate) →
      ∃ e, (submitMarathonScore uid mid payload u).1 = .error e)

variable {dumps : List APIMod → Nat} {uid : UserId} {mid : MarathonId} {mods : List APIMod}
  {id id' : AttemptId} {s t u : State} {marathon : Marathon} {rate : ℚ} {rulesetId : Fin 4}
  {payload : SubmitMarathonScore} {attempt : Attempt}

/-! ### What `get_speed_rate` reads -/

theorem multiplyRate_of_not_speed {mod : APIMod} (h : isSpeed mod = false) (rate : ℚ) :
    multiplyRate rate mod = some rate := by
  have hnot : mod.acronym ∉ speedMods := by simpa [isSpeed] using h
  rw [multiplyRate, if_neg hnot]

theorem foldlM_of_no_speed (h : ∀ mod ∈ mods, isSpeed mod = false) (rate : ℚ) :
    mods.foldlM multiplyRate rate = some rate := by
  induction mods with
  | nil => rfl
  | cons mod mods ih =>
    rw [List.foldlM_cons, multiplyRate_of_not_speed (h mod List.mem_cons_self)]
    exact ih fun mod hmod => h mod (List.mem_cons_of_mem _ hmod)

theorem getSpeedRate_of_none (h : mods.find? isSpeed = none) : getSpeedRate mods = some 1 :=
  foldlM_of_no_speed (by simpa using h) 1

/-- Of one speed mod the speed is read, with 1 for a speed that is not written out. -/
theorem getSpeedRate_of_some {mod : APIMod} (h : (mods.filter isSpeed).length ≤ 1)
    (hfind : mods.find? isSpeed = some mod) :
    getSpeedRate mods = (toNumber ((speedChange mod).getD (.float 1))).map fun modRate =>
      if modRate = 0 then 1 else modRate := by
  induction mods with
  | nil => cases hfind
  | cons first mods ih =>
    rw [getSpeedRate, List.foldlM_cons]
    cases hfirst : isSpeed first with
    | false =>
      rw [List.find?_cons_of_neg (by simp [hfirst])] at hfind
      rw [List.filter_cons_of_neg (by simp [hfirst])] at h
      rw [multiplyRate_of_not_speed hfirst]
      exact ih h hfind
    | true =>
      rw [List.find?_cons_of_pos hfirst, Option.some.injEq] at hfind
      subst hfind
      rw [List.filter_cons_of_pos hfirst, List.length_cons] at h
      have hnone : mods.filter isSpeed = [] := List.length_eq_zero_iff.mp (by omega)
      have hrest : ∀ other ∈ mods, isSpeed other = false := by
        simpa [List.filter_eq_nil_iff] using hnone
      have hspeed : first.acronym ∈ speedMods := by simpa [isSpeed] using hfirst
      rw [multiplyRate, if_pos hspeed]
      show Option.bind (Option.map _ (toNumber ((speedChange first).getD (.float 1)))) _ = _
      cases toNumber ((speedChange first).getD (.float 1)) with
      | none => rfl
      | some modRate =>
        rw [Option.map_some, Option.bind_some, foldlM_of_no_speed hrest, Option.map_some, one_mul]

/-- The speeds of the definitions. -/
theorem default_speed (rulesetId : Fin 4) {mod : APIMod} (h : isSpeed mod = true) :
    getDefaultSetting rulesetId mod.acronym "speed_change" = .float (3 / 2) ∨
      getDefaultSetting rulesetId mod.acronym "speed_change" = .float (3 / 4) := by
  have hall : ∀ rulesetId : Fin 4, ∀ acronym ∈ speedMods,
      getDefaultSetting rulesetId acronym "speed_change" = .float (3 / 2) ∨
        getDefaultSetting rulesetId acronym "speed_change" = .float (3 / 4) := by
    decide +kernel
  exact hall rulesetId mod.acronym (by simpa [isSpeed] using h)

theorem playbackRate_of_none (h : mods.find? isSpeed = none) :
    playbackRate rulesetId mods = some 1 := by
  rw [playbackRate, h]

theorem playbackRate_of_some {mod : APIMod} (h : mods.find? isSpeed = some mod) :
    playbackRate rulesetId mods =
      toNumber ((speedChange mod).getD
        (getDefaultSetting rulesetId mod.acronym "speed_change")) := by
  rw [playbackRate, h]

theorem Explicit.getSpeedRate (hexplicit : Explicit mods) (h : (mods.filter isSpeed).length ≤ 1)
    (hrate : playbackRate rulesetId mods = some rate) (hpos : 0 < rate) :
    getSpeedRate mods = some rate := by
  cases hfind : mods.find? isSpeed with
  | none =>
    rw [playbackRate_of_none hfind] at hrate
    rw [getSpeedRate_of_none hfind, hrate]
  | some mod =>
    obtain ⟨value, hvalue⟩ := Option.isSome_iff_exists.mp
      (hexplicit mod (List.mem_of_find?_eq_some hfind) (List.find?_some hfind))
    rw [playbackRate_of_some hfind, hvalue, Option.getD_some] at hrate
    rw [getSpeedRate_of_some h hfind, hvalue, Option.getD_some, hrate, Option.map_some,
      if_neg (ne_of_gt hpos)]

/-- Without its speed written out, a speed mod is read as none. -/
theorem rates_of_not_explicit (hnot : ¬ Explicit mods) (h : (mods.filter isSpeed).length ≤ 1)
    (hrate : playbackRate rulesetId mods = some rate) :
    getSpeedRate mods = some 1 ∧ (rate = 3 / 2 ∨ rate = 3 / 4) := by
  simp only [Explicit, not_forall] at hnot
  obtain ⟨mod, hmem, hmod, hnone⟩ := hnot
  have hspeed : speedChange mod = none := by simpa using hnone
  have hfind : mods.find? isSpeed = some mod := by
    have hfilter : mod ∈ mods.filter isSpeed := List.mem_filter.mpr ⟨hmem, hmod⟩
    rw [← List.head?_filter]
    cases hall : mods.filter isSpeed with
    | nil => simp [hall] at hfilter
    | cons first others =>
      rw [hall, List.length_cons] at h
      have hothers : others = [] := List.length_eq_zero_iff.mp (by omega)
      rw [hall, hothers, List.mem_singleton] at hfilter
      rw [hfilter]
      rfl
  rw [playbackRate_of_some hfind, hspeed, Option.getD_none] at hrate
  rw [getSpeedRate_of_some h hfind, hspeed, Option.getD_none]
  refine ⟨by simp [toNumber], ?_⟩
  rcases default_speed rulesetId hmod with hdefault | hdefault <;>
    rw [hdefault, toNumber, Option.some.injEq] at hrate
  · exact .inl hrate.symm
  · exact .inr hrate.symm

/-! ### The length of a marathon -/

theorem durationMs_range (segments : List MarathonSegment) :
    7000 * (segments.length : Int) + 1000 ≤ durationMs segments ∧
      durationMs segments ≤ 182000 * (segments.length : Int) + 1000 := by
  induction segments with
  | nil => decide
  | cons segment segments ih =>
    obtain ⟨hlow, hhigh⟩ := segment.valid_range
    simp only [durationMs, List.map_cons, List.sum_cons, List.length_cons] at ih ⊢
    omega

theorem Marathon.seconds_pos (marathon : Marathon) : 0 < marathon.seconds := by
  have hrange := (durationMs_range marathon.payload.segments).1
  rw [← marathon.duration_eq] at hrange
  have hpos : (0 : ℚ) < marathon.durationMs := by
    have hint : 0 < marathon.durationMs := by omega
    exact_mod_cast hint
  rw [Marathon.seconds]
  linarith

/-- No marathon is as long as an attempt is kept. -/
theorem Marathon.seconds_lt (marathon : Marathon) : marathon.seconds < 24 * 60 * 60 := by
  have hrange := (durationMs_range marathon.payload.segments).2
  have htwenty := marathon.payload.twenty_segments
  rw [← marathon.duration_eq] at hrange
  have hlt : (marathon.durationMs : ℚ) < 4000000 := by
    have hint : marathon.durationMs < 4000000 := by omega
    exact_mod_cast hint
  rw [Marathon.seconds]
  linarith

/-! ### Starting and submitting -/

/-- What an attempt holds. -/
def Marathon.attemptOf (marathon : Marathon) (uid : UserId) (mid : MarathonId)
    (mods : List APIMod) (now speed : ℚ) : Attempt where
  userId := uid
  marathonId := mid
  mods := mods
  startedAt := now
  minimumSeconds := marathon.seconds / max (1 / 10) (min 10 speed) * (7 / 10)
  assisted := isAssisted mods

theorem startMarathon_ok (h : startMarathon dumps uid mid mods id s = (.ok id', t)) :
    ∃ marathon speed, s.visibleMarathon mid = some marathon ∧ s.restricted uid = false ∧
      getSpeedRate mods = some speed ∧ id' = id ∧
      t = { s with
        attempts := Function.update s.attempts id (some
          (marathon.attemptOf uid mid mods s.now speed, s.now + 24 * 60 * 60)) } := by
  simp only [startMarathon, bind_ok, require_ok, refuse_ok, write_ok, pure_ok] at h
  obtain ⟨marathon, _, ⟨hmarathon, rfl⟩, _, _, ⟨hrestricted, rfl⟩, _, _, ⟨-, rfl⟩, _, _, ⟨-, rfl⟩,
    speed, _, ⟨hspeed, rfl⟩, _, _, rfl, rfl, rfl⟩ := h
  exact ⟨marathon, speed, hmarathon, by simpa using hrestricted, hspeed, rfl, rfl⟩

theorem find_of_unsaved (h : ∀ k row, u.scores.row k = some row → row.attemptId ≠ id) :
    u.scores.find (fun row => row.attemptId == id) = none := by
  cases hfind : u.scores.find fun row => row.attemptId == id with
  | none => rfl
  | some found =>
    obtain ⟨hrow, hid⟩ := Table.find_some (i := found.1) (a := found.2) hfind
    exact absurd (by simpa using hid) (h _ _ hrow)

/-- What a submission that finds the attempt answers. -/
def State.answer (u : State) (attempt : Attempt) : Except Error Submitted :=
  if attempt.assisted then .ok .assisted
  else if u.now - attempt.startedAt < attempt.minimumSeconds then .error .unfinished
  else .ok (.saved u.scores.next)

theorem submit_live (hmarathon : u.visibleMarathon mid = some marathon)
    (hrestricted : u.restricted uid = false)
    (hunsaved : ∀ k row, u.scores.row k = some row → row.attemptId ≠ payload.attemptId)
    (hattempt : u.attempt payload.attemptId = some attempt)
    (howner : attempt.userId = uid ∧ attempt.marathonId = mid) :
    (submitMarathonScore uid mid payload u).1 = u.answer attempt := by
  rw [submitMarathonScore, bind_require_of_some hmarathon,
    bind_refuse_of_not (by simp [hrestricted]), bind_read, find_of_unsaved hunsaved]
  dsimp only
  rw [bind_require_of_some hattempt, bind_refuse_of_not (by simp [howner.1, howner.2]),
    State.answer]
  split
  · rfl
  · let early : State → Prop := fun s => s.now - attempt.startedAt < attempt.minimumSeconds
    by_cases hearly : early u
    · rw [if_pos hearly, bind_refuse_of (p := early) hearly]
    · rw [if_neg hearly, bind_refuse_of_not (p := early) hearly]
      rfl

/-- A submission of a pending attempt fails for another reason, or finds the attempt. -/
theorem submit_pending (uid : UserId) (mid : MarathonId) {expiry : ℚ}
    (h : Pending payload.attemptId t u)
    (hattempt : t.attempts payload.attemptId = some (attempt, expiry))
    (howner : attempt.userId = uid ∧ attempt.marathonId = mid) :
    (∃ e, e ≠ .unfinished ∧ (submitMarathonScore uid mid payload u).1 = .error e) ∨
      (submitMarathonScore uid mid payload u).1 = u.answer attempt := by
  cases hmarathon : u.visibleMarathon mid with
  | none =>
    refine .inl ⟨.marathonNotFound, by decide, ?_⟩
    rw [submitMarathonScore, bind_require_of_none hmarathon]
  | some marathon =>
    cases hrestricted : u.restricted uid with
    | true =>
      refine .inl ⟨.restricted, by decide, ?_⟩
      rw [submitMarathonScore, bind_require_of_some hmarathon,
        bind_refuse_of (p := fun s : State => s.restricted uid = true) hrestricted]
    | false =>
      by_cases hlive : u.now < expiry
      · refine .inr (submit_live hmarathon hrestricted h.unsaved ?_ howner)
        simp [State.attempt, h.attempt, hattempt, hlive]
      · refine .inl ⟨.expired, by decide, ?_⟩
        have hnone : u.attempt payload.attemptId = none := by
          simp [State.attempt, h.attempt, hattempt, not_lt.mp hlive]
        rw [submitMarathonScore, bind_require_of_some hmarathon,
          bind_refuse_of_not (by simp [hrestricted]), bind_read, find_of_unsaved h.unsaved]
        dsimp only
        rw [bind_require_of_none hnone]

/-- The state some time after the start of an attempt. -/
def State.started (s : State) (id : AttemptId) (attempt : Attempt) (wait : ℚ) : State :=
  { s with
    now := s.now + wait
    attempts := Function.update s.attempts id (some (attempt, s.now + 24 * 60 * 60)) }

/-- The user of an attempt that was started some time ago submits it. -/
theorem submit_started (attempt : Attempt) (wait : ℚ)
    (hmarathon : s.visibleMarathon mid = some marathon)
    (hrestricted : s.restricted uid = false)
    (hfresh : ∀ k row, s.scores.row k = some row → row.attemptId ≠ id)
    (howner : attempt.userId = uid ∧ attempt.marathonId = mid)
    (hassisted : attempt.assisted = false)
    (hstarted : attempt.startedAt = s.now) (hwait : wait < 24 * 60 * 60) :
    (submitMarathonScore uid mid ⟨id, 0, 0, 0⟩ (s.started id attempt wait)).1 =
      if wait < attempt.minimumSeconds then .error .unfinished
      else .ok (.saved s.scores.next) := by
  have hlive : (s.started id attempt wait).attempt id = some attempt := by
    simp [State.attempt, State.started, hwait]
  have hanswer : (submitMarathonScore uid mid ⟨id, 0, 0, 0⟩ (s.started id attempt wait)).1 =
      (s.started id attempt wait).answer attempt :=
    submit_live hmarathon hrestricted hfresh hlive howner
  rw [hanswer, State.answer, if_neg (by simp [hassisted]), hstarted]
  simp only [State.started, add_sub_cancel_left]

/-- With the rate of the playback, the time that is asked for is `0.7 * D / r`. -/
theorem minimumSeconds_eq (marathon : Marathon) (uid : UserId) (mid : MarathonId)
    (mods : List APIMod) (now : ℚ) (hlow : 1 / 10 ≤ rate) (hhigh : rate ≤ 10) :
    (marathon.attemptOf uid mid mods now rate).minimumSeconds =
      7 / 10 * (marathon.seconds / rate) := by
  rw [Marathon.attemptOf, min_eq_right hhigh, max_eq_right hlow, mul_comm]

/-- The completion of a marathon matches the rate of its playback exactly if the speed mod, if
there is one, names its speed. -/
theorem matches_iff (hstart : startMarathon dumps uid mid mods id s = (.ok id', t))
    (hmods : (mods.filter isSpeed).length ≤ 1) (hassisted : isAssisted mods = false)
    (hfresh : ∀ k row, s.scores.row k = some row → row.attemptId ≠ id)
    (hmarathon : s.visibleMarathon mid = some marathon)
    (hrate : playbackRate marathon.payload.rulesetId mods = some rate) (hlow : 1 / 10 ≤ rate)
    (hhigh : rate ≤ 10) :
    Matches uid mid marathon id rate s.now t ↔ Explicit mods := by
  obtain ⟨marathon', speed, hmarathon', hrestricted, hspeed, -, rfl⟩ := startMarathon_ok hstart
  obtain rfl := Option.some.inj (hmarathon.symm.trans hmarathon')
  have hseconds := marathon.seconds_pos
  have hpos : 0 < rate := by linarith
  constructor
  · intro hmatches
    by_contra hnot
    obtain ⟨hone, hdefault⟩ := rates_of_not_explicit hnot hmods hrate
    obtain rfl : speed = 1 := Option.some.inj (hspeed.symm.trans hone)
    have hlong := marathon.seconds_lt
    have hminimum := minimumSeconds_eq marathon uid mid mods s.now
      (show 1 / 10 ≤ (1 : ℚ) by norm_num) (by norm_num)
    have hsubmit := fun wait => submit_started (marathon.attemptOf uid mid mods s.now 1) wait
      hmarathon hrestricted hfresh ⟨rfl, rfl⟩ hassisted rfl
    have hrun := fun wait =>
      hmatches (s.started id (marathon.attemptOf uid mid mods s.now 1) wait) ⟨id, 0, 0, 0⟩
        ⟨rfl, hfresh⟩ rfl
    have hnow : ∀ wait, (s.started id (marathon.attemptOf uid mid mods s.now 1) wait).now - s.now =
      wait := fun wait => add_sub_cancel_left s.now wait
    rcases hdefault with rfl | rfl
    · -- The playback ends before the attempt may.
      have hrefused := hsubmit (marathon.seconds / (3 / 2)) (by linarith)
      rw [if_pos (by rw [hminimum]; linarith)] at hrefused
      exact (hrun _).1 (hnow _).ge hrefused
    · -- The attempt may end before the playback.
      have hsaved := hsubmit (7 / 10 * marathon.seconds) (by linarith)
      rw [if_neg (by rw [hminimum]; linarith)] at hsaved
      obtain ⟨e, he⟩ := (hrun (7 / 10 * marathon.seconds)).2 (by rw [hnow]; linarith)
      rw [hsaved] at he
      cases he
  · intro hexplicit u payload hpending hid
    obtain rfl : speed = rate :=
      Option.some.inj (hspeed.symm.trans (hexplicit.getSpeedRate hmods hrate hpos))
    subst hid
    have hminimum := minimumSeconds_eq marathon uid mid mods s.now hlow hhigh
    have hlength : 0 < marathon.seconds / speed := div_pos hseconds hpos
    have hanswer : u.answer (marathon.attemptOf uid mid mods s.now speed) =
        if u.now - s.now < 7 / 10 * (marathon.seconds / speed) then .error .unfinished
        else .ok (.saved u.scores.next) := by
      rw [← hminimum]
      exact if_neg (by simp [Marathon.attemptOf, hassisted])
    rcases submit_pending uid mid hpending (Function.update_self _ _ _)
      ⟨rfl, rfl⟩ with ⟨e, hne, he⟩ | hsubmit
    · rw [he]
      exact ⟨fun _ h => hne (Except.error.inj h), fun _ => ⟨e, rfl⟩⟩
    · rw [hsubmit, hanswer]
      constructor
      · intro hlate
        rw [if_neg (by linarith)]
        exact nofun
      · intro hearly
        exact ⟨.unfinished, if_pos hearly⟩

/-- Two fragments of half a minute: 65 seconds. -/
def twoFragments : CreateMarathon where
  name := "Compilation"
  rulesetId := 0
  segments := [⟨10000, 40000, by decide⟩, ⟨20000, 50000, by decide⟩]
  two_segments := by decide
  twenty_segments := by decide

def sampleMarathon : Marathon where
  ownerId := 1
  payload := twoFragments
  durationMs := 65000
  duration_eq := by decide

def oneMarathon : State where
  now := 0
  restricted _ := false
  marathons := Table.empty.insert sampleMarathon
  scores := Table.empty
  attempts _ := none

def doubleTime (settings : Option (List (String × Value))) : List APIMod := [⟨"DT", settings⟩]

theorem matches_doubleTime : ∃ t,
    startMarathon (fun _ => 0) 2 1 (doubleTime (some [("speed_change", .float (3 / 2))])) 7
      oneMarathon = (.ok 7, t) ∧ Matches 2 1 sampleMarathon 7 (3 / 2) 0 t := by
  have hstart : startMarathon (fun _ => 0) 2 1
      (doubleTime (some [("speed_change", .float (3 / 2))])) 7 oneMarathon = (.ok 7, _) := rfl
  refine ⟨_, hstart, (matches_iff hstart (by decide) rfl nofun rfl rfl ?_ ?_).mpr ?_⟩
  · norm_num
  · norm_num
  · exact List.forall_mem_singleton.mpr fun _ => rfl

/-- The playback at the default speed of Double Time takes 43 seconds and a third, and after 44
seconds the attempt is refused as unfinished. -/
theorem not_matches_default : ∃ t,
    startMarathon (fun _ => 0) 2 1 (doubleTime none) 7 oneMarathon = (.ok 7, t) ∧
      playbackRate 0 (doubleTime none) = some (3 / 2) ∧
      (submitMarathonScore 2 1 ⟨7, 0, 0, 0⟩ { t with now := 44 }).1 = .error .unfinished ∧
      ¬ Matches 2 1 sampleMarathon 7 (3 / 2) 0 t := by
  obtain ⟨t, hstart⟩ : ∃ t, startMarathon (fun _ => 0) 2 1 (doubleTime none) 7 oneMarathon =
    (.ok 7, t) := ⟨_, rfl⟩
  obtain ⟨marathon, speed, hmarathon, -, hspeed, -, ht⟩ := startMarathon_ok hstart
  obtain rfl : sampleMarathon = marathon := Option.some.inj hmarathon
  have hone : getSpeedRate (doubleTime none) = some 1 :=
    (getSpeedRate_of_some (by decide) rfl).trans (by simp [speedChange, toNumber])
  obtain rfl : speed = 1 := Option.some.inj (hspeed.symm.trans hone)
  have hlater : { t with now := 44 } =
      oneMarathon.started 7 (sampleMarathon.attemptOf 2 1 (doubleTime none) 0 1) 44 := by
    rw [ht]
    simp [State.started, oneMarathon]
  have hrefused : (submitMarathonScore 2 1 ⟨7, 0, 0, 0⟩ { t with now := 44 }).1 =
      .error .unfinished := by
    rw [hlater]
    refine (submit_started _ _ hmarathon rfl nofun ⟨rfl, rfl⟩ rfl rfl (by norm_num)).trans ?_
    refine if_pos ?_
    rw [minimumSeconds_eq _ _ _ _ _ (by norm_num) (by norm_num), Marathon.seconds]
    norm_num [sampleMarathon]
  refine ⟨t, hstart, rfl, hrefused, fun hmatches => ?_⟩
  have hunsaved : ∀ k row, t.scores.row k = some row → row.attemptId ≠ 7 := by
    rw [ht]
    exact nofun
  refine (hmatches { t with now := 44 } ⟨7, 0, 0, 0⟩ ⟨rfl, hunsaved⟩ rfl).1 ?_ hrefused
  rw [Marathon.seconds]
  norm_num [sampleMarathon]

end Soms.Marathons

import Mathlib.Data.List.Chain
import Mathlib.Data.List.Iterate
import Soms.Somsai.Machine

/-!
# Drafts

Whose turn it is, who banned and picked what, and how many slots are left.  A
draft leaves out players, clocks and messages; its invariant names the team `F`
that the draw put first.
-/

namespace Soms.Somsai

open Txn World

/-! ## Turns -/

/-- The team to act after `n` turns that alternate. -/
def turnAfter (F : Team) (n : Nat) : Team := if n % 2 = 0 then F else F.other

theorem iterate_other (F : Team) (n : Nat) : Team.other^[n] F = turnAfter F n := by
  induction n with
  | zero => rfl
  | succ n ih =>
    rw [Function.iterate_succ_apply', ih]
    unfold turnAfter
    rcases Nat.mod_two_eq_zero_or_one n with hn | hn
    · rw [if_pos hn, if_neg (by omega)]
    · rw [if_neg (by omega), if_pos (by omega), Team.other_other]

theorem iterate_other_succ (F : Team) (n : Nat) :
    List.iterate Team.other F (n + 1) = List.iterate Team.other F n ++ [turnAfter F n] := by
  rw [List.iterate_add, iterate_other]
  rfl

theorem isChain_iterate (F : Team) (n : Nat) :
    (List.iterate Team.other F n).IsChain (fun team next => next = team.other) := by
  induction n generalizing F with
  | zero => exact .nil
  | succ n ih =>
    cases n with
    | zero => exact .singleton F
    | succ n => exact .cons_cons rfl (ih F.other)

/-- Turns that alternate are shared evenly, the first team one ahead at most. -/
theorem count_iterate_other (F : Team) (n : Nat) :
    (List.iterate Team.other F n).count F = (n + 1) / 2 ∧
      (List.iterate Team.other F n).count F.other = n / 2 := by
  induction n with
  | zero => exact ⟨rfl, rfl⟩
  | succ n ih =>
    rw [iterate_other_succ, List.count_append, List.count_append, ih.1, ih.2]
    unfold turnAfter
    have hne := F.other_ne
    rcases Nat.mod_two_eq_zero_or_one n with hn | hn
    · rw [if_pos hn, List.count_singleton_self, List.count_singleton, if_neg (by simpa using hne.symm)]
      omega
    · rw [if_neg (by omega), List.count_singleton_self, List.count_singleton,
        if_neg (by simp)]
      omega

/-! ## Slots -/

/-- A slot that was drafted and not banned, the tiebreaker apart. -/
def Slot.used (slot : Slot) : Bool :=
  decide (slot.id ≠ TB ∧ slot.status ≠ .available ∧ slot.status ≠ .banned)

theorem countP_modifySlot {f : Slot → Slot} {slotId : String} {slot : Slot} {slots : List Slot}
    (hslot : slots.find? (fun slot => slot.id = slotId) = some slot) (p : Slot → Bool) :
    (modifySlot slotId f slots).countP p + (p slot).toNat = slots.countP p + (p (f slot)).toNat := by
  induction slots with
  | nil => simp at hslot
  | cons head rest ih =>
    by_cases hid : head.id = slotId
    · obtain rfl : head = slot := by simpa [hid] using hslot
      simp only [modifySlot, hid, if_true, List.countP_cons]
      cases p head <;> cases p (f head) <;> simp
    · have hrest := ih (by simpa [hid] using hslot)
      simp only [modifySlot, hid, if_false, List.countP_cons]
      omega

theorem map_id_modifySlot {f : Slot → Slot} (hf : ∀ slot, (f slot).id = slot.id) (slotId : String)
    (slots : List Slot) : (modifySlot slotId f slots).map (·.id) = slots.map (·.id) := by
  induction slots with
  | nil => rfl
  | cons slot rest ih =>
    by_cases hid : slot.id = slotId
    · simp [modifySlot, hid, hf]
    · simp [modifySlot, hid, ih]

/-! ## The draft of a match -/

structure Draft where
  stage : Stage
  slots : List Slot
  bans : PerTeam Nat
  turn : Team
  next : Team
  banned : List DraftEntry
  rounds : List HistoryEntry
  wins : PerTeam Nat
  current : Option String
  bestOf : Nat
  bansPerTeam : Nat
  poolRank : Rank

def Match.draft (m : Match) : Draft where
  stage := m.stage
  slots := m.state.slots
  bans := m.state.bans
  turn := m.state.turnTeam
  next := m.state.nextPickTeam
  banned := m.state.draftHistory
  rounds := m.state.history
  wins := m.state.wins
  current := m.state.currentSlot
  bestOf := m.state.bestOf
  bansPerTeam := m.state.bansPerTeam
  poolRank := m.state.poolRank

/-- A slot with the team that picked it. -/
structure Pick where
  slotId : String
  team : Option Team
  deriving DecidableEq, Repr

namespace Draft

def find (d : Draft) (slotId : String) : Option Slot := d.slots.find? fun slot => slot.id = slotId

/-- The picks whose rounds were counted. -/
def counted (d : Draft) : List Pick := d.rounds.map fun entry => ⟨entry.slotId, entry.pickedByTeam⟩

/-- The pick of the round that is played. -/
def ongoing (d : Draft) : List Pick :=
  if d.stage.inRound then
    ((d.current.bind d.find).map fun slot => (⟨slot.id, slot.selectedByTeam⟩ : Pick)).toList
  else []

/-- All picks in order, with one for each replay. -/
def picks (d : Draft) : List Pick := d.counted ++ d.ongoing

/-- The rounds that were skipped without a winner. -/
def skips (d : Draft) : Nat :=
  d.rounds.countP fun entry => decide (entry.winnerTeamId = none ∧ entry.forfeit = true)

/-- The team to which a pick of the slot belongs: nobody picks the tiebreaker. -/
def owner (slotId : String) (team : Team) : Option Team := if slotId = TB then none else some team

/-- How one pick follows another: a replay stays with the team, a new map goes to
the other team or is the tiebreaker, and after the tiebreaker comes no new map. -/
def Follows (p q : Pick) : Prop :=
  (q.slotId = p.slotId → q.team = p.team) ∧
    (q.slotId ≠ p.slotId → p.slotId ≠ TB ∧ (q.slotId = TB ∨ ∃ team, p.team = some team ∧
      q.team = some team.other))

/-- A slot was drafted or not for every round that was counted. -/
def drafted (d : Draft) : Nat := d.wins.red + d.wins.blue + d.skips

/-- One more slot is in play, the tiebreaker apart. -/
def inPlay (d : Draft) : Nat := if d.stage.inRound ∧ d.current ≠ some TB then 1 else 0

/-- The pool follows its rule, and the bans so far alternate from the first team. -/
structure Base (F : Team) (d : Draft) : Prop where
  slots_eq : d.slots.map (·.id) = (ruleFor d.poolRank).slots
  bestOf_eq : d.bestOf = (ruleFor d.poolRank).bestOf
  bansPerTeam_eq : d.bansPerTeam = (ruleFor d.poolRank).bansPerTeam
  order : d.banned.map (·.teamId) = List.iterate Team.other F d.banned.length
  bans : ∀ team, d.bans.get team = (List.iterate Team.other F d.banned.length).count team
  marked : d.slots.countP (fun slot => decide (slot.status = .banned)) = d.banned.length
  limit : d.banned.length ≤ 2 * d.bansPerTeam
  spent : ∀ entry ∈ d.rounds, ∀ slot, d.find entry.slotId = some slot → slot.status ≠ .available

structure Inv (F : Team) (d : Draft) : Prop extends Base F d where
  waiting : d.stage = .waiting → d.banned = [] ∧ d.rounds = [] ∧ d.turn = F ∧ d.next = F
  banning : d.stage = .banning → d.banned.length < 2 * d.bansPerTeam ∧ d.rounds = [] ∧ d.next = F ∧
    d.turn = turnAfter F d.banned.length
  picking : d.stage = .picking → d.next = d.turn ∧ d.wins.red + d.wins.blue + 2 ≤ d.bestOf ∧
    (d.rounds = [] → d.turn = F) ∧
    ∀ entry ∈ d.rounds.getLast?, entry.slotId ≠ TB ∧ entry.pickedByTeam = some d.turn.other
  inRound : d.stage.inRound = true → d.next = d.turn.other ∧ ∃ slot,
    d.current.bind d.find = some slot ∧ slot.status = .picked ∧
      slot.selectedByTeam = owner slot.id d.turn
  done : d.stage = .picking ∨ d.picks ≠ [] → d.banned.length = 2 * d.bansPerTeam
  chain : d.picks.IsChain Follows
  first : ∀ pick ∈ d.picks.head?, pick.team = some F
  used : d.stage.final = false → d.slots.countP Slot.used ≤ d.drafted + d.inPlay

/-! ### What happens to a draft -/

/-- A slot is banned. -/
def ban (d : Draft) (slotId : String) : Draft :=
  let bans := d.bans.set d.turn (d.bans.get d.turn + 1)
  let finished := d.bansPerTeam ≤ min bans.red bans.blue
  { d with
    stage := if finished then .picking else .banning
    slots := modifySlot slotId
      (fun slot => { slot with status := .banned, selectedByTeam := some d.turn }) d.slots
    bans := bans
    turn := if finished then d.next else d.turn.other
    banned := d.banned ++ [{ slotId := slotId, teamId := d.turn }] }

/-- A slot is selected. -/
def select (d : Draft) (slotId checksum : String) : Draft :=
  { d with
    stage := .ready
    slots := modifySlot slotId (fun slot => slot.picked checksum (owner slotId d.turn)) d.slots
    next := d.turn.other
    current := some slotId }

/-- A round is counted. -/
def record (d : Draft) (entry : HistoryEntry) : Draft :=
  { d with
    slots := modifySlot entry.slotId (fun slot => { slot with status := .played }) d.slots
    rounds := d.rounds ++ [entry]
    wins := Board.addWin d.wins entry.winnerTeamId }

/-- The next pick begins. -/
def nextPick (d : Draft) : Draft := { d with stage := .picking, turn := d.next }

variable {F : Team} {d : Draft}

theorem ruleFor_bansPerTeam_pos (rank : Rank) : 0 < (ruleFor rank).bansPerTeam := by
  cases rank with
  | archsom => decide
  | division band roman => cases band <;> simp [ruleFor, RankPoolRule.ofBand]

theorem ruleFor_bestOf_ge (rank : Rank) : 7 ≤ (ruleFor rank).bestOf := by
  cases rank with
  | archsom => decide
  | division band roman => cases band <;> simp [ruleFor, RankPoolRule.ofBand]

/-- Every pool has enough slots for all bans, the rounds before the last and one more. -/
theorem ruleFor_slots_enough (rank : Rank) :
    2 * (ruleFor rank).bansPerTeam + (ruleFor rank).bestOf ≤ (ruleFor rank).slots.length := by
  cases rank with
  | archsom => decide
  | division band roman => cases band <;> simp [ruleFor, RankPoolRule.ofBand]

theorem find_modify {f : Slot → Slot} (hf : ∀ slot, (f slot).id = slot.id) (slotId j : String)
    {slots : List Slot} {slot : Slot} (h : { d with slots := modifySlot slotId f slots }.find j =
      some slot) (hd : d.slots = slots) : (j = slotId ∧ ∃ old, d.find slotId = some old ∧ f old = slot) ∨
      (j ≠ slotId ∧ d.find j = some slot) := by
  subst hd
  have hfind := find_modifySlot hf slotId j d.slots
  rw [show (modifySlot slotId f d.slots).find? (fun slot => slot.id = j) = some slot from h] at hfind
  split at hfind
  · next hj =>
    obtain ⟨old, hold, heq⟩ := Option.map_eq_some_iff.mp hfind.symm
    exact .inl ⟨hj, old, hold, heq⟩
  · next hj => exact .inr ⟨hj, hfind.symm⟩

namespace Inv

theorem bansPerTeam_pos (h : d.Inv F) : 0 < d.bansPerTeam := by
  rw [h.bansPerTeam_eq]
  exact ruleFor_bansPerTeam_pos d.poolRank

/-- The draft begins with the bans. -/
theorem start (h : d.Inv F) (hstage : d.stage = .waiting) :
    Inv F { d with stage := .banning, turn := d.next } := by
  obtain ⟨hbanned, hrounds, -, hnext⟩ := h.waiting hstage
  have hpos := h.bansPerTeam_pos
  have hlt : d.banned.length < 2 * d.bansPerTeam := by
    rw [hbanned, List.length_nil]
    omega
  have hturn : d.next = turnAfter F d.banned.length := by
    rw [hbanned]
    exact hnext
  exact {
    h with
    waiting := by simp
    banning := fun _ => ⟨hlt, hrounds, hnext, hturn⟩
    picking := by simp
    inRound := by simp [Stage.inRound]
    done := by simp [picks, counted, ongoing, hrounds, Stage.inRound]
    chain := by simp [picks, counted, ongoing, hrounds, Stage.inRound]
    first := by simp [picks, counted, ongoing, hrounds, Stage.inRound]
    used := fun _ => by
      have hused := h.used (by rw [hstage]; rfl)
      rw [inPlay, if_neg (by simp [hstage, Stage.inRound])] at hused
      exact Nat.le_trans hused (Nat.le_add_right _ _) }

/-- Nothing but the stage of the round changes. -/
theorem round (h : d.Inv F) (hstage : d.stage.inRound = true) {stage : Stage}
    (hround : stage.inRound = true) : Inv F { d with stage := stage } := by
  have hpicks : ({ d with stage := stage } : Draft).picks = d.picks := by
    simp [picks, counted, ongoing, hstage, hround, find]
    rfl
  have hplay : ({ d with stage := stage } : Draft).inPlay = d.inPlay := by
    simp [inPlay, hstage, hround]
  exact {
    h with
    waiting := by rintro rfl; simp [Stage.inRound] at hround
    banning := by rintro rfl; simp [Stage.inRound] at hround
    picking := by rintro rfl; simp [Stage.inRound] at hround
    inRound := fun _ => h.inRound hstage
    done := by
      rintro (hpick | hne)
      · rw [show stage = .picking from hpick] at hround
        simp [Stage.inRound] at hround
      · exact h.done (.inr (hpicks ▸ hne))
    chain := hpicks ▸ h.chain
    first := hpicks ▸ h.first
    used := fun _ => by
      rw [hplay]
      refine h.used ?_
      cases hs : d.stage <;> simp [Stage.inRound, hs] at hstage <;> rfl }

/-- A draft that is over keeps the picks whose rounds were counted. -/
theorem ended (h : d.Base F) {stage : Stage} (hfinal : stage.final = true)
    (hdone : d.counted ≠ [] → d.banned.length = 2 * d.bansPerTeam)
    (hchain : d.counted.IsChain Follows) (hfirst : ∀ pick ∈ d.counted.head?, pick.team = some F) :
    Inv F { d with stage := stage } := by
  have hround : stage.inRound = false := by cases stage <;> simp [Stage.final] at hfinal <;> rfl
  have hpicks : ({ d with stage := stage } : Draft).picks = d.counted := by
    simp [picks, ongoing, hround]
    rfl
  exact {
    h with
    waiting := by rintro rfl; simp [Stage.final] at hfinal
    banning := by rintro rfl; simp [Stage.final] at hfinal
    picking := by rintro rfl; simp [Stage.final] at hfinal
    inRound := fun hr => by
      rw [show stage.inRound = true from hr] at hround
      simp at hround
    done := by
      rintro (hpick | hne)
      · rw [show stage = .picking from hpick] at hfinal
        simp [Stage.final] at hfinal
      · exact hdone (hpicks ▸ hne)
    chain := hpicks ▸ hchain
    first := hpicks ▸ hfirst
    used := fun hlive => by
      rw [show stage.final = false from hlive] at hfinal
      simp at hfinal }

theorem close (h : d.Inv F) {stage : Stage} (hfinal : stage.final = true) :
    Inv F { d with stage := stage } := by
  refine ended h.toBase hfinal (fun hne => h.done (.inr fun hnil => hne ?_)) h.chain.left_of_append
    fun pick hpick => h.first pick ?_
  · exact (List.append_eq_nil_iff.mp hnil).1
  · rw [Option.mem_def] at hpick
    rw [Option.mem_def, picks, List.head?_append, hpick]
    rfl

/-- Banning a slot. -/
theorem ban (h : d.Inv F) (hstage : d.stage = .banning) (hwins : d.rounds = [] → d.wins = ⟨0, 0⟩)
    {slotId : String} {slot : Slot} (hslot : d.find slotId = some slot)
    (hfree : slot.status = .available) : (d.ban slotId).Inv F := by
  obtain ⟨hlimit, hrounds, hnext, hturn⟩ := h.banning hstage
  have hbest : 7 ≤ d.bestOf := by
    rw [h.bestOf_eq]
    exact ruleFor_bestOf_ge d.poolRank
  have hcount : ∀ team, (d.ban slotId).bans.get team =
      (List.iterate Team.other F (d.banned.length + 1)).count team := by
    intro team
    rw [iterate_other_succ, List.count_append, ← h.bans, ← hturn, List.count_singleton]
    show (d.bans.set d.turn (d.bans.get d.turn + 1)).get team = _
    by_cases hteam : team = d.turn
    · subst hteam
      simp
    · obtain rfl : team = d.turn.other := by
        cases team <;> cases hd : d.turn <;> simp_all [Team.other]
      have hne : ¬ d.turn = d.turn.other := fun heq => hteam heq.symm
      simp [hne]
  have hmin : min (d.ban slotId).bans.red (d.ban slotId).bans.blue = (d.banned.length + 1) / 2 := by
    have hcounts := count_iterate_other F (d.banned.length + 1)
    rw [← hcount, ← hcount] at hcounts
    cases F <;> simp only [PerTeam.get, Team.other] at hcounts <;> omega
  have hstage' : (d.ban slotId).stage =
      if d.bansPerTeam ≤ (d.banned.length + 1) / 2 then .picking else .banning := by
    rw [← hmin]
    rfl
  have hturn' : (d.ban slotId).turn =
      if d.bansPerTeam ≤ (d.banned.length + 1) / 2 then d.next else d.turn.other := by
    rw [← hmin]
    rfl
  have hlength : (d.ban slotId).banned.length = d.banned.length + 1 := by simp [Draft.ban]
  have hmark : ∀ p : Slot → Bool, (d.ban slotId).slots.countP p + (p slot).toNat =
      d.slots.countP p +
        (p { slot with status := .banned, selectedByTeam := some d.turn }).toNat :=
    fun p => countP_modifySlot hslot p
  have hround : (d.ban slotId).stage.inRound = false := by
    rw [hstage']
    split <;> rfl
  have hpicks : (d.ban slotId).picks = [] := by
    simp only [picks, ongoing, hround, Bool.false_eq_true, if_false, List.append_nil]
    show d.rounds.map _ = []
    rw [hrounds]
    rfl
  exact {
    h with
    slots_eq := (map_id_modifySlot (by exact fun _ => rfl) slotId d.slots).trans h.slots_eq
    order := by
      rw [hlength, iterate_other_succ, ← hturn, ← h.order]
      simp [Draft.ban]
    bans := fun team => by
      rw [hlength]
      exact hcount team
    marked := by
      have hbanned := hmark fun slot => decide (slot.status = .banned)
      simp only [hfree, h.marked] at hbanned
      rw [hlength]
      simpa using hbanned
    limit := by
      rw [hlength]
      exact hlimit
    waiting := by
      rw [hstage']
      split <;> simp
    banning := fun hnot => by
      have hopen : ¬ d.bansPerTeam ≤ (d.banned.length + 1) / 2 := by
        intro hfinished
        rw [hstage', if_pos hfinished] at hnot
        simp at hnot
      have hlast : (d.ban slotId).banned.length < 2 * d.bansPerTeam := by
        rw [hlength]
        omega
      refine ⟨hlast, hrounds, hnext, ?_⟩
      rw [hturn', if_neg hopen, hlength, hturn, ← iterate_other, ← iterate_other,
        Function.iterate_succ_apply']
    picking := fun hdone => by
      have hfinished : d.bansPerTeam ≤ (d.banned.length + 1) / 2 := by
        by_contra hopen
        rw [hstage', if_neg hopen] at hdone
        simp at hdone
      have hnew : (d.ban slotId).turn = d.next := by rw [hturn', if_pos hfinished]
      refine ⟨hnew.symm, ?_, fun _ => hnew.trans hnext, ?_⟩
      · show d.wins.red + d.wins.blue + 2 ≤ d.bestOf
        rw [hwins hrounds]
        show 0 + 0 + 2 ≤ d.bestOf
        omega
      · show ∀ entry ∈ d.rounds.getLast?, _
        simp [hrounds]
    inRound := by simp [hround]
    spent := by
      show ∀ entry ∈ d.rounds, _
      simp [hrounds]
    done := by
      rintro (hpick | hne)
      · have hfinished : d.bansPerTeam ≤ (d.banned.length + 1) / 2 := by
          by_contra hopen
          rw [hstage', if_neg hopen] at hpick
          simp at hpick
        rw [hlength]
        show _ = 2 * d.bansPerTeam
        omega
      · exact absurd hpicks hne
    chain := hpicks ▸ .nil
    first := by simp [hpicks]
    used := fun _ => by
      have hsame := hmark Slot.used
      simp only [Slot.used, hfree, ne_eq, not_true, and_false, false_and, decide_false,
        Bool.toNat_false, Nat.add_zero] at hsame
      have hused := h.used (by rw [hstage]; rfl)
      rw [inPlay, if_neg (by simp [hstage, Stage.inRound])] at hused
      exact Nat.le_trans (Nat.le_of_eq hsame) (Nat.le_trans hused (Nat.le_add_right _ _)) }

/-- Selecting a slot that is not banned, as the next of the picks. -/
theorem select (h : d.Base F) (hdone : d.banned.length = 2 * d.bansPerTeam) {slotId : String}
    {slot : Slot} (checksum : String) (hslot : d.find slotId = some slot) (hopen : slot.status ≠ .banned)
    (hchain : (d.counted ++ [(⟨slotId, owner slotId d.turn⟩ : Pick)]).IsChain Follows)
    (hfirst : ∀ pick ∈ (d.counted ++ [(⟨slotId, owner slotId d.turn⟩ : Pick)]).head?,
      pick.team = some F)
    (hused : d.slots.countP Slot.used + (if slotId = TB ∨ slot.used = true then 0 else 1) ≤
      d.drafted + if slotId = TB then 0 else 1) : (d.select slotId checksum).Inv F := by
  have hid : slot.id = slotId := by simpa using List.find?_some hslot
  have hfind : (d.select slotId checksum).find slotId =
      some (slot.picked checksum (owner slotId d.turn)) := by
    have hmodify := find_modifySlot (f := fun slot => slot.picked checksum (owner slotId d.turn))
      (fun _ => rfl) slotId slotId d.slots
    rw [if_pos rfl, show d.slots.find? (fun slot => slot.id = slotId) = some slot from hslot]
      at hmodify
    exact hmodify
  have hmark : ∀ p : Slot → Bool, (d.select slotId checksum).slots.countP p + (p slot).toNat =
      d.slots.countP p + (p (slot.picked checksum (owner slotId d.turn))).toNat :=
    fun p => countP_modifySlot hslot p
  have hpicks : (d.select slotId checksum).picks = d.counted ++ [⟨slotId, owner slotId d.turn⟩] := by
    have hcurrent : (d.select slotId checksum).current = some slotId := rfl
    have hround : (d.select slotId checksum).stage.inRound = true := rfl
    simp only [picks, ongoing, hround, if_true, hcurrent, Option.bind_some, hfind, Option.map_some,
      Option.toList_some]
    rw [show (slot.picked checksum (owner slotId d.turn)).id = slotId from hid]
    rfl
  exact {
    h with
    slots_eq := (map_id_modifySlot (by exact fun _ => rfl) slotId d.slots).trans h.slots_eq
    marked := by
      have hbanned := hmark fun slot => decide (slot.status = .banned)
      simp only [hopen, Slot.picked, decide_false, Bool.toNat_false, Nat.add_zero, h.marked,
        reduceCtorEq] at hbanned
      exact hbanned
    spent := fun entry hentry found hfound => by
      rcases find_modify (by exact fun _ => rfl) slotId entry.slotId hfound rfl with
        ⟨-, old, -, rfl⟩ | ⟨-, hold⟩
      · simp [Slot.picked]
      · exact h.spent entry hentry found hold
    waiting := by simp [Draft.select]
    banning := by simp [Draft.select]
    picking := by simp [Draft.select]
    inRound := fun _ => ⟨rfl, _, hfind, rfl, by
      rw [show (slot.picked checksum (owner slotId d.turn)).id = slotId from hid]
      rfl⟩
    done := fun _ => hdone
    chain := hpicks ▸ hchain
    first := hpicks ▸ hfirst
    used := fun _ => by
      have hcount := hmark Slot.used
      have hplay : (d.select slotId checksum).inPlay = if slotId = TB then 0 else 1 := by
        by_cases htie : slotId = TB <;> simp [inPlay, Draft.select, Stage.inRound, htie]
      have hpicked : (slot.picked checksum (owner slotId d.turn)).used = decide (slotId ≠ TB) := by
        simp [Slot.used, Slot.picked, hid]
      rw [hplay]
      rw [hpicked] at hcount
      show _ ≤ d.drafted + _
      by_cases htie : slotId = TB
      · simp only [htie, true_or, if_true, Nat.add_zero] at hused ⊢
        simp [htie] at hcount
        omega
      · cases hu : slot.used <;> simp [htie, hu] at hused hcount ⊢ <;> omega }

/-- Picking an available slot. -/
theorem pick (h : d.Inv F) (hstage : d.stage = .picking) {slotId : String} {slot : Slot}
    (checksum : String) (hslot : d.find slotId = some slot) (hfree : slot.status = .available)
    (htie : slotId ≠ TB) : (d.select slotId checksum).Inv F := by
  obtain ⟨-, -, hturn, hlast⟩ := h.picking hstage
  have howner : owner slotId d.turn = some d.turn := if_neg htie
  have hpicks : d.picks = d.counted := by simp [picks, ongoing, hstage, Stage.inRound]
  refine select h.toBase (h.done (.inl hstage)) checksum hslot (by simp [hfree]) ?_ ?_ ?_
  · rw [List.isChain_append]
    refine ⟨hpicks ▸ h.chain, .singleton _, fun p hp q hq => ?_⟩
    simp only [List.head?_cons, Option.mem_def, Option.some.injEq] at hq
    subst hq
    rw [Option.mem_def, counted, List.getLast?_map, Option.map_eq_some_iff] at hp
    obtain ⟨entry, hentry, rfl⟩ := hp
    obtain ⟨hne, hteam⟩ := hlast entry hentry
    have hnew : slotId ≠ entry.slotId := by
      rintro rfl
      exact h.spent entry (List.mem_of_getLast? hentry) slot hslot hfree
    refine ⟨fun heq => absurd heq hnew, fun _ => ⟨hne, .inr ⟨_, hteam, ?_⟩⟩⟩
    rw [howner, Team.other_other]
  · intro pick hpick
    by_cases hrounds : d.rounds = []
    · simp only [counted, hrounds, List.map_nil, List.nil_append, List.head?_cons, Option.mem_def,
        Option.some.injEq] at hpick
      subst hpick
      rw [howner, hturn hrounds]
    · refine h.first pick ?_
      have hne : d.counted ≠ [] := by simpa [counted] using hrounds
      rw [List.head?_append_of_ne_nil _ hne] at hpick
      rwa [hpicks]
  · have hused := h.used (by rw [hstage]; rfl)
    rw [inPlay, if_neg (by simp [hstage, Stage.inRound])] at hused
    rw [if_neg htie]
    split <;> omega

/-- What counting a round on a slot leaves, before the match goes on. -/
structure Recorded (F : Team) (d : Draft) (slot : Slot) (draw : Bool) : Prop extends Base F d where
  turn : d.next = d.turn.other
  owned : slot.selectedByTeam = owner slot.id d.turn
  found : ∃ old, d.find slot.id = some old ∧ old.status = .played ∧ old.id = slot.id
  done : d.banned.length = 2 * d.bansPerTeam
  chain : d.counted.IsChain Follows
  first : ∀ pick ∈ d.counted.head?, pick.team = some F
  last : d.counted.getLast? = some ⟨slot.id, slot.selectedByTeam⟩
  used : d.slots.countP Slot.used + (if draw then 0 else 1) ≤
    d.drafted + if slot.id = TB then 0 else 1

/-- Counting a round on the current slot. -/
theorem record (h : d.Inv F) (hround : d.stage.inRound = true) {slot : Slot}
    (hslot : d.current.bind d.find = some slot) {entry : HistoryEntry} (hid : entry.slotId = slot.id)
    (hteam : entry.pickedByTeam = slot.selectedByTeam) :
    Recorded F (d.record entry) slot (decide (entry.winnerTeamId = none ∧ entry.forfeit = false)) := by
  obtain ⟨hnext, slot', hslot', hpicked, howner⟩ := h.inRound hround
  obtain rfl := Option.some.inj (hslot.symm.trans hslot')
  obtain ⟨slotId, hcurrent, hfind⟩ := Option.bind_eq_some_iff.mp hslot
  obtain rfl : slot.id = slotId := by simpa using List.find?_some hfind
  have hlive : d.stage.final = false := by
    cases hs : d.stage <;> simp [Stage.inRound, hs] at hround <;> rfl
  have hmark : ∀ p : Slot → Bool, (d.record entry).slots.countP p + (p slot).toNat =
      d.slots.countP p + (p { slot with status := .played }).toNat := by
    intro p
    show (modifySlot entry.slotId _ d.slots).countP p + _ = _
    rw [hid]
    exact countP_modifySlot hfind p
  have hpicks : (d.record entry).counted = d.picks := by
    simp [picks, ongoing, counted, hround, hslot, Draft.record, hid, hteam]
  have hfound : (d.record entry).find slot.id = some { slot with status := .played } := by
    have hmodify := find_modifySlot (f := fun slot => { slot with status := .played })
      (fun _ => rfl) slot.id slot.id d.slots
    rw [if_pos rfl, show d.slots.find? (fun s => s.id = slot.id) = some slot from hfind] at hmodify
    show (modifySlot entry.slotId _ d.slots).find? _ = _
    rw [hid]
    exact hmodify
  exact {
    h.toBase with
    slots_eq := (map_id_modifySlot (by exact fun _ => rfl) entry.slotId d.slots).trans h.slots_eq
    marked := by
      have hbanned := hmark fun slot => decide (slot.status = .banned)
      simp only [hpicked, decide_false, Bool.toNat_false, Nat.add_zero, h.marked, reduceCtorEq]
        at hbanned
      exact hbanned
    spent := fun other hother found hother' => by
      rcases find_modify (by exact fun _ => rfl) entry.slotId other.slotId hother' rfl with
        ⟨-, old, -, rfl⟩ | ⟨hne, hold⟩
      · simp
      · rcases List.mem_append.mp hother with hmem | hmem
        · exact h.spent other hmem found hold
        · rw [List.mem_singleton.mp hmem] at hne
          exact absurd rfl hne
    turn := hnext
    owned := howner
    found := ⟨_, hfound, rfl, rfl⟩
    done := h.done (.inr (by simp [picks, ongoing, hround, hslot]))
    chain := hpicks ▸ h.chain
    first := hpicks ▸ h.first
    last := by simp [counted, Draft.record, hid, hteam]
    used := by
      have hcount := hmark Slot.used
      have hsame : ({ slot with status := .played } : Slot).used = slot.used := by
        simp [Slot.used, hpicked]
      rw [hsame] at hcount
      have hused := h.used hlive
      have hplay : d.inPlay = if slot.id = TB then 0 else 1 := by
        by_cases htie : slot.id = TB <;> simp [inPlay, hround, hcurrent, htie]
      have hdrafted : (d.record entry).drafted = d.drafted +
          if decide (entry.winnerTeamId = none ∧ entry.forfeit = false) = true then 0 else 1 := by
        simp only [drafted, skips, Draft.record, List.countP_append, List.countP_singleton]
        cases hwinner : entry.winnerTeamId with
        | none => cases hf : entry.forfeit <;> simp [Board.addWin, Nat.add_assoc]
        | some team =>
          cases team <;> simp [Board.addWin, PerTeam.set, PerTeam.get] <;> omega
      rw [hdrafted]
      rw [hplay] at hused
      omega }

namespace Recorded

variable {slot : Slot}

/-- The match ends with the round. -/
theorem close {draw : Bool} (h : Recorded F d slot draw) {stage : Stage}
    (hfinal : stage.final = true) : Inv F { d with stage := stage } :=
  ended h.toBase hfinal (fun _ => h.done) h.chain h.first

/-- After a draw the slot is played again. -/
theorem replay (h : Recorded F d slot true) (checksum : String) :
    (d.select slot.id checksum).Inv F := by
  obtain ⟨old, hfind, hplayed, hid⟩ := h.found
  have hne : d.counted ≠ [] := by
    intro hnil
    have hlast := h.last
    rw [hnil] at hlast
    simp at hlast
  refine Inv.select h.toBase h.done checksum hfind (by simp [hplayed]) ?_ ?_ ?_
  · rw [List.isChain_append]
    refine ⟨h.chain, .singleton _, fun p hp q hq => ?_⟩
    simp only [List.head?_cons, Option.mem_def, Option.some.injEq] at hq
    rw [Option.mem_def, h.last, Option.some.injEq] at hp
    subst hq hp
    exact ⟨fun _ => h.owned.symm, fun hdiff => absurd rfl hdiff⟩
  · rw [List.head?_append_of_ne_nil _ hne]
    exact h.first
  · have hused := h.used
    rw [if_pos rfl] at hused
    rw [if_pos]
    · exact hused
    · by_cases htie : slot.id = TB
      · exact .inl htie
      · exact .inr (by simp [Slot.used, hplayed, hid, htie])

/-- At an even score before the last round the tiebreaker comes up. -/
theorem tiebreak (h : Recorded F d slot false) {tie : Slot} (htie : d.find TB = some tie)
    (hopen : tie.status ≠ .banned) (checksum : String) : (d.select TB checksum).Inv F := by
  have hne : d.counted ≠ [] := by
    intro hnil
    have hlast := h.last
    rw [hnil] at hlast
    simp at hlast
  refine Inv.select h.toBase h.done checksum htie hopen ?_ ?_ ?_
  · rw [List.isChain_append]
    refine ⟨h.chain, .singleton _, fun p hp q hq => ?_⟩
    simp only [List.head?_cons, Option.mem_def, Option.some.injEq] at hq
    rw [Option.mem_def, h.last, Option.some.injEq] at hp
    subst hq hp
    refine ⟨fun heq => ?_, fun hdiff => ⟨fun hslot => hdiff hslot.symm, .inl rfl⟩⟩
    rw [h.owned]
    show owner TB d.turn = owner slot.id d.turn
    rw [show slot.id = TB from heq.symm]
  · rw [List.head?_append_of_ne_nil _ hne]
    exact h.first
  · have hused := h.used
    simp only [Bool.false_eq_true, if_false, true_or, if_true] at hused ⊢
    split at hused <;> omega

/-- The other team picks. -/
theorem nextPick (h : Recorded F d slot false) (htie : slot.id ≠ TB)
    (hleft : d.wins.red + d.wins.blue + 2 ≤ d.bestOf) : d.nextPick.Inv F := by
  have hpicks : d.nextPick.picks = d.counted := by
    simp [picks, ongoing, Draft.nextPick, Stage.inRound]
    rfl
  have hrounds : d.rounds ≠ [] := by
    intro hnil
    have hlast := h.last
    simp [counted, hnil] at hlast
  exact {
    h.toBase with
    waiting := by simp [Draft.nextPick]
    banning := by simp [Draft.nextPick]
    picking := fun _ => ⟨rfl, hleft, fun hnil => absurd hnil hrounds, fun entry hentry => by
      have hlast := h.last
      rw [counted, List.getLast?_map, Option.map_eq_some_iff] at hlast
      obtain ⟨last, hmem, heq⟩ := hlast
      obtain rfl := Option.some.inj (hmem.symm.trans hentry)
      simp only [Pick.mk.injEq] at heq
      refine ⟨heq.1 ▸ htie, ?_⟩
      rw [heq.2, h.owned, owner, if_neg htie]
      show some d.turn = some d.next.other
      rw [h.turn, Team.other_other]⟩
    inRound := by simp [Draft.nextPick, Stage.inRound]
    done := fun _ => h.done
    chain := hpicks ▸ h.chain
    first := hpicks ▸ h.first
    used := fun _ => by
      have hused := h.used
      simp only [Bool.false_eq_true, if_false, if_neg htie] at hused
      exact Nat.le_trans (Nat.le_of_add_le_add_right hused) (Nat.le_add_right _ _) }

end Recorded

end Inv

end Draft

/-! ## Consequences -/

namespace Draft.Inv

variable {F : Team} {d : Draft}

/-- The bans are shared evenly. -/
theorem bans_even (h : d.Inv F) : d.bans.red ≤ d.bans.blue + 1 ∧ d.bans.blue ≤ d.bans.red + 1 ∧
    (∀ team, d.bans.get team ≤ d.bansPerTeam) ∧ d.banned.length = d.bans.red + d.bans.blue := by
  have hcounts := count_iterate_other F d.banned.length
  rw [← h.bans, ← h.bans] at hcounts
  have hlimit := h.limit
  cases F <;> simp only [PerTeam.get, Team.other] at hcounts <;>
    refine ⟨by omega, by omega, fun team => ?_, by omega⟩ <;>
    cases team <;> simp only [PerTeam.get] <;> omega

/-- The first pick is made by the team that banned first. -/
theorem first_pick (h : d.Inv F) {pick : Pick} (hpick : pick ∈ d.picks.head?) :
    ∃ ban ∈ d.banned.head?, pick.team = some ban.teamId := by
  have hlength := h.done (.inr fun hnil => by simp [hnil] at hpick)
  have hpos := h.bansPerTeam_pos
  have horder := h.order
  cases hbanned : d.banned with
  | nil =>
    rw [hbanned, List.length_nil] at hlength
    omega
  | cons ban rest =>
    rw [hbanned] at horder
    have hteam : ban.teamId = F := (List.cons.inj horder).1
    exact ⟨ban, rfl, by rw [hteam]; exact h.first pick hpick⟩

/-- The slots besides the tiebreaker are available, banned or used. -/
theorem slots_le (h : d.Inv F) : d.slots.length ≤
    1 + d.slots.countP (fun slot => decide (slot.status = .available)) + d.banned.length +
      d.slots.countP Slot.used := by
  have hsplit : ∀ slots : List Slot, slots.length ≤ slots.countP (fun slot => decide (slot.id = TB)) +
      slots.countP (fun slot => decide (slot.status = .available)) +
      slots.countP (fun slot => decide (slot.status = .banned)) + slots.countP Slot.used := by
    intro slots
    induction slots with
    | nil => exact Nat.zero_le _
    | cons slot rest ih =>
      simp only [List.length_cons, List.countP_cons]
      by_cases htie : slot.id = TB
      · simp only [htie, decide_true, if_true]
        omega
      · by_cases hfree : slot.status = .available
        · simp only [hfree, decide_true, if_true]
          omega
        · by_cases hbanned : slot.status = .banned
          · simp only [hbanned, decide_true, if_true]
            omega
          · simp only [Slot.used, htie, hfree, hbanned, ne_eq, not_false_eq_true, and_self,
              decide_true, if_true]
            omega
  have htie : d.slots.countP (fun slot => decide (slot.id = TB)) ≤ 1 := by
    have hnodup := ruleFor_slots_nodup d.poolRank
    rw [← h.slots_eq] at hnodup
    have hcount := List.nodup_iff_count_le_one.mp hnodup TB
    rw [List.count, List.countP_map] at hcount
    simpa [Function.comp_def, beq_eq_decide] using hcount
  have hall := hsplit d.slots
  rw [h.marked] at hall
  omega

/-- Without skips there is a slot to pick. -/
theorem available (h : d.Inv F) (hstage : d.stage = .picking) (hskips : d.skips = 0) :
    0 < d.slots.countP fun slot => decide (slot.status = .available) := by
  obtain ⟨-, hleft, -, -⟩ := h.picking hstage
  have hused := h.used (by rw [hstage]; rfl)
  rw [inPlay, if_neg (by simp [hstage, Stage.inRound]), drafted, hskips] at hused
  have henough := ruleFor_slots_enough d.poolRank
  rw [← h.slots_eq, ← h.bestOf_eq, ← h.bansPerTeam_eq, List.length_map] at henough
  have hslots := h.slots_le
  have hlimit := h.limit
  omega

end Draft.Inv

end Soms.Somsai

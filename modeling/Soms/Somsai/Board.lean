import Soms.Somsai.Data

/-!
# The score board

What a match is for: a best-of-n series over a pool of slots of which one, the
tiebreaker, is kept for an even score.  The board leaves out players, clocks and
messages.  Its invariant says that the wins are those of the rounds, that no
round is counted twice, and that the tiebreaker is not drafted.
-/

namespace Soms.Somsai

/-- The tiebreaker's slot. -/
def TB : String := "TB"

structure Board where
  stage : Stage
  wins : PerTeam Nat
  rounds : List (Nat × Option Team)
  slots : String → Option SlotStatus
  current : Option String
  item : Nat
  bestOf : Nat
  winner : Option Team

namespace Board

/-- The wins that decide the series. -/
def target (b : Board) : Nat := (b.bestOf + 1) / 2

def maxWins (b : Board) : Nat := max b.wins.red b.wins.blue

def minWins (b : Board) : Nat := min b.wins.red b.wins.blue

/-- A map is selected and its round is not counted yet. -/
def inRound (b : Board) : Bool :=
  match b.stage with
  | .ready | .playing | .results => true
  | _ => false

def mark (b : Board) (slot : String) (status : SlotStatus) : Board :=
  { b with slots := Function.update b.slots slot (some status) }

/-- A slot is selected: its round gets the next item. -/
def select (b : Board) (slot : String) : Board :=
  { b.mark slot .picked with current := some slot, item := b.item + 1, stage := .ready }

/-- One more win for the winner, if there is one. -/
def addWin (wins : PerTeam Nat) : Option Team → PerTeam Nat
  | some team => wins.set team (wins.get team + 1)
  | none => wins

/-- The round on the current slot is counted. -/
def record (b : Board) (slot : String) (winner : Option Team) : Board :=
  { b.mark slot .played with
    rounds := b.rounds ++ [(b.item, winner)]
    wins := addWin b.wins winner }

def close (b : Board) (stage : Stage) (winner : Option Team) : Board :=
  { b with stage := stage, winner := winner }

/-- How a counted round may go on. -/
inductive After (b : Board) (slot : String) (winner : Option Team) : Board → Prop
  | decided (h : b.target ≤ b.maxWins) : After b slot winner (b.close .ended winner)
  | closed (h : b.maxWins < b.target) (stage : Stage) (hstage : stage.final = true)
      (champion : Option Team) : After b slot winner (b.close stage champion)
  | replay (h : b.maxWins < b.target) (hdraw : winner = none) : After b slot winner (b.select slot)
  | tiebreak (h : b.maxWins < b.target) (heven : b.minWins = b.bestOf / 2) :
      After b slot winner (b.select TB)
  | next (h : b.maxWins < b.target) : After b slot winner { b with stage := .picking }

inductive Step (b : Board) : Board → Prop
  | start (hstage : b.stage = .waiting) (stage : Stage)
      (hnext : stage = .banning ∨ stage = .picking) : Step b { b with stage := stage }
  | ban (hstage : b.stage = .banning) (slot : String) (hslot : b.slots slot = some .available)
      (stage : Stage) (hnext : stage = .banning ∨ stage = .picking) :
      Step b { b.mark slot .banned with stage := stage }
  | pick (hstage : b.stage = .picking) (slot : String) (hslot : b.slots slot = some .available) :
      Step b (b.select slot)
  | begin (hstage : b.stage = .ready) : Step b { b with stage := .playing }
  | complete (hstage : b.stage = .playing) : Step b { b with stage := .results }
  | count (hround : b.inRound = true) (slot : String) (hcurrent : b.current = some slot)
      (winner : Option Team) {b' : Board} (hafter : After (b.record slot winner) slot winner b') :
      Step b b'
  | finish (hlive : b.stage.final = false) (stage : Stage) (hstage : stage.final = true)
      (winner : Option Team) : Step b (b.close stage winner)

/-! ## The invariant -/

/-- The wins of a team among the counted rounds. -/
def roundsWon (rounds : List (Nat × Option Team)) (team : Team) : Nat :=
  (rounds.filter fun round => round.2 = some team).length

/-- The tiebreaker has not been selected. -/
def fresh (b : Board) : Prop := b.slots TB = some .tiebreaker

structure Inv (b : Board) : Prop where
  odd : b.bestOf % 2 = 1
  noVote : b.stage ≠ .poolSelect
  wins : ∀ team, b.wins.get team = roundsWon b.rounds team
  below : b.stage.final = false → b.maxWins < b.target
  increasing : (b.rounds.map Prod.fst).Pairwise (· < ·)
  counted : ∀ i ∈ b.rounds.map Prod.fst, i ≤ b.item
  uncounted : b.inRound = true → ∀ i ∈ b.rounds.map Prod.fst, i < b.item
  tiebreaker : b.fresh ∨ b.slots TB = some .picked ∨ b.slots TB = some .played
  even : b.inRound = true → b.current = some TB → ∀ team, b.wins.get team = b.bestOf / 2
  used : ¬ b.fresh → b.bestOf / 2 ≤ b.minWins
  decided : b.target ≤ b.maxWins → b.stage = .ended ∧ ∃ team, b.winner = some team ∧
    b.wins.get team = b.target ∧ b.wins.get team.other < b.target

namespace Inv

variable {b b' : Board}

theorem wins_le (b : Board) (team : Team) : b.minWins ≤ b.wins.get team ∧
    b.wins.get team ≤ b.maxWins := by
  cases team <;> simp only [minWins, maxWins, PerTeam.get] <;> omega

/-- Before the last win of an odd series an even score is half the rounds each. -/
theorem even_of_minWins (hodd : b.bestOf % 2 = 1) (hbelow : b.maxWins < b.target)
    (hmin : b.bestOf / 2 ≤ b.minWins) (team : Team) : b.wins.get team = b.bestOf / 2 := by
  have h := wins_le b team
  simp only [target] at hbelow
  omega

/-- A board that differs in its stage alone. -/
theorem setStage (h : Inv b) (hlive : b.stage.final = false) {stage : Stage}
    (hvote : stage ≠ .poolSelect)
    (hround : ({ b with stage := stage } : Board).inRound = true → b.inRound = true) :
    Inv { b with stage := stage } where
  odd := h.odd
  noVote := hvote
  wins := h.wins
  below _ := h.below hlive
  increasing := h.increasing
  counted := h.counted
  uncounted hr := h.uncounted (hround hr)
  tiebreaker := h.tiebreaker
  even hr := h.even (hround hr)
  used := h.used
  decided hd := absurd hd (Nat.not_le.mpr (h.below hlive))

/-- Closing a series that no team has won. -/
theorem close (h : Inv b) (hbelow : b.maxWins < b.target) {stage : Stage}
    (hfinal : stage.final = true) (winner : Option Team) : Inv (b.close stage winner) where
  odd := h.odd
  noVote := by rintro rfl; simp [Stage.final] at hfinal
  wins := h.wins
  below hlive := by simp [Board.close, hfinal] at hlive
  increasing := h.increasing
  counted := h.counted
  uncounted hr := by
    cases stage <;> simp [Board.close, inRound, Stage.final] at hr hfinal
  tiebreaker := h.tiebreaker
  even hr := by
    cases stage <;> simp [Board.close, inRound, Stage.final] at hr hfinal
  used := h.used
  decided hd := absurd hd (Nat.not_le.mpr hbelow)

/-- A slot other than the tiebreaker changes its status. -/
theorem markOther {slot : String} {status : SlotStatus} (hslot : slot ≠ TB) :
    (b.mark slot status).slots TB = b.slots TB := by
  simp [mark, Function.update_of_ne hslot.symm]

end Inv

/-- What holds between counting a round and going on: as `Inv`, but the current
item is counted and the series may be won. -/
structure Counted (b : Board) (winner : Option Team) : Prop where
  odd : b.bestOf % 2 = 1
  wins : ∀ team, b.wins.get team = roundsWon b.rounds team
  increasing : (b.rounds.map Prod.fst).Pairwise (· < ·)
  counted : ∀ i ∈ b.rounds.map Prod.fst, i ≤ b.item
  tiebreaker : b.fresh ∨ b.slots TB = some .picked ∨ b.slots TB = some .played
  used : ¬ b.fresh → b.bestOf / 2 ≤ b.minWins
  won : b.target ≤ b.maxWins → ∃ team, winner = some team ∧ b.wins.get team = b.target ∧
    b.wins.get team.other < b.target

theorem roundsWon_append (rounds : List (Nat × Option Team)) (item : Nat) (winner : Option Team)
    (team : Team) : roundsWon (rounds ++ [(item, winner)]) team =
      roundsWon rounds team + if winner = some team then 1 else 0 := by
  by_cases h : winner = some team <;> simp [roundsWon, List.filter_append, h]

theorem get_addWin (wins : PerTeam Nat) (winner : Option Team) (team : Team) :
    (addWin wins winner).get team = wins.get team + if winner = some team then 1 else 0 := by
  cases winner with
  | none => simp [addWin]
  | some t => cases t <;> cases team <;> simp [addWin, PerTeam.get, PerTeam.set]

/-- Counting a round of a live series. -/
theorem Inv.record {b : Board} (h : b.Inv) (hround : b.inRound = true) {slot : String}
    (hcurrent : b.current = some slot) (winner : Option Team) :
    Counted (b.record slot winner) winner := by
  have hlive : b.stage.final = false := by
    cases hs : b.stage <;> simp [inRound, hs] at hround <;> rfl
  have hbelow := h.below hlive
  have hwins := get_addWin b.wins winner
  have hmono : b.minWins ≤ (b.record slot winner).minWins := by
    have hr := hwins .red
    have hb := hwins .blue
    simp only [PerTeam.get] at hr hb
    simp only [minWins, Board.record, hr, hb]
    omega
  refine ⟨h.odd, fun team => ?_, ?_, ?_, ?_, ?_, ?_⟩
  · show (addWin b.wins winner).get team = roundsWon (b.rounds ++ [(b.item, winner)]) team
    rw [hwins, roundsWon_append, h.wins]
  · show ((b.rounds ++ [(b.item, winner)]).map Prod.fst).Pairwise (· < ·)
    rw [List.map_append, List.pairwise_append]
    refine ⟨h.increasing, by simp, fun i hi j hj => ?_⟩
    obtain rfl : j = b.item := by simpa using hj
    exact h.uncounted hround i hi
  · intro i hi
    simp only [Board.record, List.map_append, List.mem_append] at hi
    rcases hi with hi | hi
    · exact h.counted i hi
    · obtain rfl : i = b.item := by simpa using hi
      exact Nat.le_refl _
  · by_cases hslot : slot = TB
    · subst hslot
      exact .inr (.inr (by simp [Board.record, mark]))
    · simpa [fresh, Board.record, Inv.markOther hslot] using h.tiebreaker
  · intro hused
    refine Nat.le_trans ?_ hmono
    by_cases hslot : slot = TB
    · subst hslot
      have hr := h.even hround hcurrent .red
      have hb := h.even hround hcurrent .blue
      simp only [PerTeam.get] at hr hb
      show b.bestOf / 2 ≤ b.minWins
      rw [minWins, hr, hb, Nat.min_self]
    · exact h.used (by simpa [fresh, Board.record, Inv.markOther hslot] using hused)
  · intro htarget
    have hr := hwins .red
    have hb := hwins .blue
    simp only [PerTeam.get] at hr hb
    simp only [target, maxWins, Board.record, mark] at htarget hbelow ⊢
    cases winner with
    | none =>
      simp only [addWin] at htarget
      omega
    | some team =>
      refine ⟨team, rfl, ?_⟩
      cases team <;> simp [addWin, PerTeam.get, PerTeam.set, Team.other] at * <;> omega

namespace Counted

variable {b : Board} {winner : Option Team}

theorem noWin (h : Counted b winner) (hbelow : b.maxWins < b.target) {stage : Stage}
    (hvote : stage ≠ .poolSelect) (hround : ({ b with stage := stage } : Board).inRound = false)
    (champion : Option Team) : Inv { b with stage := stage, winner := champion } where
  odd := h.odd
  noVote := hvote
  wins := h.wins
  below _ := hbelow
  increasing := h.increasing
  counted := h.counted
  uncounted hr := by
    have hr : ({ b with stage := stage } : Board).inRound = true := hr
    rw [hround] at hr
    simp at hr
  tiebreaker := h.tiebreaker
  even hr := by
    have hr : ({ b with stage := stage } : Board).inRound = true := hr
    rw [hround] at hr
    simp at hr
  used := h.used
  decided hd := absurd hd (Nat.not_le.mpr hbelow)

/-- Selecting a slot after a round that did not end the series. -/
theorem select (h : Counted b winner) (hbelow : b.maxWins < b.target) {slot : String}
    (heven : slot = TB → b.bestOf / 2 ≤ b.minWins) : Inv (b.select slot) where
  odd := h.odd
  noVote := by simp [Board.select]
  wins := h.wins
  below _ := hbelow
  increasing := h.increasing
  counted i hi := Nat.le_succ_of_le (h.counted i hi)
  uncounted _ i hi := Nat.lt_succ_of_le (h.counted i hi)
  tiebreaker := by
    by_cases hslot : slot = TB
    · subst hslot
      exact .inr (.inl (by simp [Board.select, mark]))
    · simpa [fresh, Board.select, Inv.markOther hslot] using h.tiebreaker
  even _ hcurrent := by
    have hslot : slot = TB := by simpa [Board.select] using hcurrent
    exact Inv.even_of_minWins h.odd hbelow (heven hslot)
  used hused := by
    by_cases hslot : slot = TB
    · exact heven hslot
    · exact h.used (by simpa [fresh, Board.select, Inv.markOther hslot] using hused)
  decided hd := absurd hd (Nat.not_le.mpr hbelow)

theorem after (h : Counted b winner) {slot : String} {b' : Board}
    (hdraw : winner = none → slot = TB → b.bestOf / 2 ≤ b.minWins)
    (hafter : After b slot winner b') : Inv b' := by
  cases hafter with
  | decided htarget =>
    obtain ⟨team, rfl, hteam, hother⟩ := h.won htarget
    exact {
      odd := h.odd
      noVote := by simp [Board.close]
      wins := h.wins
      below := by simp [Board.close, Stage.final]
      increasing := h.increasing
      counted := h.counted
      uncounted := by simp [Board.close, inRound]
      tiebreaker := h.tiebreaker
      even := by simp [Board.close, inRound]
      used := h.used
      decided := fun _ => ⟨rfl, team, rfl, hteam, hother⟩ }
  | closed hbelow stage hfinal champion =>
    refine h.noWin hbelow ?_ ?_ champion
    · rintro rfl
      simp [Stage.final] at hfinal
    · cases stage <;> simp [Stage.final, inRound] at hfinal ⊢
  | replay hbelow hnone => exact h.select hbelow (hdraw hnone)
  | tiebreak hbelow heven => exact h.select hbelow fun _ => heven.ge
  | next hbelow => exact h.noWin hbelow (by simp) (by simp [inRound]) b.winner

end Counted

/-- Every step keeps the invariant. -/
theorem Step.inv {b b' : Board} (h : Step b b') (hb : b.Inv) : b'.Inv := by
  cases h with
  | start hstage stage hnext =>
    refine hb.setStage (by simp [hstage, Stage.final]) ?_ ?_ <;>
      rcases hnext with rfl | rfl <;> simp [inRound]
  | ban hstage slot hslot stage hnext =>
    have hne : slot ≠ TB := by
      rintro rfl
      rcases hb.tiebreaker with ht | ht | ht <;> simp_all [fresh]
    have hmarked : (b.mark slot .banned).Inv := {
      hb with
      tiebreaker := by simpa [fresh, Inv.markOther hne] using hb.tiebreaker
      used := fun hused => hb.used (by simpa [fresh, Inv.markOther hne] using hused) }
    refine hmarked.setStage (by simp [mark, hstage, Stage.final]) ?_ ?_ <;>
      rcases hnext with rfl | rfl <;> simp [inRound]
  | pick hstage slot hslot =>
    have hne : slot ≠ TB := by
      rintro rfl
      rcases hb.tiebreaker with ht | ht | ht <;> simp_all [fresh]
    have hbelow := hb.below (by simp [hstage, Stage.final])
    have hcounted : Counted b none := ⟨hb.odd, hb.wins, hb.increasing, hb.counted, hb.tiebreaker,
      hb.used, fun hd => absurd hd (Nat.not_le.mpr hbelow)⟩
    exact hcounted.select hbelow fun heq => absurd heq hne
  | begin hstage =>
    exact hb.setStage (by simp [hstage, Stage.final]) (by simp)
      fun _ => by simp [inRound, hstage]
  | complete hstage =>
    exact hb.setStage (by simp [hstage, Stage.final]) (by simp)
      fun _ => by simp [inRound, hstage]
  | count hround slot hcurrent winner hafter =>
    refine (hb.record hround hcurrent winner).after (fun _ hslot => ?_) hafter
    subst hslot
    have hused := (hb.record hround hcurrent winner).used
    exact hused (by simp [fresh, Board.record, mark])
  | finish hlive stage hfinal winner => exact hb.close (hb.below hlive) hfinal winner

end Board

end Soms.Somsai

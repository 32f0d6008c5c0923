import Mathlib.Logic.Relation
import Soms.Somsai.Updates

/-!
# Every play is a sequence of moves

One lemma for each body that acts on a match: a run that returns has moved the
store along `Plays`.
-/

namespace Soms.Somsai

open Txn World

/-- The stage in which a match is finished. -/
def finalStage (cancelled : Bool) : Stage := if cancelled then .cancelled else .ended

theorem final_finalStage (cancelled : Bool) : (finalStage cancelled).final = true := by
  cases cancelled <;> rfl

/-- One atomic change by which the match `k` goes on or ends. -/
inductive Play (clock : Prop) (ctx : Ctx) (k : MatchId) : World → World → Prop
  | quiet {w t : World} (h : Quiet w t) : Play clock ctx k w t
  | move {w : World} {m m' : Match} (hrow : w.matchRows.row k = some m)
      (hupdate : m.Update clock ctx w m') : Play clock ctx k w (w.putMatch k m')
  | finish {w : World} {m : Match} (hrow : w.matchRows.row k = some m)
      (hlive : m.stage.final = false) {winner : Option Team} {cancelled : Bool} {reason : String}
      (hending : m.Ending ctx winner cancelled reason) :
      Play clock ctx k w (w.finishMatch ctx k winner cancelled reason)
  /-- A round is counted and the match ends with it. -/
  | round {w : World} {m : Match} (hrow : w.matchRows.row k = some m) {slot : Slot}
      {winner : Option Team} {totals : PerTeam Nat} {players : List PlayerResult} {forfeit : Bool}
      {reason : String} (hslot : m.state.playedSlot = some slot)
      (hcounts : m.Counts clock ctx w slot winner totals players forfeit reason)
      {champion : Option Team} {cancelled : Bool} {why : String}
      (hconcludes : (m.record ctx slot winner totals players forfeit reason).Concludes winner
        forfeit champion cancelled why) :
      Play clock ctx k w ((w.putMatch k (m.record ctx slot winner totals players forfeit
        reason)).finishMatch ctx k champion cancelled why)

/-- The closure of `Play`. -/
def Plays (clock : Prop) (ctx : Ctx) (k : MatchId) : World → World → Prop :=
  Relation.ReflTransGen (Play clock ctx k)

section Plays

variable {clock : Prop} {ctx : Ctx} {k : MatchId} {w t : World} {m : Match}

instance : Std.Refl (Plays clock ctx k) := ⟨fun _ => .refl⟩

instance : IsTrans World (Plays clock ctx k) := ⟨fun _ _ _ => Relation.ReflTransGen.trans⟩

theorem Play.plays (h : Play clock ctx k w t) : Plays clock ctx k w t := .single h

theorem Plays.quiet (h : Quiet w t) : Plays clock ctx k w t := (Play.quiet h).plays

instance {α : Type} {x : Act α} [h : Follows Quiet x] : Follows (Plays clock ctx k) x :=
  h.mono fun _ _ => Plays.quiet

theorem World.Quiet.row (h : Quiet w t) {j : MatchId} : t.matchRows.row j = w.matchRows.row j := by
  have hrows : t.matchRows = w.matchRows := congrArg Core.matchRows h.core
  rw [hrows]

theorem row_putMatch (hrow : w.matchRows.row k = some m) (m' : Match) :
    (w.putMatch k m').matchRows.row k = some m' := by
  simp [putMatch, hrow]

theorem getMatch_ok {u : World} (h : getMatch k w = (.ok m, u)) :
    w.matchRows.row k = some m ∧ w = u :=
  require_ok.mp h

/-- Selecting a map cancels the match when its beatmap is gone. -/
theorem selectMap_ok {slotId : String} {u : Unit} (h : selectMap ctx k slotId w = (.ok u, t)) :
    ∃ m slot, w.matchRows.row k = some m ∧ m.state.findSlot slotId = some slot ∧
      (t = w.finishMatch ctx k none true
          ("A pool beatmap is no longer available. " ++
            "The match was cancelled without a rating change.") ∨
        ∃ checksum, Quiet (w.putMatch k (m.select ctx slotId checksum)) t) := by
  obtain ⟨m, _, hget, h⟩ := bind_ok.mp h
  obtain ⟨hrow, rfl⟩ := getMatch_ok hget
  obtain ⟨slot, _, hreq, h⟩ := bind_ok.mp h
  obtain ⟨hslot, rfl⟩ := require_ok.mp hreq
  obtain rfl := write_ok.mp h
  refine ⟨m, slot, hrow, hslot, ?_⟩
  have hid := findSlot_id hslot
  unfold selectSlot
  split
  · exact .inl rfl
  · next beatmap _ =>
    rw [hid]
    exact .inr ⟨beatmap.checksum, rfl, fun _ => .inl rfl⟩

instance {o : Option UserId} {action : DraftKind} {slotId : String} :
    Follows (Plays clock ctx k) (draftAction ctx k o action slotId) where
  ok := by
    intro w _ t h
    obtain ⟨m, _, hget, h⟩ := bind_ok.mp h
    obtain ⟨hrow, rfl⟩ := getMatch_ok hget
    obtain ⟨_, _, hcaptain, h⟩ := bind_ok.mp h
    obtain ⟨-, rfl⟩ := refuse_ok.mp hcaptain
    obtain ⟨_, _, hphase, h⟩ := bind_ok.mp h
    obtain ⟨hstage, rfl⟩ := refuse_ok.mp hphase
    obtain ⟨slot, _, hreq, h⟩ := bind_ok.mp h
    obtain ⟨hslot, rfl⟩ := require_ok.mp hreq
    obtain ⟨_, _, hfree, h⟩ := bind_ok.mp h
    obtain ⟨hstatus, rfl⟩ := refuse_ok.mp hfree
    simp only [ne_eq, not_not] at hstage hstatus
    cases action with
    | ban =>
      obtain rfl := write_ok.mp h
      exact (Play.move hrow (.ban hstage hslot hstatus)).plays
    | pick =>
      obtain ⟨m', slot', hrow', -, hend⟩ := selectMap_ok h
      obtain rfl := Option.some.inj (hrow.symm.trans hrow')
      rcases hend with rfl | ⟨checksum, hquiet⟩
      · exact (Play.finish hrow (by rw [hstage]; rfl) (.gone hstage)).plays
      · exact (Play.move hrow (.pick hstage hslot hstatus checksum)).plays.trans
          (Plays.quiet hquiet)

theorem putMatch_putMatch (w : World) (k : MatchId) (m m' : Match) :
    (w.putMatch k m).putMatch k m' = w.putMatch k m' := by
  simp [putMatch, Table.modify_modify, Function.comp_def]

/-- A counted round ends the match or goes on with it. -/
theorem completeRound_ok {winner : Option Team} {totals : PerTeam Nat}
    {players : List PlayerResult} {forfeit : Bool} {reason : String} {u : Unit}
    (hrow : w.matchRows.row k = some m)
    (h : completeRound ctx k winner totals players forfeit reason w = (.ok u, t)) :
    ∃ slot, m.state.playedSlot = some slot ∧
      ((∃ champion cancelled why,
        (m.record ctx slot winner totals players forfeit reason).Concludes winner forfeit champion
          cancelled why ∧
        t = (w.putMatch k (m.record ctx slot winner totals players forfeit reason)).finishMatch ctx
          k champion cancelled why) ∨
      ∃ m', (m.record ctx slot winner totals players forfeit reason).Resumes ctx w slot winner
        forfeit m' ∧ Quiet (w.putMatch k m') t) := by
  obtain ⟨m', _, hget, h⟩ := bind_ok.mp h
  obtain ⟨hrow', rfl⟩ := getMatch_ok hget
  obtain rfl := Option.some.inj (hrow.symm.trans hrow')
  obtain ⟨slot, _, hreq, h⟩ := bind_ok.mp h
  obtain ⟨hslot, rfl⟩ := require_ok.mp hreq
  obtain ⟨_, _, hput, h⟩ := bind_ok.mp h
  obtain rfl := write_ok.mp hput
  refine ⟨slot, hslot, ?_⟩
  have hrow₁ := row_putMatch hrow (m.record ctx slot winner totals players forfeit reason)
  -- A selection after the round, or the end when the beatmap is gone.
  have hselect : ∀ slotId,
      (m.record ctx slot winner totals players forfeit reason).Concludes winner forfeit none true
        ("A pool beatmap is no longer available. " ++
          "The match was cancelled without a rating change.") →
      (∀ tie checksum,
        (m.record ctx slot winner totals players forfeit reason).state.findSlot slotId = some tie →
        (m.record ctx slot winner totals players forfeit reason).Resumes ctx w slot winner forfeit
          ((m.record ctx slot winner totals players forfeit reason).select ctx slotId checksum)) →
      selectMap ctx k slotId (w.putMatch k
        (m.record ctx slot winner totals players forfeit reason)) = (.ok u, t) →
      ((∃ champion cancelled why,
        (m.record ctx slot winner totals players forfeit reason).Concludes winner forfeit champion
          cancelled why ∧
        t = (w.putMatch k (m.record ctx slot winner totals players forfeit reason)).finishMatch ctx
          k champion cancelled why) ∨
      ∃ m', (m.record ctx slot winner totals players forfeit reason).Resumes ctx w slot winner
        forfeit m' ∧ Quiet (w.putMatch k m') t) := by
    intro slotId hgone hresumes hrun
    obtain ⟨m₂, tie, hrow₂, htie, hcase⟩ := selectMap_ok hrun
    obtain rfl := Option.some.inj (hrow₁.symm.trans hrow₂)
    rcases hcase with rfl | ⟨checksum, hquiet⟩
    · exact .inl ⟨_, _, _, hgone, rfl⟩
    · rw [putMatch_putMatch] at hquiet
      exact .inr ⟨_, hresumes tie checksum htie, hquiet⟩
  split at h
  · next htarget =>
    obtain rfl := write_ok.mp h
    exact .inl ⟨_, _, _, .won htarget, rfl⟩
  · next htarget =>
    have hbelow := Nat.lt_of_not_le htarget
    split at h
    · next hdraw =>
      split at h
      · next hthree =>
        obtain rfl := write_ok.mp h
        exact .inl ⟨_, _, _, .draws hbelow hdraw hthree, rfl⟩
      · next hfew =>
        have hfew := Nat.lt_of_not_le hfew
        exact hselect slot.id (.gone hbelow fun _ => hfew)
          (fun _ checksum _ => .replay hbelow hdraw hfew checksum) h
    · next hpoint =>
      split at h
      · next heven =>
        exact hselect "TB" (.gone hbelow fun hdraw => absurd hdraw hpoint)
          (fun _ checksum htie => .tiebreak hbelow hpoint heven htie checksum) h
      · next huneven =>
        obtain rfl := write_ok.mp h
        rw [putMatch_putMatch]
        exact .inr ⟨_, .next hbelow hpoint huneven, .refl _⟩

theorem completeRound_plays {winner : Option Team} {totals : PerTeam Nat}
    {players : List PlayerResult} {forfeit : Bool} {reason : String} {u : Unit}
    (hrow : w.matchRows.row k = some m)
    (hcounts : ∀ slot, m.state.playedSlot = some slot →
      m.Counts clock ctx w slot winner totals players forfeit reason)
    (h : completeRound ctx k winner totals players forfeit reason w = (.ok u, t)) :
    Plays clock ctx k w t := by
  obtain ⟨slot, hslot, ⟨champion, cancelled, why, hconcludes, rfl⟩ | ⟨m', hresumes, hquiet⟩⟩ :=
    completeRound_ok hrow h
  · exact (Play.round hrow hslot (hcounts slot hslot) hconcludes).plays
  · exact (Play.move hrow (.count hslot (hcounts slot hslot) hresumes)).plays.trans
      (Plays.quiet hquiet)

/-- Settling a round counts it, unless scores are still awaited. -/
theorem settleRound_ok {force : Bool} {u : Unit} (hrow : w.matchRows.row k = some m)
    (h : settleRound ctx k force w = (.ok u, t)) :
    ((m.stage = .results → force = false) ∧ w = t) ∨
      m.stage = .results ∧ ∃ slot, m.state.playedSlot = some slot ∧
        (force = true ∨ m.allSubmitted w slot = true) ∧
        completeRound ctx k (roundWinner (m.roundTotals w slot)) (m.roundTotals w slot)
          (m.roundPlayers w slot) false "" w = (.ok u, t) := by
  obtain ⟨m', _, hget, h⟩ := bind_ok.mp h
  obtain ⟨hrow', rfl⟩ := getMatch_ok hget
  obtain rfl := Option.some.inj (hrow.symm.trans hrow')
  rcases when_ok.mp h with ⟨hstage, h⟩ | ⟨hother, rfl⟩
  · obtain ⟨slot, _, hreq, h⟩ := bind_ok.mp h
    obtain ⟨hslot, rfl⟩ := require_ok.mp hreq
    obtain ⟨scores, _, hread, h⟩ := bind_ok.mp h
    obtain ⟨rfl, rfl⟩ := read_ok.mp hread
    rcases when_ok.mp h with ⟨hdone, h⟩ | ⟨hopen, rfl⟩
    · rw [Bool.or_eq_true] at hdone
      exact .inr ⟨decide_eq_true_eq.mp hstage, slot, hslot, hdone, h⟩
    · exact .inl ⟨fun _ => (Bool.or_eq_false_iff.mp hopen).1, rfl⟩
  · exact .inl ⟨fun hstage => absurd hstage (of_decide_eq_false hother), rfl⟩

theorem settleRound_plays {force : Bool} {u : Unit} (hclock : clock)
    (hrow : w.matchRows.row k = some m) (hforce : force = m.expired ctx.now)
    (h : settleRound ctx k force w = (.ok u, t)) : Plays clock ctx k w t := by
  rcases settleRound_ok hrow h with ⟨-, rfl⟩ | ⟨hstage, slot, hslot, hdone, h⟩
  · exact .refl
  · refine completeRound_plays hrow (fun slot' hslot' => ?_) h
    obtain rfl := Option.some.inj (hslot.symm.trans hslot')
    rw [hforce] at hdone
    exact .settled hclock hstage hdone

/-! ## Player actions -/

theorem finishPoolVote_plays {u : Unit} (hrow : w.matchRows.row k = some m)
    (hstage : m.stage = .poolSelect) (h : finishPoolVote ctx k w = (.ok u, t)) :
    Plays clock ctx k w t := by
  obtain ⟨m', _, hget, h⟩ := bind_ok.mp h
  obtain ⟨hrow', rfl⟩ := getMatch_ok hget
  obtain rfl := Option.some.inj (hrow.symm.trans hrow')
  obtain ⟨chosen, _, hchoice, h⟩ := bind_ok.mp h
  obtain ⟨-, rfl⟩ := require_ok.mp hchoice
  obtain ⟨candidate, _, hfind, h⟩ := bind_ok.mp h
  obtain ⟨hcandidate, rfl⟩ := require_ok.mp hfind
  obtain rfl := write_ok.mp h
  exact Play.plays (.move hrow (.choose hstage chosen (List.mem_of_find?_eq_some hcandidate)))

instance {uid : UserId} {poolId : Option Nat} : Follows (Plays clock ctx k) (poolVote ctx k uid poolId) where
  ok := by
    intro w _ t h
    obtain ⟨m, _, hget, h⟩ := bind_ok.mp h
    obtain ⟨hrow, rfl⟩ := getMatch_ok hget
    obtain ⟨_, _, hphase, h⟩ := bind_ok.mp h
    obtain ⟨hstage, rfl⟩ := refuse_ok.mp hphase
    have hvote : m.stage = .poolSelect := by
      by_contra hne
      exact hstage (.inl hne)
    obtain ⟨chosen, _, hreq, h⟩ := bind_ok.mp h
    obtain ⟨-, rfl⟩ := require_ok.mp hreq
    obtain ⟨_, _, hput, h⟩ := bind_ok.mp h
    obtain rfl := write_ok.mp hput
    have hplay : Plays clock ctx k w _ := Play.plays (.move hrow (.vote hvote uid chosen))
    rcases when_ok.mp h with ⟨-, h⟩ | ⟨-, rfl⟩
    · exact hplay.trans (finishPoolVote_plays (row_putMatch hrow _) hvote h)
    · exact hplay

instance {uid : UserId} : Follows (Plays clock ctx k) (customStart ctx k uid) where
  ok := by
    intro w _ t h
    obtain ⟨m, _, hget, h⟩ := bind_ok.mp h
    obtain ⟨hrow, rfl⟩ := getMatch_ok hget
    obtain ⟨_, _, howner, h⟩ := bind_ok.mp h
    obtain ⟨hcustom, rfl⟩ := refuse_ok.mp howner
    rcases when_ok.mp h with ⟨hstage, h⟩ | ⟨-, rfl⟩
    · obtain ⟨_, _, hfill, h⟩ := bind_ok.mp h
      obtain ⟨hfilled, rfl⟩ := refuse_ok.mp hfill
      obtain rfl := write_ok.mp h
      have hranked : m.ranked = false := by simpa using fun hr => hcustom (.inl hr)
      refine (Play.move hrow (.start (decide_eq_true_eq.mp hstage) ?_)).plays
      rw [hranked, if_neg Bool.false_ne_true]
      simpa using hfilled
    · exact .refl

/-- A waiting match is cancelled after penalties. -/
theorem penalised_plays {uids : List UserId} {reason : String} {m' : Match} {u : Unit}
    (hrow : w.matchRows.row k = some m) (hlive : m.stage.final = false)
    (hending : m.Ending ctx none true reason)
    (h : (penaliseUnaccepted ctx k m' uids >>= fun _ =>
      write (World.finishMatch ctx k none true reason)) w = (.ok u, t)) : Plays clock ctx k w t := by
  obtain ⟨_, v, hpenalise, h⟩ := bind_ok.mp h
  have hquiet := (inferInstance : Follows Quiet _).ok hpenalise
  obtain rfl := write_ok.mp h
  exact (Plays.quiet hquiet).trans
    (Play.finish (hquiet.row.trans hrow) hlive hending).plays

instance {uid : UserId} : Follows (Plays clock ctx k) (declineMatch ctx k uid) where
  ok := by
    intro w _ t h
    obtain ⟨m, _, hget, h⟩ := bind_ok.mp h
    obtain ⟨hrow, rfl⟩ := getMatch_ok hget
    obtain ⟨_, _, hphase, h⟩ := bind_ok.mp h
    obtain ⟨hstage, rfl⟩ := refuse_ok.mp hphase
    simp only [not_or, not_not, Bool.not_eq_false] at hstage
    exact penalised_plays hrow (by rw [hstage.2]; rfl) (.declined hstage.1 hstage.2) h

instance {uid : UserId} {ready : Bool} : Follows (Plays clock ctx k) (answerReady ctx k uid ready) where
  ok := by
    intro w _ t h
    obtain ⟨m, _, hget, h⟩ := bind_ok.mp h
    obtain ⟨hrow, rfl⟩ := getMatch_ok hget
    obtain ⟨_, _, hphase, h⟩ := bind_ok.mp h
    obtain ⟨hstage, rfl⟩ := refuse_ok.mp hphase
    obtain ⟨_, _, hunready, h⟩ := bind_ok.mp h
    obtain ⟨-, rfl⟩ := refuse_ok.mp hunready
    obtain ⟨_, _, hput, h⟩ := bind_ok.mp h
    obtain rfl := write_ok.mp hput
    have hstage : m.stage = .waiting ∨ m.stage = .ready := by
      by_contra hne
      exact hstage (not_or.mp hne)
    have hplay : Plays clock ctx k w _ := Play.plays (.move hrow (.answer uid ready hstage))
    rcases when_ok.mp h with ⟨hstart, h⟩ | ⟨-, rfl⟩
    · obtain rfl := write_ok.mp h
      simp only [Bool.and_eq_true, decide_eq_true_eq] at hstart
      refine hplay.trans (Play.move (row_putMatch hrow _) (.start hstart.1.2 ?_)).plays
      rw [hstart.1.1, if_pos rfl]
      exact hstart.2
    · exact hplay

theorem liveAction_plays {uid : UserId} {action : MatchAct} {slotId : String}
    {poolId : Option Nat} {u : Unit} (hrow : w.matchRows.row k = some m)
    (hlive : m.stage.final = false) (hmember : uid ∈ membersOf m)
    (h : liveAction ctx k m uid action slotId poolId w = (.ok u, t)) : Plays clock ctx k w t := by
  cases action <;> simp only [liveAction] at h
  case leaveMatch =>
    obtain rfl := write_ok.mp h
    exact (Play.finish hrow hlive (.left hmember)).plays
  all_goals exact (inferInstance : Follows (Plays clock ctx k) _).ok h

/-- An action plays the match, or leaves a final one. -/
theorem matchAction_ok {uid : UserId} {action : MatchAct} {slotId : Option String}
    {revision poolId : Option Nat} {u : Unit}
    (h : matchAction ctx k uid action slotId revision poolId w = (.ok u, t)) :
    ∃ m, w.matchRows.row k = some m ∧ uid ∈ membersOf m ∧
      ((m.stage.final = true ∧ action = .leaveMatch ∧ t = w.setMatch ctx.now uid none) ∨
        (m.stage.final = false ∧ Plays clock ctx k w t)) := by
  obtain ⟨m, _, hget, h⟩ := bind_ok.mp h
  obtain ⟨hrow, rfl⟩ := getMatch_ok hget
  obtain ⟨_, _, hroster, h⟩ := bind_ok.mp h
  obtain ⟨hmember, rfl⟩ := refuse_ok.mp hroster
  refine ⟨m, hrow, not_not.mp hmember, ?_⟩
  split at h
  · next hfinal =>
    obtain ⟨_, _, hover, h⟩ := bind_ok.mp h
    obtain ⟨hleave, rfl⟩ := refuse_ok.mp hover
    obtain rfl := write_ok.mp h
    exact .inl ⟨hfinal, not_not.mp hleave, rfl⟩
  · next hlive =>
    obtain ⟨_, _, hrevision, h⟩ := bind_ok.mp h
    obtain ⟨-, rfl⟩ := refuse_ok.mp hrevision
    have hlive : m.stage.final = false := by simpa using hlive
    exact .inr ⟨hlive, liveAction_plays hrow hlive (not_not.mp hmember) h⟩

/-! ## Events and the clock -/

theorem roundEvent_plays {e : RoomEvent} {u : Unit} (hrow : w.matchRows.row k = some m)
    (hlive : m.stage.final = false) (h : roundEvent ctx k m e w = (.ok u, t)) :
    Plays clock ctx k w t := by
  unfold roundEvent at h
  dsimp only at h
  split at h
  · next hstart =>
    obtain ⟨_, _, hready, h⟩ := bind_ok.mp h
    obtain ⟨hstartable, rfl⟩ := refuse_ok.mp hready
    obtain rfl := write_ok.mp h
    exact Play.plays (.move hrow (.begins hstart.2.1 e (by simpa using hstartable)))
  · split at h
    · next hcomplete =>
      obtain rfl := write_ok.mp h
      exact Play.plays (.move hrow (.completes hcomplete.2.1 e))
    · obtain rfl := write_ok.mp h
      exact Play.plays (.move hrow (.heard hlive e))

instance {e : RoomEvent} : Follows (Plays clock ctx k) (matchEvent ctx k e) where
  ok := by
    intro w _ t h
    obtain ⟨m, _, hget, h⟩ := bind_ok.mp h
    obtain ⟨hrow, rfl⟩ := getMatch_ok hget
    split at h
    · obtain ⟨-, rfl⟩ := pure_ok.mp h
      exact .refl
    · next hlive =>
      split at h
      · next habort => exact completeRound_plays hrow (fun _ _ => .aborted habort.2.1) h
      · exact roundEvent_plays hrow (by simpa using hlive) h

theorem readyExpired_plays {u : Unit} (hrow : w.matchRows.row k = some m)
    (hstage : m.stage = .ready) (hexpired : m.expired ctx.now = true)
    (h : readyExpired ctx k m w = (.ok u, t)) : Plays clock ctx k w t := by
  unfold readyExpired at h
  dsimp only at h
  split at h
  · next hmissing =>
    exact completeRound_plays hrow (fun _ _ => .missed hstage hexpired hmissing) h
  · next hnone =>
    obtain rfl := write_ok.mp h
    simp only [not_or, not_not, Bool.not_eq_true] at hnone
    exact Play.plays (.move hrow (.force hstage hexpired hnone.1 hnone.2))

theorem deadlineExpired_plays {u : Unit} (hrow : w.matchRows.row k = some m)
    (hexpired : m.expired ctx.now = true) (h : deadlineExpired ctx k m w = (.ok u, t)) :
    Plays clock ctx k w t := by
  have hfinish : ∀ {reason}, m.stage.final = false → m.Ending ctx none true reason →
      (write (World.finishMatch ctx k none true reason) : Act Unit) w = (.ok u, t) →
        Plays clock ctx k w t := by
    intro reason hlive hending hrun
    obtain rfl := write_ok.mp hrun
    exact (Play.finish hrow hlive hending).plays
  unfold deadlineExpired at h
  cases hstage : m.stage <;> simp only [hstage] at h
  case waiting =>
    obtain ⟨_, v, hpenalise, h⟩ := bind_ok.mp h
    have hquiet := (inferInstance : Follows Quiet _).ok hpenalise
    obtain rfl := write_ok.mp h
    exact (Plays.quiet hquiet).trans
      (Play.finish (hquiet.row.trans hrow) (by rw [hstage]; rfl)
        (.unaccepted hstage hexpired)).plays
  case poolSelect => exact finishPoolVote_plays hrow hstage h
  case banning | picking =>
    cases hslots : m.state.availableSlots with
    | nil =>
      simp only [hslots] at h
      exact hfinish (by rw [hstage]; rfl) (.exhausted (by simp [hstage]) hslots) h
    | cons slot rest =>
      simp only [hslots] at h
      exact (inferInstance : Follows (Plays clock ctx k) _).ok h
  case ready => exact readyExpired_plays hrow hstage hexpired h
  case playing => exact hfinish (by rw [hstage]; rfl) (.timeout hstage hexpired) h
  all_goals
    obtain ⟨-, rfl⟩ := pure_ok.mp h
    exact .refl

theorem tickStage_plays {u : Unit} (hclock : clock) (hrow : w.matchRows.row k = some m)
    (h : tickStage ctx k m w = (.ok u, t)) : Plays clock ctx k w t := by
  unfold tickStage at h
  cases hbot : botChoice ctx k m with
  | some slot =>
    simp only [hbot] at h
    exact (inferInstance : Follows (Plays clock ctx k) _).ok h
  | none =>
    simp only [hbot] at h
    split at h
    · exact settleRound_plays hclock hrow rfl h
    · rcases when_ok.mp h with ⟨hexpired, h⟩ | ⟨-, rfl⟩
      · exact deadlineExpired_plays hrow hexpired h
      · exact .refl

theorem tickMatch_plays (hclock : clock) : Follows (Plays clock ctx k) (tickMatch ctx k) where
  ok := by
    intro w _ t h
    obtain ⟨m, _, hget, h⟩ := bind_ok.mp h
    obtain ⟨hrow, rfl⟩ := getMatch_ok hget
    split at h
    · obtain ⟨-, rfl⟩ := pure_ok.mp h
      exact .refl
    · next hlive =>
      have hlive : m.stage.final = false := by simpa using hlive
      split at h
      · next hlost =>
        obtain rfl := write_ok.mp h
        exact (Play.finish hrow hlive (.lost hlost.1 hlost.2)).plays
      · split at h
        · next hoffline =>
          obtain rfl := write_ok.mp h
          exact (Play.finish hrow hlive (.offline hoffline)).plays
        · exact tickStage_plays hclock hrow h

end Plays

end Soms.Somsai

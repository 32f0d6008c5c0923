import Soms.Retries.Settled

/-!
# No retry is lost and none does harm

A pass over an id that is finished changes nothing.  Along every run of producers,
the worker and its crashes, the ids that are owed a pass are in one of the lists,
unless a cancellation takes out the last copy of one.
-/

namespace Soms.Retries

open Soms.Scores Txn

variable {srv : Service}

section Pass

variable {s t : State} {sid : ScoreId} {a : Attempt}

theorem rechecked_self {sc : Score} {bm : Beatmap} (hsc : s.scores.row sid = some sc)
    (hchecked : sc.checked bm = sc) : rechecked s sid sc bm = s := by
  have hrows : s.scores.modify sid (fun _ => sc) = s.scores := by
    rw [Table.modify_congr (g := fun sc => sc), Table.modify_id]
    intro sc' hsc'
    rw [Option.some.inj (hsc'.symm.trans hsc)]
  unfold rechecked
  rw [hchecked, hrows]

theorem retotalled_self {srv : Server} (hs : PpAgrees srv s) {um : UserMode} {st : UserStatistics}
    (hst : s.stats um = some st) : retotalled srv s um st = s := by
  have htotal := hs.total um st hst
  have hsame : ({ st with
      pp := (srv.userPp (s.ppRows um)).1
      hitAccuracy := (srv.userPp (s.ppRows um)).2 } : UserStatistics) = st := by
    rw [← htotal]
  unfold retotalled
  rw [hsame, ← hst, Function.update_eq_self]

/-- **A replayed pass** changes nothing. -/
theorem passOver_settled (hs : Settled srv sid s) (hpp : PpAgrees srv.toServer s) (a : Attempt) :
    (passOver srv a sid s).2 = s := by
  obtain ⟨sc, bm, hsc, hbm, hdone, hchecked, hawarded⟩ := hs
  rcases passOver_cases srv a sid s with ⟨hsame, -⟩ | ⟨_, _, -, -, hrun, -⟩ | hrun
  · exact hsame
  · obtain ⟨sc', _, _, hsc', -, -, hnew, -⟩ := finalizeScore_ok hrun
    rw [Option.some.inj (hsc'.symm.trans hsc), hdone] at hnew
    exact absurd hnew (by simp)
  · obtain ⟨sc', bm', st, hsc', hbm', hset, hst, -⟩ := retryPp_rows hrun
    obtain rfl := Option.some.inj (hsc'.symm.trans hsc)
    obtain rfl := Option.some.inj (hbm'.symm.trans hbm)
    rw [retryPp_eq hsc hbm hset hst hdone, rechecked_self hsc hchecked, hchecked] at hrun
    split at hrun
    · next hallowed =>
      have hawarded := hawarded (by unfold ppAllowed; rwa [hchecked])
      split at hrun
      · next w hw =>
        obtain rfl := processScorePp_same hsc hawarded hw
        rw [retotalled_self hpp hst] at hrun
        exact (Prod.mk.inj hrun).2.symm
      · simp at hrun
    · exact (Prod.mk.inj hrun).2.symm

/-- A pass keeps every settled score settled. -/
theorem Settled.passOver (hs : Settled srv sid s) (hpp : PpAgrees srv.toServer s) (a : Attempt)
    (id : ScoreId) : Settled srv sid (passOver srv a id s).2 := by
  by_cases hid : sid = id
  · subst hid
    rw [passOver_settled hs hpp]
    exact hs
  · rcases passOver_cases srv a id s with ⟨hsame, -⟩ | ⟨_, _, -, -, hrun, -⟩ | hrun
    · rw [hsame]
      exact hs
    · exact hs.finalize hrun
    · exact hs.retry hrun hid

theorem PpAgrees.passOver (hpp : PpAgrees srv.toServer s) (a : Attempt) (id : ScoreId) :
    PpAgrees srv.toServer (passOver srv a id s).2 := by
  rcases passOver_cases srv a id s with ⟨hsame, -⟩ | ⟨_, _, -, -, hrun, -⟩ | hrun
  · rw [hsame]
    exact hpp
  · exact hpp.finalize hrun
  · exact hpp.retry hrun

end Pass

/-! ## Runs -/

/-- The event changes no policy and no chart that is there. -/
def Event.KeepsPolicies : Event → Prop
  | .serve e => e.isPlay = true ∨ ∃ b u, e = .fetch b u
  | _ => True

variable (srv) in
/-- A pass over the id committed its work, with the PP of the score where it is due,
and no policy was changed since. -/
def Finished (sid : ScoreId) : List (Event × System) → Prop
  | [] => False
  | (e, _) :: past =>
    (∃ a, e = .work a ∧ (endState System.empty past).phase = .working sid ∧
      (passOver srv a sid (endState System.empty past).tables).1 = .finished) ∨
    Finished sid past ∧ e.KeepsPolicies

variable (srv) in
/-- Another pass over a finished id leaves the scores, the best scores and the statistics
as they are, as every other table. -/
def Replays (past : List (Event × System)) (e : Event) (t : System) : Prop :=
  ∀ sid, Finished srv sid ((e, t) :: past) → ∀ a, (passOver srv a sid t.tables).2 = t.tables

variable {h : List (Event × System)} {s t : System} {e : Event} {sid : ScoreId}

/-- What an event does to the tables. -/
theorem tables_after (s : System) (e : Event) :
    (s.after srv e).tables = s.tables ∨
    (∃ e', e = .serve e' ∧ Scores.Step srv.toDeployment s.tables e' (s.after srv e).tables) ∨
    ∃ a sid, e = .work a ∧ s.phase = .working sid ∧
      (s.after srv e).tables = (passOver srv a sid s.tables).2 := by
  cases e with
  | serve e' =>
    rcases Txn.commit_cases (serve srv.toDeployment e') s.tables with ⟨u, hu⟩ | ⟨-, hsame⟩
    · exact .inr (.inl ⟨e', rfl, u, hu⟩)
    · exact .inl hsame
  | work a =>
    cases hphase : s.phase with
    | working sid =>
      refine .inr (.inr ⟨a, sid, rfl, rfl, ?_⟩)
      simp only [System.after, hphase]
    | _ => exact .inl (by simp only [System.after, hphase])
  | push => exact .inl rfl
  | enqueueMissing => exact .inl (by simp only [System.after]; split <;> rfl)
  | start => exact .inl (by simp only [System.after]; split <;> rfl)
  | recover => exact .inl (by simp only [System.after]; split <;> [split <;> rfl; rfl])
  | claim => exact .inl (by simp only [System.after]; split <;> [split <;> rfl; rfl])
  | acknowledge delivered =>
    refine .inl ?_
    simp only [System.after]
    split
    · show (s.close _ _ _).tables = _
      unfold System.close
      split <;> rfl
    · rfl
  | giveBack => exact .inl (by simp only [System.after]; split <;> [split <;> rfl; rfl])
  | crash => exact .inl rfl
  | cancel delivered =>
    refine .inl ?_
    simp only [System.after]
    split
    · show (s.close _ _ _).tables = _
      unfold System.close
      split <;> rfl
    · show (s.close _ _ _).tables = _
      unfold System.close
      split <;> rfl
    · rfl

variable (srv) in
/-- The totals are those of the rows, and what is finished is settled. -/
structure Ready (h : List (Event × System)) (s : System) : Prop where
  agrees : PpAgrees srv.toServer s.tables
  settled : ∀ sid, Finished srv sid h → Settled srv sid s.tables

theorem Ready.step (hs : Ready srv h s) (hend : endState System.empty h = s)
    (hstep : Step srv s e t) : Ready srv ((e, t) :: h) t := by
  obtain ⟨hworker⟩ := hstep
  rcases @tables_after srv s e with hsame | ⟨e', rfl, hserve⟩ | ⟨a, id, rfl, hphase, hpass⟩
  · refine ⟨by rw [hsame]; exact hs.agrees, fun sid hfinished => ?_⟩
    rcases hfinished with ⟨a, rfl, hphase, hdone⟩ | ⟨hbefore, -⟩
    · rw [hend] at hphase hdone
      have hafter : (s.after srv (.work a)).tables = (passOver srv a sid s.tables).2 := by
        simp only [System.after, hphase]
      rw [hafter]
      exact settled_passOver hdone
    · rw [hsame]
      exact hs.settled sid hbefore
  · refine ⟨hs.agrees.step hserve, fun sid hfinished => ?_⟩
    rcases hfinished with ⟨a, ha, -⟩ | ⟨hbefore, hkeeps⟩
    · cases ha
    · refine (hs.settled sid hbefore).step hserve hkeeps fun c id hretry => ?_
      exact hworker c id (congrArg Event.serve hretry)
  · refine ⟨by rw [hpass]; exact hs.agrees.passOver a id, fun sid hfinished => ?_⟩
    rw [hpass]
    rcases hfinished with ⟨a', ha, hphase', hdone⟩ | ⟨hbefore, -⟩
    · rw [hend] at hphase' hdone
      obtain rfl : sid = id := by simpa using hphase'.symm.trans hphase
      obtain rfl : a = a' := by simpa using ha
      exact settled_passOver hdone
    · exact (hs.settled sid hbefore).passOver hs.agrees a id

theorem ready_empty : Ready srv [] System.empty where
  agrees := ppAgrees_empty
  settled _ := False.elim

/-- **No retry is lost**, and replays do no harm, after every event of exactly the runs
in which no cancellation cuts off the pass over the last copy of an id that is owed one. -/
theorem no_retry_lost (hrun : Trace (Step srv) (fun _ _ => True) System.empty h s) :
    Every (fun past e t => RetriesHeld srv past e t ∧ Replays srv past e t) h ↔
      Every (NotCutOff srv) h := by
  refine hrun.every_iff (I := fun h s => Held srv h s ∧ Ready srv h s) ⟨held_empty, ready_empty⟩ ?_
  rintro past s e t ⟨hheld, hready⟩ hend hstep
  have hnext := hready.step hend hstep
  have hreplays : Replays srv past e t := fun sid hfinished a =>
    passOver_settled (hnext.settled sid hfinished) hnext.agrees a
  cases hstep
  have hone := event_held hheld hend e
  exact ⟨(and_iff_left hreplays).trans hone.1, fun hcut => ⟨hone.2 hcut, hnext⟩⟩

/-- Every score is worth 100 PP. -/
def plainService : Service where
  toDeployment := plainServer
  performance _ := 100
  userPp_none := rfl

/-- A score is submitted and queued for a retry, the worker that claims it is killed,
and the next one finishes the score.  The newest event is first. -/
def retriedScore : List Event :=
  [.work {}, .claim, .recover, .recover, .start, .crash, .claim, .recover, .start, .push 1,
    .serve (.submitSolo 0 7 1 fullCombo), .serve (.createSolo 0 7 1 4 ""), .serve (.register 7 .osu),
    .serve mapFetched]

def retriedRun : List (Event × System) :=
  historyOf (System.after plainService) System.empty retriedScore

theorem trace_retriedRun :
    Trace (Step plainService) (fun _ _ => True) System.empty retriedRun
      (endState System.empty retriedRun) := by
  refine trace_historyOf System.empty retriedScore fun e he s => .mk s e ?_
  rintro c sid rfl
  simp [retriedScore, mapFetched] at he

/-- The score outlives the crash, and it is finished in the end. -/
theorem no_retry_lost_crash :
    Every (fun past e t => RetriesHeld plainService past e t ∧ Replays plainService past e t)
        retriedRun ∧ Finished plainService 1 retriedRun := by
  refine ⟨(no_retry_lost trace_retriedRun).mpr ?_, .inl ⟨{}, rfl, ?_, ?_⟩⟩
  · simp [retriedRun, retriedScore, historyOf, Every, NotCutOff]
  · decide +kernel
  · decide +kernel

/-- The server is shut down while the worker is at a score that it claimed. -/
def cutOffPass : List Event := [.cancel true, .claim, .recover, .start, .push 5]

def cutOffRun : List (Event × System) :=
  historyOf (System.after plainService) System.empty cutOffPass

theorem trace_cutOffRun :
    Trace (Step plainService) (fun _ _ => True) System.empty cutOffRun
      (endState System.empty cutOffRun) := by
  refine trace_historyOf System.empty cutOffPass fun e he s => .mk s e ?_
  rintro c sid rfl
  simp [cutOffPass] at he

/-- No pass over the score ended, and it is in neither list. -/
theorem retry_lost_in_shutdown :
    Trace (Step plainService) (fun _ _ => True) System.empty cutOffRun
        (endState System.empty cutOffRun) ∧
      ¬ Every (fun past e t => RetriesHeld plainService past e t ∧ Replays plainService past e t)
        cutOffRun := by
  refine ⟨trace_cutOffRun, fun hall => ?_⟩
  have hpushed : Owed plainService 5 (cutOffRun.drop 4) := .inl rfl
  have howed : Owed plainService 5 cutOffRun :=
    (((hpushed.still (by simp) _).still (by simp) _).still (by simp) _).still (by simp) _
  have hlost : ¬ (endState System.empty cutOffRun).Holds 5 := by decide +kernel
  exact hlost (hall.2.1 5 howed)

end Soms.Retries

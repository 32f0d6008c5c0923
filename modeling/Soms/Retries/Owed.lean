import Soms.Library.Run
import Soms.Retries.Worker

/-!
# No retry is lost

A pushed id is owed a pass until one over it ends without asking for a retry.  What
each command does to the ids that are owed, and from it when a run loses one.
-/

namespace Soms.Retries

open Soms.Scores RedisList

variable (srv : Service)

/-- The event pushes the id. -/
def Event.Pushes (sid : ScoreId) : Event → Prop
  | .push sid' => sid' = sid
  | .enqueueMissing queued processing sid' => sid' = sid ∧ ¬ (sid ∈ queued ∨ sid ∈ processing)
  | _ => False

/-- A pass over the id ends without asking for a retry. -/
def Ends (s : System) (sid : ScoreId) (e : Event) : Prop :=
  ∃ a, e = .work a ∧ s.phase = .working sid ∧
    (passOver srv a sid s.tables).1.retryNeeded = false

/-- The id was pushed, and no pass over it ended since without asking for a retry. -/
def Owed (sid : ScoreId) : List (Event × System) → Prop
  | [] => False
  | (e, _) :: past =>
    e.Pushes sid ∨ Owed sid past ∧ ¬ Ends srv (endState System.empty past) sid e

def System.Holds (s : System) (sid : ScoreId) : Prop := sid ∈ s.queue ∨ sid ∈ s.processing

instance (s : System) (sid : ScoreId) : Decidable (s.Holds sid) :=
  inferInstanceAs (Decidable (_ ∨ _))

/-- After an event every id that is owed a pass is in one of the lists. -/
def RetriesHeld (past : List (Event × System)) (e : Event) (t : System) : Prop :=
  ∀ sid, Owed srv sid ((e, t) :: past) → t.Holds sid

/-- A cancellation that reaches Redis does not cut off a pass over the last copy of an
id that is owed one. -/
def NotCutOff (past : List (Event × System)) (e : Event) (_ : System) : Prop :=
  e = .cancel true → ∀ sid, (endState System.empty past).phase = .working sid →
    Owed srv sid past →
      sid ∈ (endState System.empty past).queue ∨
        sid ∈ (endState System.empty past).processing.erase sid

/-- What holds between the commands. -/
structure Held (h : List (Event × System)) (s : System) : Prop where
  owed : ∀ sid, Owed srv sid h → s.Holds sid
  closing : ∀ sid, s.phase = .closing sid false → Owed srv sid h → sid ∈ s.queue

variable {srv} {h : List (Event × System)} {s t : System} {e : Event} {sid : ScoreId}

theorem Owed.before (howed : Owed srv sid ((e, t) :: h)) (hpush : ¬ e.Pushes sid) : Owed srv sid h :=
  (howed.resolve_left hpush).1

/-- Only a pass settles what is owed. -/
theorem Owed.still (howed : Owed srv sid h) (hwork : ∀ a, e ≠ .work a) (t : System) :
    Owed srv sid ((e, t) :: h) := by
  refine .inr ⟨howed, ?_⟩
  rintro ⟨a, ha, -⟩
  exact hwork a ha

/-! ## Each command -/

/-- An event that pushes nothing, moves ids between the lists and ends no pass. -/
theorem Held.move (hs : Held srv h s) (hpush : ∀ sid, ¬ e.Pushes sid)
    (hlists : ∀ sid, t.Holds sid ↔ s.Holds sid)
    (hphase : ∀ sid, t.phase = .closing sid false →
      s.phase = .closing sid false ∧ t.queue = s.queue) :
    Held srv ((e, t) :: h) t where
  owed sid howed := (hlists sid).mpr (hs.owed sid (howed.before (hpush sid)))
  closing sid hclosing howed := by
    obtain ⟨hbefore, hqueue⟩ := hphase sid hclosing
    rw [hqueue]
    exact hs.closing sid hbefore (howed.before (hpush sid))

/-- The id goes to the end of the queue. -/
theorem Held.pushed (hs : Held srv h s) {id : ScoreId} (hpush : ∀ sid, e.Pushes sid → sid = id)
    (ht : t = { s with queue := rpush id s.queue }) : Held srv ((e, t) :: h) t := by
  have hqueue : ∀ {sid}, sid ∈ s.queue → sid ∈ t.queue := by
    intro sid hsid
    rw [ht]
    exact List.mem_append_left _ hsid
  have hid : id ∈ t.queue := by
    rw [ht]
    exact List.mem_append_right _ (List.mem_singleton_self id)
  refine ⟨fun sid howed => ?_, fun sid hclosing howed => ?_⟩
  · rcases howed with hpushed | ⟨howed, -⟩
    · exact .inl (hpush sid hpushed ▸ hid)
    · rcases hs.owed sid howed with hsid | hsid
      · exact .inl (hqueue hsid)
      · exact .inr (by rw [ht]; exact hsid)
  · rcases howed with hpushed | ⟨howed, -⟩
    · exact hpush sid hpushed ▸ hid
    · exact hqueue (hs.closing sid (by rw [ht] at hclosing; exact hclosing) howed)

/-- A pass that ends without asking for a retry settles what was owed. -/
theorem Held.worked (hs : Held srv h s) (hend : endState System.empty h = s) {a : Attempt}
    (hphase : s.phase = .working sid) :
    Held srv ((.work a, s.after srv (.work a)) :: h) (s.after srv (.work a)) := by
  have hafter : s.after srv (.work a) = { s with
      tables := (passOver srv a sid s.tables).2
      phase := .closing sid (passOver srv a sid s.tables).1.retryNeeded } := by
    simp only [System.after, hphase]
  refine ⟨fun sid' howed => ?_, fun sid' hclosing howed => ?_⟩
  · rw [hafter]
    exact hs.owed sid' (howed.before id)
  · rw [hafter] at hclosing
    simp only [Phase.closing.injEq] at hclosing
    obtain ⟨rfl, hno⟩ := hclosing
    exact absurd ⟨a, rfl, hend ▸ hphase, hend ▸ hno⟩ (howed.resolve_left id).2

theorem System.queue_close (s : System) (sid : ScoreId) (retryNeeded delivered : Bool) :
    (s.close sid retryNeeded delivered).queue = s.queue := by
  unfold close
  split <;> rfl

/-- The end of a `finally` takes one copy of an id out that is not owed a pass or is
queued. -/
theorem Held.closed (hs : Held srv h s) {retryNeeded delivered : Bool}
    (hphase : s.phase = .closing sid retryNeeded) (hpush : ∀ sid, ¬ e.Pushes sid)
    (hqueue : t.queue = s.queue) (hprocessing : t.processing =
      (s.close sid retryNeeded delivered).processing)
    (hnot : ∀ sid, t.phase ≠ .closing sid false) : Held srv ((e, t) :: h) t := by
  refine ⟨fun sid' howed => ?_, fun sid' hclosing => absurd hclosing (hnot sid')⟩
  have howed := howed.before (hpush sid')
  unfold System.Holds
  rw [hqueue, hprocessing]
  unfold System.close
  split
  · next hclose =>
    simp only [Bool.and_eq_true, Bool.not_eq_true'] at hclose
    by_cases hsid : sid' = sid
    · subst hsid
      exact .inl (hs.closing sid' (hclose.1 ▸ hphase) howed)
    · exact (hs.owed sid' howed).imp_right fun hmem => (List.mem_erase_of_ne hsid).mpr hmem
  · exact hs.owed sid' howed

/-- The lists of a move that finds an entry. -/
theorem Held.moved (hs : Held srv h s) {id : ScoreId} {processing queue : List ScoreId}
    (hpush : ∀ sid, ¬ e.Pushes sid)
    (hmove : rpoplpush s.processing s.queue = some (id, processing, queue))
    (ht : t.queue = queue ∧ t.processing = processing) (hnot : ∀ sid, t.phase ≠ .closing sid false) :
    Held srv ((e, t) :: h) t := by
  refine hs.move hpush (fun sid => ?_) fun sid hphase => absurd hphase (hnot sid)
  unfold System.Holds
  rw [ht.1, ht.2, or_comm, mem_rpoplpush hmove, or_comm]

/-- An event in an unsuitable phase. -/
theorem Held.same (hs : Held srv h s) (hpush : ∀ sid, ¬ e.Pushes sid) : Held srv ((e, s) :: h) s :=
  hs.move hpush (fun _ => Iff.rfl) fun _ hphase => ⟨hphase, rfl⟩

/-! ## Cancellation -/

/-- The cancellation of a pass. -/
theorem cancelled (hphase : s.phase = .working sid) (delivered : Bool) :
    s.after srv (.cancel delivered) = { s.close sid false delivered with phase := .idle } := by
  simp only [System.after, hphase]

theorem Held.cancel_iff (hs : Held srv h s) (hend : endState System.empty h = s)
    (hphase : s.phase = .working sid) :
    (RetriesHeld srv h (.cancel true) (s.after srv (.cancel true)) ↔
      NotCutOff srv h (.cancel true) (s.after srv (.cancel true))) ∧
    (NotCutOff srv h (.cancel true) (s.after srv (.cancel true)) →
      Held srv ((.cancel true, s.after srv (.cancel true)) :: h) (s.after srv (.cancel true))) := by
  have hafter : s.after srv (.cancel true) =
      { s with processing := s.processing.erase sid, phase := .idle } := cancelled hphase true
  have howed : ∀ sid' t, Owed srv sid' ((.cancel true, t) :: h) ↔ Owed srv sid' h := by
    intro sid' t
    exact ⟨fun howed => howed.before id, fun howed => howed.still (fun _ => by simp) t⟩
  have hother : ∀ sid', sid' ≠ sid → Owed srv sid' h → (s.after srv (.cancel true)).Holds sid' := by
    intro sid' hne howed
    rw [hafter]
    exact (hs.owed sid' howed).imp_right fun hmem => (List.mem_erase_of_ne hne).mpr hmem
  have hheld : RetriesHeld srv h (.cancel true) (s.after srv (.cancel true)) ↔
      NotCutOff srv h (.cancel true) (s.after srv (.cancel true)) := by
    unfold RetriesHeld NotCutOff
    rw [hend]
    constructor
    · rintro hheld - sid' hphase' hsid'
      obtain rfl : sid' = sid := by simpa using hphase'.symm.trans hphase
      have hholds := hheld sid' ((howed sid' _).mpr hsid')
      rw [hafter] at hholds
      exact hholds
    · intro hcut sid' hsid'
      rw [howed] at hsid'
      by_cases hne : sid' = sid
      · subst hne
        rw [hafter]
        exact hcut rfl sid' hphase hsid'
      · exact hother sid' hne hsid'
  refine ⟨hheld, fun hcut => ⟨hheld.mpr hcut, fun sid' hclosing => ?_⟩⟩
  rw [hafter] at hclosing
  simp at hclosing

/-- **One event.**  It loses an id that is owed a pass exactly if it cuts off the pass
over its last copy. -/
theorem event_held (hs : Held srv h s) (hend : endState System.empty h = s) (e : Event) :
    (RetriesHeld srv h e (s.after srv e) ↔ NotCutOff srv h e (s.after srv e)) ∧
      (NotCutOff srv h e (s.after srv e) → Held srv ((e, s.after srv e) :: h) (s.after srv e)) := by
  by_cases hcut : e = .cancel true ∧ ∃ sid, s.phase = .working sid
  · obtain ⟨rfl, sid, hphase⟩ := hcut
    exact hs.cancel_iff hend hphase
  suffices hheld : Held srv ((e, s.after srv e) :: h) (s.after srv e) by
    refine ⟨iff_of_true hheld.owed fun he sid hphase _ => ?_, fun _ => hheld⟩
    exact absurd ⟨he, sid, hend ▸ hphase⟩ hcut
  cases e with
  | serve e => exact hs.move (fun _ => id) (fun _ => Iff.rfl) fun _ hphase => ⟨hphase, rfl⟩
  | push sid => exact hs.pushed (fun _ hsid => hsid.symm) rfl
  | enqueueMissing queued processing sid =>
    by_cases hfound : sid ∈ queued ∨ sid ∈ processing
    · rw [show s.after srv (.enqueueMissing queued processing sid) = s from if_pos hfound]
      exact hs.same fun sid' hpush => hpush.2 (hpush.1 ▸ hfound)
    · exact hs.pushed (fun _ hpush => hpush.1.symm) (if_neg hfound)
  | start =>
    by_cases hphase : s.phase = .idle
    · rw [show s.after srv .start = { s with phase := .recovering } from if_pos hphase]
      exact hs.move (fun _ => id) (fun _ => Iff.rfl) fun _ hclosing => by simp at hclosing
    · rw [show s.after srv .start = s from if_neg hphase]
      exact hs.same fun _ => id
  | recover =>
    by_cases hphase : s.phase = .recovering
    · cases hmove : rpoplpush s.processing s.queue with
      | none =>
        rw [show s.after srv .recover = { s with phase := .claiming } by
          simp only [System.after, hphase, hmove, if_true]]
        exact hs.move (fun _ => id) (fun _ => Iff.rfl) fun _ hclosing => by simp at hclosing
      | some move =>
        obtain ⟨id', processing, queue⟩ := move
        rw [show s.after srv .recover = { s with processing, queue } by
          simp only [System.after, hphase, hmove, if_true]]
        exact hs.moved (fun _ => id) hmove ⟨rfl, rfl⟩ fun sid => by simp [hphase]
    · rw [show s.after srv .recover = s from if_neg hphase]
      exact hs.same fun _ => id
  | claim =>
    by_cases hphase : s.phase = .claiming
    · cases hmove : rpoplpush s.queue s.processing with
      | none =>
        rw [show s.after srv .claim = { s with phase := .givingBack } by
          simp only [System.after, hphase, hmove, if_true]]
        exact hs.move (fun _ => id) (fun _ => Iff.rfl) fun _ hclosing => by simp at hclosing
      | some move =>
        obtain ⟨sid, queue, processing⟩ := move
        rw [show s.after srv .claim = { s with queue, processing, phase := .working sid } by
          simp only [System.after, hphase, hmove, if_true]]
        exact hs.move (fun _ => id) (mem_rpoplpush hmove) fun _ hclosing => by simp at hclosing
    · rw [show s.after srv .claim = s from if_neg hphase]
      exact hs.same fun _ => id
  | work a =>
    cases hphase : s.phase with
    | working sid => exact hs.worked hend hphase
    | _ =>
      rw [show s.after srv (.work a) = s by simp only [System.after, hphase]]
      exact hs.same fun _ => id
  | acknowledge delivered =>
    cases hphase : s.phase with
    | closing sid retryNeeded =>
      rw [show s.after srv (.acknowledge delivered) =
        { s.close sid retryNeeded delivered with phase := .claiming } by
          simp only [System.after, hphase]]
      exact hs.closed hphase (fun _ => id) (System.queue_close ..) rfl fun _ => by simp
    | _ =>
      rw [show s.after srv (.acknowledge delivered) = s by simp only [System.after, hphase]]
      exact hs.same fun _ => id
  | giveBack =>
    by_cases hphase : s.phase = .givingBack
    · cases hmove : rpoplpush s.processing s.queue with
      | none =>
        rw [show s.after srv .giveBack = { s with phase := .idle } by
          simp only [System.after, hphase, hmove, if_true]]
        exact hs.move (fun _ => id) (fun _ => Iff.rfl) fun _ hclosing => by simp at hclosing
      | some move =>
        obtain ⟨id', processing, queue⟩ := move
        rw [show s.after srv .giveBack = { s with processing, queue } by
          simp only [System.after, hphase, hmove, if_true]]
        exact hs.moved (fun _ => id) hmove ⟨rfl, rfl⟩ fun sid => by simp [hphase]
    · rw [show s.after srv .giveBack = s from if_neg hphase]
      exact hs.same fun _ => id
  | crash =>
    exact hs.move (fun _ => id) (fun _ => Iff.rfl) fun _ hclosing => by simp [System.after] at hclosing
  | cancel delivered =>
    cases hphase : s.phase with
    | working sid =>
      cases delivered with
      | true => exact absurd ⟨rfl, sid, hphase⟩ hcut
      | false =>
        rw [cancelled hphase]
        exact hs.move (fun _ => id) (fun _ => Iff.rfl) fun _ hclosing => by simp at hclosing
    | closing sid retryNeeded =>
      rw [show s.after srv (.cancel delivered) =
        { s.close sid retryNeeded delivered with phase := .idle } by
          simp only [System.after, hphase]]
      exact hs.closed hphase (fun _ => id) (System.queue_close ..) rfl fun _ => by simp
    | _ =>
      rw [show s.after srv (.cancel delivered) = { s with phase := .idle } by
        simp only [System.after, hphase]]
      exact hs.move (fun _ => id) (fun _ => Iff.rfl) fun _ hclosing => by simp at hclosing

/-- Nothing is owed at the start. -/
theorem held_empty : Held srv [] System.empty where
  owed _ := False.elim
  closing _ _ := False.elim

end Soms.Retries

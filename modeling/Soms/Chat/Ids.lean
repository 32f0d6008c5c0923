import Soms.Chat.Persistence

/-!
# Message ids

The two sources of ids: the Redis counter of `_generate_message_id` with its
initialisation, and the key that the table gives the row of `create_new_pm`.
-/

namespace Soms.Chat.Ids

structure System where
  /-- The queue, the batch task and the table. -/
  pipe : Persistence.System
  /-- `global_message_id_counter` -/
  counter : Option Nat
  /-- The initialisations that have read the largest id of the table. -/
  maxima : List Nat
  /-- The initialisations that are about to raise the counter to a value. -/
  initial : List Nat
  /-- The calls of `_generate_message_id` before their `INCR`. -/
  ready : Nat
  /-- The channel and the id of every message that was given one, the newest first. -/
  given : List Key

inductive Event where
  /-- A step of the queue or the batch task, or the row of a bot's message. -/
  | persist (e : Persistence.Event)
  /-- `EXISTS` in `_generate_message_id`. -/
  | check
  /-- `_initialize_message_counter` reads the largest id of the table. -/
  | readMax
  /-- It reads the counter. -/
  | readCounter (maxId : Nat)
  /-- Its script, and whether `_generate_message_id` waits for it. -/
  | writeCounter (initial : Nat) (waiting : Bool)
  /-- It fails and runs its `SETNX`. -/
  | fallback (waiting : Bool)
  /-- Redis loses the counter. -/
  | loseCounter
  /-- `INCR` for a message in a channel. -/
  | allocate (c : ChannelId)
  /-- `create_new_pm` commits the row of its message. -/
  | createPm (m : ChatMessage)

namespace System

def value (s : System) : Nat := s.counter.getD 0

/-- `max(ChatMessage.message_id) or 0` -/
def maxId (s : System) : Nat := (s.pipe.store.rows.map (·.messageId)).foldl max 0

def pass (waiting : Bool) (s : System) : System :=
  if waiting then { s with ready := s.ready + 1 } else s

/-- The system after an event.  An event for which there is no call is nothing. -/
def after (s : System) : Event → System
  | .persist .crash =>
    { s with pipe := s.pipe.after .crash, maxima := [], initial := [], ready := 0 }
  | .persist e => { s with pipe := s.pipe.after e }
  | .check => if s.counter.isSome then { s with ready := s.ready + 1 } else s
  | .readMax => { s with maxima := s.maxId :: s.maxima }
  | .readCounter maxId =>
    if maxId ∈ s.maxima then
      { s with maxima := s.maxima.erase maxId, initial := max maxId s.value :: s.initial }
    else s
  | .writeCounter initial waiting =>
    if initial ∈ s.initial then
      { s with
        counter := if s.value < initial then some initial else s.counter
        initial := s.initial.erase initial }.pass waiting
    else s
  | .fallback waiting => { s with counter := some (s.counter.getD 1000000) }.pass waiting
  | .loseCounter => { s with counter := none }
  | .allocate c =>
    if 0 < s.ready then
      { s with
        counter := some (s.value + 1)
        ready := s.ready - 1
        given := (c, s.value + 1) :: s.given }
    else s
  | .createPm m =>
    { s with pipe := s.pipe.after (.insertRow m), given := m.key :: s.given }

def empty : System := ⟨.empty, none, [], [], 0, []⟩

end System

/-- What an event can be: what is stored was given its id, and the table gives an id above
the ids of its rows. -/
def Possible (s : System) : Event → Prop
  | .persist (.setEntry m) => m.key ∈ s.given
  | .persist (.insertRow m) => m.key ∈ s.given
  | .createPm m => ∀ row ∈ s.pipe.store.rows, row.messageId < m.messageId
  | _ => True

inductive Step : System → Event → System → Prop
  | mk (s : System) (e : Event) (hpossible : Possible s e) : Step s e (s.after e)

/-! ## The order of the ids -/

/-- No two messages have the same id, and in a channel a later message has a larger one. -/
def Numbered (given : List Key) : Prop :=
  (given.map Prod.snd).Nodup ∧
    given.Pairwise fun newer older => newer.1 = older.1 → older.2 < newer.2

/-- The sources of ids have caught up with the ids given so far: the counter when it gives
one, the table when it does. -/
def CaughtUp (s : System) : Event → Prop
  | .allocate _ => ∀ x ∈ s.given, x.2 ≤ s.value
  | .createPm _ => ∀ x ∈ s.given, ∃ row ∈ s.pipe.store.rows, x.2 ≤ row.messageId
  | _ => True

/-- Every id is above the ones given before. -/
def Rising (given : List Key) : Prop := given.Pairwise fun newer older => older.2 < newer.2

variable {s t : System} {e : Event} {h : List (Event × System)}

theorem Rising.numbered {given : List Key} (hs : Rising given) : Numbered given := by
  constructor
  · rw [List.Nodup, List.pairwise_map]
    exact hs.imp fun hlt => Nat.ne_of_gt hlt
  · refine hs.imp ?_
    intro newer older hlt _
    exact hlt

theorem given_pass (waiting : Bool) (s : System) : (s.pass waiting).given = s.given := by
  unfold System.pass
  split <;> rfl

theorem counter_pass (waiting : Bool) (s : System) : (s.pass waiting).counter = s.counter := by
  unfold System.pass
  split <;> rfl

/-- What an event gives. -/
theorem given_after (s : System) (e : Event) :
    (s.after e).given = s.given ∨
    (∃ c, e = .allocate c ∧ (s.after e).given = (c, s.value + 1) :: s.given) ∨
    ∃ m, e = .createPm m ∧ (s.after e).given = m.key :: s.given := by
  cases e with
  | persist e => exact .inl (by cases e <;> rfl)
  | check => exact .inl (by simp only [System.after]; split <;> rfl)
  | readMax => exact .inl rfl
  | readCounter maxId => exact .inl (by simp only [System.after]; split <;> rfl)
  | writeCounter initial waiting =>
    refine .inl ?_
    simp only [System.after]
    split
    · exact given_pass ..
    · rfl
  | fallback waiting => exact .inl (given_pass ..)
  | loseCounter => exact .inl rfl
  | allocate c =>
    by_cases hready : 0 < s.ready
    · exact .inr (.inl ⟨c, rfl, by simp only [System.after, if_pos hready]⟩)
    · exact .inl (by simp only [System.after, if_neg hready])
  | createPm m => exact .inr (.inr ⟨m, rfl, rfl⟩)

theorem Rising.step (hs : Rising s.given) (hcaught : CaughtUp s e) (hstep : Step s e t) :
    Rising t.given := by
  obtain ⟨hpossible⟩ := hstep
  rcases given_after s e with hgiven | ⟨c, rfl, hgiven⟩ | ⟨m, rfl, hgiven⟩
  · rwa [hgiven]
  · rw [hgiven]
    exact List.pairwise_cons.mpr ⟨fun x hx => Nat.lt_succ_of_le (hcaught x hx), hs⟩
  · rw [hgiven]
    refine List.pairwise_cons.mpr ⟨fun x hx => ?_, hs⟩
    obtain ⟨row, hrow, hle⟩ := hcaught x hx
    exact lt_of_le_of_lt hle (hpossible row hrow)

/-- **Ids are unique and increasing** in every run in which the counter and the table have
caught up with the ids given so far whenever they give one. -/
theorem ids_numbered (hrun : Trace Step CaughtUp System.empty h s) : Numbered s.given := by
  refine Rising.numbered ?_
  have hempty : Rising System.empty.given := List.Pairwise.nil
  refine hrun.invariant (I := fun _ s => Rising s.given) ?_ hempty
  exact fun _ s e t hs hcaught hstep => hs.step hcaught hstep

/-! ## When the counter has caught up -/

/-- No private message is created and the counter is not lost. -/
def Event.LeavesCounter : Event → Prop
  | .createPm _ | .loseCounter => False
  | _ => True

/-- The counter has reached the ids given so far. -/
def Reached (s : System) : Prop := ∀ x ∈ s.given, x.2 ≤ s.value

/-- However initialisations overlap, the counter never moves backwards. -/
theorem value_le_after (s : System) (he : e.LeavesCounter) : s.value ≤ (s.after e).value := by
  unfold System.value
  cases e with
  | persist e => cases e <;> exact le_rfl
  | check =>
    simp only [System.after]
    split <;> exact le_rfl
  | readMax => exact le_rfl
  | readCounter maxId =>
    simp only [System.after]
    split <;> exact le_rfl
  | writeCounter initial waiting =>
    simp only [System.after]
    split
    · rw [counter_pass]
      dsimp only
      split
      · next hlt => exact le_of_lt hlt
      · exact le_rfl
    · exact le_rfl
  | fallback waiting =>
    simp only [System.after, counter_pass]
    cases s.counter <;> simp
  | loseCounter => exact he.elim
  | allocate c =>
    simp only [System.after]
    split
    · exact Nat.le_succ _
    · exact le_rfl
  | createPm m => exact he.elim

theorem Reached.step (hs : Reached s) (he : e.LeavesCounter) (hstep : Step s e t) : Reached t := by
  obtain ⟨-⟩ := hstep
  have hle := value_le_after s he
  rcases given_after s e with hgiven | ⟨c, rfl, hgiven⟩ | ⟨m, rfl, -⟩
  · unfold Reached
    rw [hgiven]
    exact fun x hx => (hs x hx).trans hle
  · by_cases hready : 0 < s.ready
    · have hvalue : (s.after (.allocate c)).value = s.value + 1 := by
        simp only [System.after, if_pos hready, System.value, Option.getD_some]
      unfold Reached
      rw [hgiven, hvalue]
      exact List.forall_mem_cons.mpr ⟨le_rfl, fun x hx => (hs x hx).trans (Nat.le_succ _)⟩
    · rwa [show s.after (.allocate c) = s by simp only [System.after, if_neg hready]]
  · exact he.elim

/-- Without private messages and without a loss of the counter it has always caught up. -/
theorem caughtUp_run (hrun : Trace Step (fun _ e => e.LeavesCounter) System.empty h s) :
    Trace Step CaughtUp System.empty h s := by
  suffices hboth : Trace Step CaughtUp System.empty h s ∧ Reached s from hboth.1
  induction hrun with
  | refl => exact ⟨.refl, fun _ hx => absurd hx List.not_mem_nil⟩
  | @tail past s t e _ he hstep ih =>
    obtain ⟨hpast, hs⟩ := ih
    have hcaught : CaughtUp s e := by
      cases e with
      | allocate c => exact hs
      | createPm m => exact he.elim
      | _ => trivial
    exact ⟨hpast.tail hcaught hstep, hs.step he hstep⟩

/-! ## When it has not -/

/-- One more message in a channel. -/
def System.sendOne (c : ChannelId) (s : System) : System := (s.after .check).after (.allocate c)

theorem sendOne_eq {k : Nat} (hk : s.counter = some k) (c : ChannelId) :
    (s.sendOne c).counter = some (k + 1) ∧ (s.sendOne c).given = (c, k + 1) :: s.given := by
  simp [System.sendOne, System.after, hk, System.value]

/-- A counter that is behind an id that was given gives it again. -/
theorem not_numbered_sendOne {k n : Nat} {c' : ChannelId} (hk : s.counter = some k)
    (hgiven : (c', n) ∈ s.given) (hbehind : k < n) (c : ChannelId) :
    ¬ Numbered ((System.sendOne c)^[n - k] s).given := by
  obtain ⟨j, rfl⟩ : ∃ j, n = k + j + 1 := ⟨n - k - 1, by omega⟩
  rw [show k + j + 1 - k = j + 1 by omega]
  induction j generalizing s k with
  | zero =>
    rintro ⟨hunique, -⟩
    rw [Function.iterate_one, (sendOne_eq hk c).2, List.map_cons, List.nodup_cons] at hunique
    exact hunique.1 (List.mem_map.mpr ⟨_, hgiven, rfl⟩)
  | succ j ih =>
    obtain ⟨hnext, hmore⟩ := sendOne_eq hk c
    rw [Function.iterate_succ_apply]
    refine ih hnext ?_ (by omega)
    rw [hmore, show k + 1 + j + 1 = k + (j + 1) + 1 by omega]
    exact List.mem_cons_of_mem _ hgiven

/-! ## Worked runs -/

/-- Start the server, and let a call of `_generate_message_id` pass. -/
def started : List Event := [.writeCounter 0 true, .readCounter 0, .readMax]

def privateMessage (id : MessageId) : ChatMessage := ⟨id, 2, 7, "hello", 0, false, none⟩

/-- A private message gets the id 1, the counter is initialised, and a message in the
channel 3 gets the next id.  The newest event is first. -/
def privateThenSent : List Event :=
  [.allocate 3, .writeCounter 1 true, .readCounter 1, .readMax, .createPm (privateMessage 1)]

def numberingRun (es : List Event) : List (Event × System) := historyOf System.after System.empty es

theorem ids_numbered_private :
    (endState System.empty (numberingRun privateThenSent)).given = [(3, 2), (2, 1)] ∧
      Numbered (endState System.empty (numberingRun privateThenSent)).given := by
  have hrun : Trace Step CaughtUp System.empty (numberingRun privateThenSent)
      (endState System.empty (numberingRun privateThenSent)) := by
    refine .tail (.tail (.tail (.tail (.tail .refl ?pm (.mk _ _ ?possible)) trivial (.mk _ _ trivial))
      trivial (.mk _ _ trivial)) trivial (.mk _ _ trivial)) ?sent (.mk _ _ trivial)
    case pm => exact fun _ hx => absurd hx List.not_mem_nil
    case possible => exact fun _ hx => absurd hx List.not_mem_nil
    case sent =>
      show ∀ x ∈ _, _
      decide +kernel
  exact ⟨by decide +kernel, ids_numbered hrun⟩

/-- A message in the channel 3 gets the id 1 of the counter, and before a batch stores it,
the table gives the same id to a private message. -/
def sentThenPrivate : List Event := .createPm (privateMessage 1) :: .allocate 3 :: started

theorem id_given_twice :
    Trace Step (fun _ _ => True) System.empty (numberingRun sentThenPrivate)
        (endState System.empty (numberingRun sentThenPrivate)) ∧
      ¬ Numbered (endState System.empty (numberingRun sentThenPrivate)).given := by
  have hgiven : (endState System.empty (numberingRun sentThenPrivate)).given = [(2, 1), (3, 1)] := by
    decide +kernel
  constructor
  · refine .tail (.tail (.tail (.tail (.tail .refl trivial (.mk _ _ trivial)) trivial (.mk _ _ trivial))
      trivial (.mk _ _ trivial)) trivial (.mk _ _ trivial)) trivial (.mk _ _ ?possible)
    case possible =>
      show ∀ row ∈ _, _
      decide +kernel
  · rw [hgiven]
    rintro ⟨hunique, -⟩
    simp at hunique

end Soms.Chat.Ids

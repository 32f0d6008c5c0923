import Soms.Library.Run
import Soms.Medals.Awards

/-!
# Every pass looks at every medal, and ends

A task that returns from `process_achievements` leaves no medal undecided: the user has it, or its
processor has answered this task that it is not due.  And no task waits for ever, since who holds
the lock of a row waits for nobody.
-/

namespace Soms.Medals

/-- The user has the medal, or its processor has said to the task that it is not due. -/
def Settled (site : Site) (s : State) (t : TaskId) (score : ScoreId) (id : MedalId) : Prop :=
  (site.user score, id) ∈ s.rows ∨
    ∃ check ∈ s.checks,
      check.task = t ∧ check.score = score ∧ check.medal = id ∧ check.due = false

/-- A task for a score of the user has settled the medals that it has no longer to do. -/
def Covers (site : Site) (user : UserId) (s : State) (t : TaskId) : Phase → Prop
  | .checking score _ todo result =>
    site.user score = user → ∀ medal ∈ site.registry.medals, medal.processor = true →
      medal ∈ todo ∨ medal ∈ result ∨ Settled site s t score medal.id
  | .unlocking _ (some score) todo added =>
    site.user score = user → ∀ medal ∈ site.registry.medals, medal.processor = true →
      medal.id ∈ added ++ todo ∨ Settled site s t score medal.id
  | .complete score =>
    site.user score = user → ∀ medal ∈ site.registry.medals, medal.processor = true →
      Settled site s t score medal.id
  | _ => True

structure Covered (site : Site) (user : UserId) (s : State) : Prop where
  inv : Inv site s
  tasks : ∀ t phase, s.tasks[t]? = some phase → Covers site user s t phase

section Covers

variable {site : Site} {user : UserId} {s s' : State} {t : TaskId} {phase phase' : Phase}

theorem Settled.mono {score : ScoreId}
    (hrows : ∀ id, (site.user score, id) ∈ s.rows → (site.user score, id) ∈ s'.rows)
    (hchecks : ∀ check ∈ s.checks, check ∈ s'.checks) {id : MedalId}
    (h : Settled site s t score id) : Settled site s' t score id := by
  rcases h with hrow | ⟨check, hin, hall⟩
  · exact .inl (hrows id hrow)
  · exact .inr ⟨check, hchecks check hin, hall⟩

theorem Covers.mono (hrows : ∀ id, (user, id) ∈ s.rows → (user, id) ∈ s'.rows)
    (hchecks : ∀ check ∈ s.checks, check ∈ s'.checks) (h : Covers site user s t phase) :
    Covers site user s' t phase := by
  have hmono : ∀ score id, site.user score = user → Settled site s t score id →
      Settled site s' t score id := by
    intro score id huser hsettled
    apply hsettled.mono _ hchecks
    rw [huser]
    exact hrows
  cases phase with
  | checking score row todo result =>
    intro huser medal hin hprocessor
    exact (h huser medal hin hprocessor).imp_right fun hor =>
      hor.imp_right (hmono score medal.id huser)
  | unlocking other score todo added =>
    cases score with
    | none => trivial
    | some score =>
      intro huser medal hin hprocessor
      exact (h huser medal hin hprocessor).imp_right (hmono score medal.id huser)
  | complete score =>
    intro huser medal hin hprocessor
    exact hmono score medal.id huser (h huser medal hin hprocessor)
  | fitting score row => trivial
  | delivered score => trivial
  | found score => trivial
  | locked score => trivial
  | ended => trivial

/-- One task goes on. -/
theorem Covered.set (h : Covered site user s) (hinv : Inv site s')
    (ht : s.tasks[t]? = some phase) (htasks : s'.tasks = s.tasks.set t phase')
    (hrows : ∀ id, (user, id) ∈ s.rows → (user, id) ∈ s'.rows)
    (hchecks : ∀ check ∈ s.checks, check ∈ s'.checks) (hcovers : Covers site user s' t phase') :
    Covered site user s' := by
  refine ⟨hinv, ?_⟩
  intro j other hj
  rw [htasks, getElem?_set_some ht] at hj
  rcases hj with ⟨rfl, rfl⟩ | ⟨-, hj⟩
  · exact hcovers
  · exact (h.tasks j other hj).mono hrows hchecks

theorem Covered.goto (h : Covered site user s) (hinv : Inv site (s.goto t phase'))
    (ht : s.tasks[t]? = some phase) (hcovers : Covers site user s t phase') :
    Covered site user (s.goto t phase') :=
  h.set hinv ht rfl (fun _ hrow => hrow) (fun _ hcheck => hcheck)
    (hcovers.mono (fun _ hrow => hrow) fun _ hcheck => hcheck)

theorem Covered.advance (h : Covered site user s) (ht : s.tasks[t]? = some phase) (due : Bool) :
    Covered site user (s.advance site t due phase) := by
  have hinv := h.inv.advance ht due
  have hold := h.tasks t phase ht
  cases phase with
  | delivered score =>
    refine h.goto hinv ht ?_
    split <;> trivial
  | found score =>
    unfold State.advance at hinv ⊢
    simp only at hinv ⊢
    split
    · exact h
    · next hfree =>
      rw [if_neg hfree] at hinv
      refine h.goto hinv ht ?_
      split <;> trivial
  | locked score =>
    unfold State.advance at hinv ⊢
    cases hscore : s.scores score with
    | none =>
      simp only [hscore] at hinv ⊢
      exact h.goto hinv ht trivial
    | some row =>
      simp only [hscore] at hinv ⊢
      refine h.goto hinv ht ?_
      split <;> trivial
  | fitting score row =>
    refine h.goto hinv ht ?_
    intro huser medal hin _
    by_cases hrow : (site.user score, medal.id) ∈ s.rows
    · exact .inr (.inr (.inl hrow))
    · refine .inl (List.mem_filter.mpr ⟨hin, ?_⟩)
      exact decide_eq_true hrow
  | checking score row todo result =>
    cases todo with
    | nil =>
      refine h.goto hinv ht ?_
      split
      · next hnone =>
        intro huser medal hin hprocessor
        rcases hold huser medal hin hprocessor with htodo | hresult | hsettled
        · cases htodo
        · rw [hnone] at hresult
          cases hresult
        · exact hsettled
      · intro huser medal hin hprocessor
        rcases hold huser medal hin hprocessor with htodo | hresult | hsettled
        · cases htodo
        · exact .inl (List.mem_map_of_mem hresult)
        · exact .inr hsettled
    | cons next todo =>
      by_cases hasked : next.processor = true
      · have hstep : s.advance site t due (.checking score row (next :: todo) result) =
            ({ s with checks := ⟨t, score, row, next.id, due⟩ :: s.checks } : State).goto t
              (.checking score row todo (if due then result ++ [next] else result)) :=
          if_pos hasked
        rw [hstep] at hinv ⊢
        have hmono : ∀ check ∈ s.checks,
            check ∈ (⟨t, score, row, next.id, due⟩ : Check) :: s.checks :=
          fun _ hcheck => List.mem_cons_of_mem _ hcheck
        refine h.set hinv ht rfl (fun _ hrow => hrow) hmono ?_
        intro huser medal hin hprocessor
        rcases hold huser medal hin hprocessor with htodo | hresult | hsettled
        · rcases List.mem_cons.mp htodo with rfl | htodo
          · cases due with
            | true => exact .inr (.inl (List.mem_append_right _ (List.mem_singleton.mpr rfl)))
            | false => exact .inr (.inr (.inr ⟨_, List.mem_cons_self, rfl, rfl, rfl, rfl⟩))
          · exact .inl htodo
        · refine .inr (.inl ?_)
          cases due with
          | true => exact List.mem_append_left _ hresult
          | false => exact hresult
        · refine .inr (.inr ?_)
          refine Settled.mono (s := s) ?_ hmono hsettled
          exact fun _ hrow => hrow
      · have hstep : s.advance site t due (.checking score row (next :: todo) result) =
            s.goto t (.checking score row todo result) := if_neg hasked
        rw [hstep] at hinv ⊢
        refine h.goto hinv ht ?_
        intro huser medal hin hprocessor
        refine (hold huser medal hin hprocessor).imp_left fun htodo => ?_
        rcases List.mem_cons.mp htodo with rfl | htodo
        · exact absurd hprocessor hasked
        · exact htodo
  | unlocking other score todo added =>
    cases todo with
    | nil =>
      refine h.set hinv ht rfl (fun _ hrow => List.mem_append_left _ hrow)
        (fun _ hcheck => hcheck) ?_
      cases score with
      | none => trivial
      | some score =>
        intro huser medal hin hprocessor
        have hknows := (h.inv.tasks _ (List.mem_of_getElem? ht)).knows
        rcases hold huser medal hin hprocessor with hadded | hsettled
        · rw [List.append_nil] at hadded
          refine .inl (List.mem_append_right _ ?_)
          rw [← hknows.1]
          exact List.mem_map_of_mem hadded
        · rcases hsettled with hrow | hcheck
          · exact .inl (List.mem_append_left _ hrow)
          · exact .inr hcheck
    | cons next todo =>
      refine h.set hinv ht rfl (fun _ hrow => hrow) (fun _ hcheck => hcheck) ?_
      cases score with
      | none => trivial
      | some score =>
        intro huser medal hin hprocessor
        have hlist : (added ++ [next]) ++ todo = added ++ next :: todo := by
          rw [List.append_assoc]
          rfl
        rw [hlist]
        exact hold huser medal hin hprocessor
  | complete score => exact h
  | ended => exact h

theorem Covered.append (h : Covered site user s) (hnone : ∀ s t, Covers site user s t phase)
    (hinv : Inv site { s with tasks := s.tasks ++ [phase] }) :
    Covered site user { s with tasks := s.tasks ++ [phase] } := by
  refine ⟨hinv, ?_⟩
  intro j other hj
  rcases getElem?_append_one.mp hj with hj | ⟨-, rfl⟩
  · exact Covers.mono (s := s) (fun _ hrow => hrow) (fun _ hcheck => hcheck) (h.tasks j other hj)
  · exact hnone _ j

theorem Covered.after (h : Covered site user s) {e : Event} (he : e ≠ .clear user) :
    Covered site user (s.after site e) := by
  have hinv := h.inv.after e
  cases e with
  | deliver score => exact h.append (fun _ _ => trivial) hinv
  | unlock other id =>
    unfold State.after at hinv ⊢
    simp only at hinv ⊢
    split
    · next hclientside =>
      rw [if_pos hclientside] at hinv
      exact h.append (fun _ _ => trivial) hinv
    · exact h
  | resume t due =>
    show Covered site user (s.tasks[t]?.elim s (s.advance site t due))
    cases ht : s.tasks[t]? with
    | none => exact h
    | some phase => exact h.advance ht due
  | fails t =>
    have hover : ∀ phase, s.tasks[t]? = some phase → Inv site (s.goto t .ended) :=
      fun phase ht => h.inv.goto_over ht rfl
    show Covered site user (s.tasks[t]?.elim s fun phase =>
      if phase.isOver then s else s.goto t .ended)
    cases ht : s.tasks[t]? with
    | none => exact h
    | some phase =>
      show Covered site user (if phase.isOver then s else s.goto t .ended)
      split
      · exact h
      · exact h.goto (hover phase ht) ht trivial
  | clear other =>
    refine ⟨hinv, ?_⟩
    intro j phase hj
    have hother : other ≠ user := fun heq => he (heq ▸ rfl)
    refine Covers.mono (s := s) ?_ (fun _ hcheck => hcheck) (h.tasks j phase hj)
    intro id hrow
    exact List.mem_filter.mpr ⟨hrow, decide_eq_true hother.symm⟩
  | change scores users =>
    refine ⟨hinv, ?_⟩
    intro j phase hj
    exact Covers.mono (s := s) (fun _ hrow => hrow) (fun _ hcheck => hcheck) (h.tasks j phase hj)

theorem Covered.run (h : Covered site user s) {events : List Event}
    (hclear : ∀ e ∈ events, e ≠ .clear user) : Covered site user (s.run site events) := by
  induction events generalizing s with
  | nil => exact h
  | cons e rest ih =>
    exact ih (h.after (hclear e List.mem_cons_self))
      fun e' hin => hclear e' (List.mem_cons_of_mem e hin)

end Covers

/-- **A pass is complete.**  In every run in which the profile of the user is not cleared, a task
that has returned from a look at a score leaves no medal undecided: the user of the score has it,
or its processor has answered this task, for this score, that it is not due. -/
theorem passes_complete (site : Site) (scores : ScoreId → Option Score) (users : UserId → Bool)
    (events : List Event) (t : TaskId) (score : ScoreId)
    (hclear : ∀ e ∈ events, e ≠ .clear (site.user score))
    (ht : ((State.empty scores users).run site events).tasks[t]? = some (.complete score)) :
    ∀ medal ∈ site.registry.medals, medal.processor = true →
      (site.user score, medal.id) ∈ ((State.empty scores users).run site events).rows ∨
        ∃ check ∈ ((State.empty scores users).run site events).checks,
          check.task = t ∧ check.score = score ∧ check.medal = medal.id ∧ check.due = false := by
  have hempty : Covered site (site.user score) (.empty scores users) :=
    ⟨inv_empty site scores users, fun _ _ hin => absurd hin (Option.some_ne_none _).symm⟩
  exact (hempty.run hclear).tasks t _ ht rfl

theorem passes_complete_sample :
    (7, 337) ∈ (twoPasses.run sampleSite passEvents).rows ∨
      ∃ check ∈ (twoPasses.run sampleSite passEvents).checks,
        check.task = 1 ∧ check.score = 5 ∧ check.medal = 337 ∧ check.due = false :=
  passes_complete sampleSite _ _ passEvents 1 5
    (by
      intro e hin heq
      rw [heq] at hin
      simp only [passEvents, List.mem_append, List.mem_cons, List.mem_replicate,
        List.not_mem_nil, reduceCtorEq, and_false, or_false] at hin)
    (by decide +kernel) ⟨337, false, true⟩ (by decide +kernel) rfl

/-! ## The work that is left -/

/-- The most statements that a task in a phase still has. -/
def Phase.rank (medals : Nat) : Phase → Nat
  | .delivered _ => 2 * medals + 6
  | .found _ => 2 * medals + 5
  | .locked _ => 2 * medals + 4
  | .fitting _ _ => 2 * medals + 3
  | .checking _ _ todo result => 2 * todo.length + result.length + 2
  | .unlocking _ _ todo _ => todo.length + 1
  | .complete _ => 0
  | .ended => 0

def State.work (site : Site) (s : State) : Nat :=
  (s.tasks.map (Phase.rank site.registry.medals.length)).sum

section Work

variable {site : Site} {s : State} {t : TaskId} {phase : Phase}

theorem work_goto (ht : s.tasks[t]? = some phase) {phase' : Phase}
    (hlt : phase'.rank site.registry.medals.length < phase.rank site.registry.medals.length) :
    (s.goto t phase').work site < s.work site := by
  have hsum := List.sum_map_set (Phase.rank site.registry.medals.length) phase' ht
  show ((s.tasks.set t phase').map _).sum < _
  unfold State.work
  omega

/-- A task waits for a lock. -/
def Blocked (site : Site) (s : State) : Phase → Prop
  | .found score => ¬ Free (Phase.holds site) s.tasks (site.user score)
  | _ => False

/-- A task that neither waits nor is over has one statement less to do. -/
theorem work_advance (ht : s.tasks[t]? = some phase) (hblocked : ¬ Blocked site s phase)
    (hover : phase.isOver = false) (due : Bool) :
    (s.advance site t due phase).work site < s.work site := by
  cases phase with
  | delivered score =>
    apply work_goto ht
    split
    · exact Nat.lt_succ_self _
    · exact Nat.succ_pos _
  | found score =>
    have hfree : ¬ (s.tasks.any fun other => other.holds site == some (site.user score)) = true :=
      fun hany => hblocked (any_holds_iff.mp hany)
    have hstep : s.advance site t due (.found score) =
        s.goto t (if s.users (site.user score) then .locked score else .ended) := if_neg hfree
    rw [hstep]
    apply work_goto ht
    split
    · exact Nat.lt_succ_self _
    · exact Nat.succ_pos _
  | locked score =>
    unfold State.advance
    cases hscore : s.scores score with
    | none =>
      simp only [hscore]
      exact work_goto ht (Nat.succ_pos _)
    | some row =>
      simp only [hscore]
      apply work_goto ht
      split
      · exact Nat.lt_succ_self _
      · exact Nat.succ_pos _
  | fitting score row =>
    apply work_goto ht
    have hle : (s.notAchieved site (site.user score)).length ≤ site.registry.medals.length :=
      List.length_filter_le _ _
    show 2 * _ + 0 + 2 < 2 * site.registry.medals.length + 3
    omega
  | checking score row todo result =>
    cases todo with
    | nil =>
      apply work_goto ht
      split
      · exact Nat.succ_pos _
      · show (result.map Achievement.id).length + 1 < 2 * 0 + result.length + 2
        rw [List.length_map]
        omega
    | cons medal todo =>
      by_cases hasked : medal.processor = true
      · have hstep : s.advance site t due (.checking score row (medal :: todo) result) =
            ({ s with checks := ⟨t, score, row, medal.id, due⟩ :: s.checks } : State).goto t
              (.checking score row todo (if due then result ++ [medal] else result)) :=
          if_pos hasked
        rw [hstep]
        apply work_goto ht
        show 2 * todo.length + _ + 2 < 2 * (todo.length + 1) + result.length + 2
        cases due with
        | true =>
          rw [if_pos rfl, List.length_append, List.length_singleton]
          omega
        | false =>
          rw [if_neg Bool.false_ne_true]
          omega
      · have hstep : s.advance site t due (.checking score row (medal :: todo) result) =
            s.goto t (.checking score row todo result) := if_neg hasked
        rw [hstep]
        apply work_goto ht
        show 2 * todo.length + result.length + 2 < 2 * (todo.length + 1) + result.length + 2
        omega
  | unlocking user score todo added =>
    cases todo with
    | nil =>
      apply work_goto ht
      cases score <;> exact Nat.succ_pos _
    | cons medal todo => exact work_goto ht (Nat.lt_succ_self _)
  | complete score => cases hover
  | ended => cases hover

/-- Who holds a lock neither waits nor is over. -/
theorem not_blocked_of_holds {user : UserId} (hholds : phase.holds site = some user) :
    ¬ Blocked site s phase ∧ phase.isOver = false := by
  cases phase with
  | found score => cases hholds
  | delivered score => cases hholds
  | complete score => cases hholds
  | ended => cases hholds
  | locked score => exact ⟨fun h => h, rfl⟩
  | fitting score row => exact ⟨fun h => h, rfl⟩
  | checking score row todo result => exact ⟨fun h => h, rfl⟩
  | unlocking user score todo added => exact ⟨fun h => h, rfl⟩

theorem work_after_resume (s : State) (t : TaskId) (due : Bool) :
    (s.after site (.resume t due)).work site ≤ s.work site := by
  show (s.tasks[t]?.elim s (s.advance site t due)).work site ≤ _
  cases ht : s.tasks[t]? with
  | none => exact Nat.le_refl _
  | some phase =>
    show (s.advance site t due phase).work site ≤ _
    by_cases hover : phase.isOver = true
    · cases phase with
      | complete score => exact Nat.le_refl _
      | ended => exact Nat.le_refl _
      | _ => cases hover
    · by_cases hblocked : Blocked site s phase
      · cases phase with
        | found score =>
          have hstep : s.advance site t due (.found score) = s :=
            if_pos (any_holds_iff.mpr hblocked)
          exact Nat.le_of_eq (congrArg (State.work site) hstep)
        | _ => cases hblocked
      · exact Nat.le_of_lt (work_advance ht hblocked (Bool.eq_false_iff.mpr hover) due)

/-- A call of `process_achievements` or of the endpoint. -/
def Event.isCall : Event → Bool
  | .deliver _ => true
  | .unlock _ _ => true
  | _ => false

theorem work_append (s : State) (phase : Phase) :
    ({ s with tasks := s.tasks ++ [phase] } : State).work site =
      s.work site + phase.rank site.registry.medals.length := by
  show ((s.tasks ++ [phase]).map _).sum = (s.tasks.map _).sum + _
  rw [List.map_append, List.sum_append]
  rfl

theorem work_after (s : State) (e : Event) :
    (s.after site e).work site ≤
      s.work site + if e.isCall then 2 * site.registry.medals.length + 6 else 0 := by
  cases e with
  | deliver score => exact Nat.le_of_eq (work_append s _)
  | unlock user id =>
    show (if site.Clientside id then
      { s with tasks := s.tasks ++ [.unlocking user none [id] []] } else s).work site ≤
        s.work site + (2 * site.registry.medals.length + 6)
    split
    · have happend :
        ({ s with tasks := s.tasks ++ [.unlocking user none [id] []] } : State).work site =
          s.work site + (Phase.unlocking user none [id] []).rank site.registry.medals.length :=
        work_append s _
      have hrank : (Phase.unlocking user none [id] []).rank site.registry.medals.length = 2 := rfl
      omega
    · exact Nat.le_add_right _ _
  | resume t due => exact work_after_resume s t due
  | fails t =>
    show (s.tasks[t]?.elim s fun phase =>
      if phase.isOver then s else s.goto t .ended).work site ≤ s.work site
    cases ht : s.tasks[t]? with
    | none => exact Nat.le_refl _
    | some phase =>
      show (if phase.isOver then s else s.goto t .ended).work site ≤ s.work site
      split
      · exact Nat.le_refl _
      · next hover =>
        apply Nat.le_of_lt (work_goto ht _)
        cases phase with
        | complete score => exact absurd rfl hover
        | ended => exact absurd rfl hover
        | _ => exact Nat.succ_pos _
  | clear user => exact Nat.le_refl _
  | change scores users => exact Nat.le_refl _

theorem work_run (s : State) (events : List Event) :
    (s.run site events).work site ≤
      s.work site + (2 * site.registry.medals.length + 6) * events.countP Event.isCall := by
  induction events generalizing s with
  | nil => exact Nat.le_refl _
  | cons e rest ih =>
    have hrest := ih (s.after site e)
    have hone : (s.after site e).work site ≤
        s.work site + if e.isCall then 2 * site.registry.medals.length + 6 else 0 := work_after s e
    have hcost : (2 * site.registry.medals.length + 6) * (e :: rest).countP Event.isCall =
        (2 * site.registry.medals.length + 6) * rest.countP Event.isCall +
          if e.isCall then 2 * site.registry.medals.length + 6 else 0 := by
      rw [List.countP_cons, Nat.mul_add]
      split
      · rw [Nat.mul_one]
      · rfl
    show ((s.after site e).run site rest).work site ≤ _
    omega

end Work

/-- **The passes end.**  There is a bound on the statements that are left to the tasks, for any
answers of the processors, and as long as a task is not over some task has one statement less to
do after its next one: the tasks never wait for each other for ever. -/
theorem passes_end (site : Site) (scores : ScoreId → Option Score) (users : UserId → Bool)
    (events : List Event) :
    ((State.empty scores users).run site events).work site ≤
        (2 * site.registry.medals.length + 6) * events.countP Event.isCall ∧
      (∀ t due, (((State.empty scores users).run site events).after site (.resume t due)).work
        site ≤ ((State.empty scores users).run site events).work site) ∧
      ((∃ phase ∈ ((State.empty scores users).run site events).tasks, phase.isOver = false) →
        ∃ t, ∀ due, (((State.empty scores users).run site events).after site (.resume t due)).work
          site < ((State.empty scores users).run site events).work site) := by
  have hbound : ((State.empty scores users).run site events).work site ≤
      (State.empty scores users).work site +
        (2 * site.registry.medals.length + 6) * events.countP Event.isCall := work_run _ events
  have hnone : (State.empty scores users).work site = 0 := rfl
  rw [hnone, Nat.zero_add] at hbound
  refine ⟨hbound, work_after_resume _, ?_⟩
  rintro ⟨phase, hin, hover⟩
  generalize (State.empty scores users).run site events = s at hin ⊢
  -- The task itself can go on, or the one that it waits for.
  have hable : ∃ other ∈ s.tasks, ¬ Blocked site s other ∧ other.isOver = false := by
    by_cases hblocked : Blocked site s phase
    · cases phase with
      | found score =>
        obtain ⟨other, hother, hholds⟩ := not_free_iff.mp hblocked
        exact ⟨other, hother, not_blocked_of_holds hholds⟩
      | _ => cases hblocked
    · exact ⟨phase, hin, hblocked, hover⟩
  obtain ⟨other, hother, hblocked', hover'⟩ := hable
  obtain ⟨t, ht⟩ := List.getElem?_of_mem hother
  refine ⟨t, fun due => ?_⟩
  show (s.tasks[t]?.elim s (s.advance site t due)).work site < _
  rw [ht]
  exact work_advance ht hblocked' hover' due

end Soms.Medals

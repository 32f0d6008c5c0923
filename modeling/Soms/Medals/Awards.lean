import Soms.Library.Exclusive
import Soms.Medals.Process

/-!
# Nobody is granted a medal twice

The row of the user is locked while the medals of a score are looked for, so what a task finds
missing stays missing until it adds it.  However many tasks are given the scores of a user, and
wherever they fail, a medal is added once, and only when a processor has found it due.
-/

namespace Soms.Medals

/-- The medals that a task with a lock may still add. -/
def Phase.reserved : Phase → List MedalId
  | .checking _ _ todo result => (result ++ todo.filter Achievement.processor).map Achievement.id
  | .unlocking _ (some _) todo added => added ++ todo
  | _ => []

/-- A processor has found the medal due, for a score of the user on the chart of the server. -/
def Earned (site : Site) (s : State) (user : UserId) (medal : MedalId) : Prop :=
  ∃ check ∈ s.checks,
    site.user check.score = user ∧ check.medal = medal ∧ check.due = true ∧ site.Fits check.row

/-- What a task knows. -/
def Knows (site : Site) (s : State) : Phase → Prop
  | .fitting _ row => site.Fits row
  | .checking score row todo result =>
    site.Fits row ∧ (∀ medal ∈ todo, medal ∈ site.registry.medals) ∧
      ∀ medal ∈ result, Earned site s (site.user score) medal.id
  | .unlocking user (some score) todo added =>
    user = site.user score ∧ (∀ id ∈ added, (user, id) ∈ s.published) ∧
      ∀ id ∈ added ++ todo, Earned site s user id
  | .unlocking user none todo added =>
    (∀ id ∈ added, (user, id) ∈ s.published) ∧ ∀ id ∈ added ++ todo, site.Clientside id
  | _ => True

structure TaskOk (site : Site) (s : State) (phase : Phase) : Prop where
  nodup : phase.reserved.Nodup
  granted : ∀ id ∈ phase.reserved, ¬ site.Clientside id
  absent : ∀ user, phase.holds site = some user → ∀ id ∈ phase.reserved, (user, id) ∉ s.rows
  knows : Knows site s phase

structure Inv (site : Site) (s : State) : Prop where
  exclusive : Exclusive (Phase.holds site) s.tasks
  tasks : ∀ phase ∈ s.tasks, TaskOk site s phase
  once : ∀ row, ¬ site.Clientside row.2 → s.rows.count row ≤ 1
  earned : ∀ row ∈ s.rows, site.Clientside row.2 ∨ Earned site s row.1 row.2
  events : s.events = s.rows
  published : ∀ row ∈ s.rows, row ∈ s.published

section Tasks

variable {site : Site} {s s' : State} {phase phase' : Phase} {t : TaskId}

/-- What a task looks at before it takes the lock of a user. -/
theorem any_holds_iff {user : UserId} :
    (s.tasks.any fun other => other.holds site == some user) = true ↔
      ¬ Free (Phase.holds site) s.tasks user := by
  rw [not_free_iff, List.any_eq_true]
  simp only [beq_iff_eq]

/-- A medal with a processor is not granted by the game. -/
theorem not_clientside {medal : Achievement} (hin : medal ∈ site.registry.medals)
    (hprocessor : medal.processor = true) : ¬ site.Clientside medal.id := by
  rintro ⟨other, hother, heq, hclientside⟩
  have hsame : other = medal := List.inj_on_of_nodup_map site.registry.distinct hother hin heq
  have hnone := site.registry.clientside other hother hclientside
  rw [hsame, hprocessor] at hnone
  cases hnone

theorem Earned.mono (hchecks : ∀ check ∈ s.checks, check ∈ s'.checks) {user : UserId}
    {medal : MedalId} (h : Earned site s user medal) : Earned site s' user medal := by
  obtain ⟨check, hin, hall⟩ := h
  exact ⟨check, hchecks check hin, hall⟩

theorem Knows.mono (hchecks : ∀ check ∈ s.checks, check ∈ s'.checks)
    (hpublished : ∀ row ∈ s.published, row ∈ s'.published) (h : Knows site s phase) :
    Knows site s' phase := by
  cases phase with
  | checking score row todo result =>
    exact ⟨h.1, h.2.1, fun medal hin => (h.2.2 medal hin).mono hchecks⟩
  | unlocking user score todo added =>
    cases score with
    | none => exact ⟨fun id hin => hpublished _ (h.1 id hin), h.2⟩
    | some score =>
      exact ⟨h.1, fun id hin => hpublished _ (h.2.1 id hin),
        fun id hin => (h.2.2 id hin).mono hchecks⟩
  | fitting score row => exact h
  | delivered score => trivial
  | found score => trivial
  | locked score => trivial
  | complete score => trivial
  | ended => trivial

theorem TaskOk.mono (hchecks : ∀ check ∈ s.checks, check ∈ s'.checks)
    (hpublished : ∀ row ∈ s.published, row ∈ s'.published)
    (hrows : ∀ user, phase.holds site = some user → ∀ id ∈ phase.reserved,
      (user, id) ∈ s'.rows → (user, id) ∈ s.rows)
    (h : TaskOk site s phase) : TaskOk site s' phase :=
  ⟨h.nodup, h.granted,
    fun user hholds id hin hrow => h.absent user hholds id hin (hrows user hholds id hin hrow),
    h.knows.mono hchecks hpublished⟩

/-- A task that is to add nothing. -/
theorem TaskOk.idle (hreserved : phase.reserved = []) (hknows : Knows site s phase) :
    TaskOk site s phase := by
  refine ⟨?_, ?_, ?_, hknows⟩
  · rw [hreserved]
    exact List.nodup_nil
  · rw [hreserved]
    exact fun id hin => absurd hin List.not_mem_nil
  · rw [hreserved]
    exact fun _ _ id hin => absurd hin List.not_mem_nil

/-- A task goes on with what it may add, or less of it. -/
theorem TaskOk.next (h : TaskOk site s phase) (hrows : s'.rows = s.rows)
    (hsub : phase'.reserved.Sublist phase.reserved)
    (hholds : ∀ user, phase'.holds site = some user → phase.holds site = some user)
    (hknows : Knows site s' phase') : TaskOk site s' phase' := by
  refine ⟨hsub.nodup h.nodup, fun id hin => h.granted id (hsub.subset hin), ?_, hknows⟩
  rw [hrows]
  exact fun user hholds' id hin => h.absent user (hholds user hholds') id (hsub.subset hin)

/-- A step of a task that adds no medal. -/
structure Moves (site : Site) (s s' : State) (t : TaskId) (phase phase' : Phase) : Prop where
  rows : s'.rows = s.rows
  events : s'.events = s.events
  tasks : s'.tasks = s.tasks.set t phase'
  checks : ∀ check ∈ s.checks, check ∈ s'.checks
  published : ∀ row ∈ s.published, row ∈ s'.published
  holds : ∀ user, phase'.holds site = some user →
    phase.holds site = some user ∨ Free (Phase.holds site) s.tasks user

theorem Moves.goto (hholds : ∀ user, phase'.holds site = some user →
    phase.holds site = some user ∨ Free (Phase.holds site) s.tasks user) :
    Moves site s (s.goto t phase') t phase phase' :=
  ⟨rfl, rfl, rfl, fun _ h => h, fun _ h => h, hholds⟩

theorem Inv.moves (h : Inv site s) (ht : s.tasks[t]? = some phase)
    (hmoves : Moves site s s' t phase phase') (hok : TaskOk site s' phase') : Inv site s' where
  exclusive := by
    rw [hmoves.tasks]
    exact h.exclusive.set ht hmoves.holds
  tasks := by
    intro other hin
    rw [hmoves.tasks] at hin
    rcases List.mem_or_eq_of_mem_set hin with hin | rfl
    · refine (h.tasks other hin).mono hmoves.checks hmoves.published ?_
      rw [hmoves.rows]
      exact fun _ _ _ _ hrow => hrow
    · exact hok
  once := by
    rw [hmoves.rows]
    exact h.once
  earned := by
    rw [hmoves.rows]
    exact fun row hin => (h.earned row hin).imp_right fun he => he.mono hmoves.checks
  events := by rw [hmoves.events, hmoves.rows, h.events]
  published := by
    rw [hmoves.rows]
    exact fun row hin => hmoves.published row (h.published row hin)

end Tasks

/-! ## The steps of a task -/

section Steps

variable {site : Site} {s : State} {t : TaskId} {phase : Phase}

/-- A task that goes on to a phase in which it is to add nothing. -/
theorem Inv.goto_idle (h : Inv site s) (ht : s.tasks[t]? = some phase) {phase' : Phase}
    (hholds : ∀ user, phase'.holds site = some user →
      phase.holds site = some user ∨ Free (Phase.holds site) s.tasks user)
    (hreserved : phase'.reserved = []) (hknows : Knows site s phase') :
    Inv site (s.goto t phase') :=
  h.moves ht (.goto hholds) (.idle hreserved hknows)

/-- A task that returns. -/
theorem Inv.goto_over (h : Inv site s) (ht : s.tasks[t]? = some phase) {phase' : Phase}
    (hover : phase'.isOver = true) : Inv site (s.goto t phase') := by
  have hnone : ∀ user, phase'.holds site ≠ some user := by
    intro user hholds
    cases phase' with
    | complete score => cases hholds
    | ended => cases hholds
    | _ => cases hover
  refine h.goto_idle ht (fun user hholds => absurd hholds (hnone user)) ?_ ?_
  · cases phase' with
    | complete score => rfl
    | ended => rfl
    | _ => cases hover
  · cases phase' with
    | complete score => trivial
    | ended => trivial
    | _ => cases hover

/-- What is not achieved yet may be added. -/
theorem Inv.goto_checking (h : Inv site s) {score : ScoreId} {row : Score}
    (ht : s.tasks[t]? = some (.fitting score row)) :
    Inv site (s.goto t (.checking score row (s.notAchieved site (site.user score)) [])) := by
  have hknows : Knows site s (.fitting score row) :=
    (h.tasks _ (List.mem_of_getElem? ht)).knows
  have hin : ∀ medal ∈ (s.notAchieved site (site.user score)).filter Achievement.processor,
      medal ∈ site.registry.medals ∧ (site.user score, medal.id) ∉ s.rows ∧
        medal.processor = true := by
    intro medal hmem
    rw [List.mem_filter, State.notAchieved, List.mem_filter] at hmem
    exact ⟨hmem.1.1, of_decide_eq_true hmem.1.2, hmem.2⟩
  refine h.moves ht (.goto fun user hholds => .inl hholds) ⟨?_, ?_, ?_, ?_⟩
  · have hsub : ((s.notAchieved site (site.user score)).filter Achievement.processor).Sublist
        site.registry.medals := List.filter_sublist.trans List.filter_sublist
    exact (hsub.map Achievement.id).nodup site.registry.distinct
  · intro id hid
    obtain ⟨medal, hmem, rfl⟩ := List.mem_map.mp hid
    exact not_clientside (hin medal hmem).1 (hin medal hmem).2.2
  · intro user hholds id hid
    obtain ⟨medal, hmem, rfl⟩ := List.mem_map.mp hid
    rw [← Option.some.inj hholds]
    exact (hin medal hmem).2.1
  · exact ⟨hknows, fun medal hmem => List.mem_of_mem_filter hmem,
      fun medal hmem => absurd hmem List.not_mem_nil⟩

/-- The answer of a processor. -/
theorem Inv.check (h : Inv site s) {score : ScoreId} {row : Score} {medal : Achievement}
    {todo result : List Achievement}
    (ht : s.tasks[t]? = some (.checking score row (medal :: todo) result))
    (hprocessor : medal.processor = true) (due : Bool) :
    Inv site ({ s with checks := ⟨t, score, row, medal.id, due⟩ :: s.checks }.goto t
      (.checking score row todo (if due then result ++ [medal] else result))) := by
  have hok := h.tasks _ (List.mem_of_getElem? ht)
  obtain ⟨hfits, htodo, hresult⟩ := hok.knows
  have hmono : ∀ check ∈ s.checks,
      check ∈ (⟨t, score, row, medal.id, due⟩ : Check) :: s.checks :=
    fun _ hin => List.mem_cons_of_mem _ hin
  refine h.moves ht ⟨rfl, rfl, rfl, hmono, fun _ hin => hin, fun _ hholds => .inl hholds⟩
    (hok.next rfl ?_ (fun _ hholds => hholds) ?_)
  · have hfilter : (medal :: todo).filter Achievement.processor =
        medal :: todo.filter Achievement.processor := List.filter_cons_of_pos hprocessor
    show ((if due then result ++ [medal] else result) ++
      todo.filter Achievement.processor).map Achievement.id |>.Sublist
        ((result ++ (medal :: todo).filter Achievement.processor).map Achievement.id)
    rw [hfilter]
    cases due with
    | true =>
      show ((result ++ [medal]) ++ _).map _ |>.Sublist _
      rw [List.append_assoc]
      exact List.Sublist.refl _
    | false => exact ((List.sublist_cons_self medal _).append_left result).map _
  · refine ⟨hfits, fun other hin => htodo other (List.mem_cons_of_mem _ hin), ?_⟩
    intro other hin
    have hold : ∀ other ∈ result, Earned site
        ({ s with checks := ⟨t, score, row, medal.id, due⟩ :: s.checks }) (site.user score)
        other.id := fun other hin => (hresult other hin).mono hmono
    cases due with
    | false => exact hold other hin
    | true =>
      rcases List.mem_append.mp hin with hin | hin
      · exact hold other hin
      · rw [List.mem_singleton.mp hin]
        exact ⟨_, List.mem_cons_self, rfl, rfl, rfl, hfits⟩

/-- A medal without a processor. -/
theorem Inv.skip (h : Inv site s) {score : ScoreId} {row : Score} {medal : Achievement}
    {todo result : List Achievement}
    (ht : s.tasks[t]? = some (.checking score row (medal :: todo) result)) :
    Inv site (s.goto t (.checking score row todo result)) := by
  have hok := h.tasks _ (List.mem_of_getElem? ht)
  obtain ⟨hfits, htodo, hresult⟩ := hok.knows
  refine h.moves ht (.goto fun _ hholds => .inl hholds)
    (hok.next rfl ?_ (fun _ hholds => hholds) ?_)
  · have hsub : (todo.filter Achievement.processor).Sublist
        ((medal :: todo).filter Achievement.processor) :=
      (List.sublist_cons_self medal todo).filter _
    exact (hsub.append_left result).map _
  · exact ⟨hfits, fun other hin => htodo other (List.mem_cons_of_mem _ hin), hresult⟩

theorem Inv.checked (h : Inv site s) {score : ScoreId} {row : Score} {result : List Achievement}
    (ht : s.tasks[t]? = some (.checking score row [] result)) :
    Inv site (s.goto t (.unlocking (site.user score) (some score) (result.map Achievement.id) []))
    := by
  have hok := h.tasks _ (List.mem_of_getElem? ht)
  obtain ⟨-, -, hresult⟩ := hok.knows
  refine h.moves ht (.goto fun _ hholds => .inl hholds)
    (hok.next rfl ?_ (fun _ hholds => hholds) ?_)
  · show (result.map Achievement.id).Sublist ((result ++ []).map Achievement.id)
    rw [List.append_nil]
  · refine ⟨rfl, fun id hin => absurd hin List.not_mem_nil, ?_⟩
    intro id hin
    obtain ⟨medal, hmem, rfl⟩ := List.mem_map.mp hin
    exact hresult medal hmem

theorem Inv.publish (h : Inv site s) {user : UserId} {score : Option ScoreId} {medal : MedalId}
    {todo added : List MedalId}
    (ht : s.tasks[t]? = some (.unlocking user score (medal :: todo) added)) :
    Inv site ({ s with published := (user, medal) :: s.published }.goto t
      (.unlocking user score todo (added ++ [medal]))) := by
  have hok := h.tasks _ (List.mem_of_getElem? ht)
  have hlist : (added ++ [medal]) ++ todo = added ++ medal :: todo := by
    rw [List.append_assoc]
    rfl
  have hpublished : (∀ id ∈ added, (user, id) ∈ s.published) →
      ∀ id ∈ added ++ [medal], (user, id) ∈ (user, medal) :: s.published := by
    intro hadded id hin
    rcases List.mem_append.mp hin with hin | hin
    · exact List.mem_cons_of_mem _ (hadded id hin)
    · rw [List.mem_singleton.mp hin]
      exact List.mem_cons_self
  refine h.moves ht ⟨rfl, rfl, rfl, fun _ hin => hin, fun _ hin => List.mem_cons_of_mem _ hin,
    ?_⟩ (hok.next rfl ?_ ?_ ?_)
  · cases score <;> exact fun _ hholds => .inl hholds
  · cases score with
    | none => exact List.Sublist.refl _
    | some score =>
      show ((added ++ [medal]) ++ todo).Sublist (added ++ medal :: todo)
      rw [hlist]
  · cases score <;> exact fun _ hholds => hholds
  · have hknows := hok.knows
    cases score with
    | none =>
      refine ⟨hpublished hknows.1, ?_⟩
      rw [hlist]
      exact hknows.2
    | some score =>
      refine ⟨hknows.1, hpublished hknows.2.1, ?_⟩
      rw [hlist]
      exact hknows.2.2

/-- The transaction of a task is committed. -/
theorem Inv.commit (h : Inv site s) {user : UserId} {score : Option ScoreId}
    {added : List MedalId} (ht : s.tasks[t]? = some (.unlocking user score [] added)) :
    Inv site ({ s with
      rows := s.rows ++ added.map fun medal => (user, medal)
      events := s.events ++ added.map fun medal => (user, medal) }.goto t
        (score.elim .ended .complete)) := by
  have hok := h.tasks _ (List.mem_of_getElem? ht)
  have hknows := hok.knows
  have hpublished : ∀ id ∈ added, (user, id) ∈ s.published := by
    cases score with
    | none => exact hknows.1
    | some score => exact hknows.2.1
  -- The medals are the game's, or the task has the lock.
  have hadded : ∀ id ∈ added, ¬ site.Clientside id →
      (Phase.unlocking user score [] added).holds site = some user ∧ Earned site s user id ∧
        (user, id) ∉ s.rows ∧ added.Nodup := by
    intro id hin hnot
    cases score with
    | none => exact absurd (hknows.2 id (List.mem_append_left _ hin)) hnot
    | some score =>
      have hnodup : (added ++ []).Nodup := hok.nodup
      rw [List.append_nil] at hnodup
      exact ⟨rfl, hknows.2.2 id (List.mem_append_left _ hin),
        hok.absent user rfl id (List.mem_append_left _ hin), hnodup⟩
  have hover : (score.elim Phase.ended Phase.complete).isOver = true := by
    cases score <;> rfl
  have hgone := h.goto_over ht hover
  refine ⟨hgone.exclusive, ?_, ?_, ?_, ?_, ?_⟩
  · intro other hin
    have hold := hgone.tasks other hin
    refine ⟨hold.nodup, hold.granted, ?_, hold.knows.mono (fun _ hc => hc) fun _ hr => hr⟩
    intro user' hholds id hid hrow
    rcases List.mem_append.mp hrow with hrow | hrow
    · exact hold.absent user' hholds id hid hrow
    · obtain ⟨id', hid', heq⟩ := List.mem_map.mp hrow
      obtain ⟨rfl, rfl⟩ := Prod.mk.inj heq
      have hlock := (hadded id' hid' (hold.granted id' hid)).1
      obtain ⟨j, hj⟩ := List.getElem?_of_mem hin
      rcases (getElem?_set_some ht).mp hj with ⟨-, rfl⟩ | ⟨hne, hj⟩
      · cases score <;> cases hholds
      · exact hne (h.exclusive t j _ _ user ht hj hlock hholds)
  · intro row hnot
    show (s.rows ++ _).count row ≤ 1
    rw [List.count_append]
    by_cases hin : row ∈ added.map fun medal => (user, medal)
    · obtain ⟨id, hid, rfl⟩ := List.mem_map.mp hin
      obtain ⟨-, -, habsent, hnodup⟩ := hadded id hid hnot
      have hinj : Function.Injective fun medal : MedalId => (user, medal) :=
        fun _ _ heq => (Prod.mk.inj heq).2
      have hzero := List.count_eq_zero_of_not_mem habsent
      have hone := List.count_eq_one_of_mem (hnodup.map hinj) hin
      omega
    · rw [List.count_eq_zero_of_not_mem hin]
      exact h.once row hnot
  · intro row hin
    rcases List.mem_append.mp hin with hin | hin
    · exact h.earned row hin
    · obtain ⟨id, hid, rfl⟩ := List.mem_map.mp hin
      by_cases hnot : site.Clientside id
      · exact .inl hnot
      · exact .inr (hadded id hid hnot).2.1
  · show s.events ++ _ = s.rows ++ _
    rw [h.events]
  · intro row hin
    rcases List.mem_append.mp hin with hin | hin
    · exact h.published row hin
    · obtain ⟨id, hid, rfl⟩ := List.mem_map.mp hin
      exact hpublished id hid

/-- The next statement of a task. -/
theorem Inv.advance (h : Inv site s) (ht : s.tasks[t]? = some phase) (due : Bool) :
    Inv site (s.advance site t due phase) := by
  cases phase with
  | delivered score =>
    show Inv site (s.goto t (if (s.scores score).isSome then .found score else .ended))
    split
    · refine h.goto_idle ht ?_ rfl trivial
      intro user hholds
      cases hholds
    · exact h.goto_over ht rfl
  | found score =>
    show Inv site (if s.tasks.any fun other => other.holds site == some (site.user score) then s
      else s.goto t (if s.users (site.user score) then .locked score else .ended))
    split
    · exact h
    · next hnone =>
      split
      · refine h.goto_idle ht ?_ rfl trivial
        intro user hholds
        obtain rfl := Option.some.inj hholds
        exact .inr (Classical.not_not.mp fun hheld => hnone (any_holds_iff.mpr hheld))
      · exact h.goto_over ht rfl
  | locked score =>
    unfold State.advance
    cases hscore : s.scores score with
    | none =>
      simp only [hscore]
      exact h.goto_over ht rfl
    | some row =>
      simp only [hscore]
      split
      · next hfits => exact h.goto_idle ht (fun _ hholds => .inl hholds) rfl hfits
      · exact h.goto_over ht rfl
  | fitting score row => exact h.goto_checking ht
  | checking score row todo result =>
    cases todo with
    | nil =>
      show Inv site (s.goto t (if result = [] then .complete score
        else .unlocking (site.user score) (some score) (result.map Achievement.id) []))
      split
      · exact h.goto_over ht rfl
      · exact h.checked ht
    | cons medal todo =>
      show Inv site (if medal.processor then
          { s with checks := ⟨t, score, row, medal.id, due⟩ :: s.checks }.goto t
            (.checking score row todo (if due then result ++ [medal] else result))
        else s.goto t (.checking score row todo result))
      split
      · next hprocessor => exact h.check ht hprocessor due
      · exact h.skip ht
  | unlocking user score todo added =>
    cases todo with
    | nil => exact h.commit ht
    | cons medal todo => exact h.publish ht
  | complete score => exact h
  | ended => exact h

end Steps

section Events

variable {site : Site} {s : State}

/-- A new task. -/
theorem Inv.append (h : Inv site s) {phase : Phase} (hholds : phase.holds site = none)
    (hreserved : phase.reserved = []) (hknows : Knows site s phase) :
    Inv site { s with tasks := s.tasks ++ [phase] } where
  exclusive := h.exclusive.append hholds
  tasks := by
    intro other hin
    rcases List.mem_append.mp hin with hin | hin
    · exact TaskOk.mono (s := s) (fun _ hc => hc) (fun _ hr => hr) (fun _ _ _ _ hr => hr)
        (h.tasks other hin)
    · rw [List.mem_singleton.mp hin]
      exact .idle hreserved (Knows.mono (s := s) (fun _ hc => hc) (fun _ hr => hr) hknows)
  once := h.once
  earned := h.earned
  events := h.events
  published := h.published

theorem Inv.clear (h : Inv site s) (user : UserId) : Inv site (s.after site (.clear user)) where
  exclusive := h.exclusive
  tasks := fun phase hin => TaskOk.mono (s := s) (fun _ hc => hc) (fun _ hr => hr)
    (fun _ _ _ _ hr => (List.mem_filter.mp hr).1) (h.tasks phase hin)
  once := fun row hnot => Nat.le_trans (List.filter_sublist.count_le row) (h.once row hnot)
  earned := fun row hin => h.earned row (List.mem_of_mem_filter hin)
  events := by
    show s.events.filter _ = s.rows.filter _
    rw [h.events]
  published := fun row hin => h.published row (List.mem_of_mem_filter hin)

theorem Inv.after (h : Inv site s) (e : Event) : Inv site (s.after site e) := by
  cases e with
  | deliver score => exact h.append rfl rfl trivial
  | unlock user id =>
    show Inv site (if site.Clientside id then
      { s with tasks := s.tasks ++ [.unlocking user none [id] []] } else s)
    split
    · next hclientside =>
      refine h.append rfl rfl ⟨fun id hin => absurd hin List.not_mem_nil, ?_⟩
      intro other hin
      rw [List.mem_singleton.mp hin]
      exact hclientside
    · exact h
  | resume t due =>
    show Inv site (s.tasks[t]?.elim s (s.advance site t due))
    cases ht : s.tasks[t]? with
    | none => exact h
    | some phase => exact h.advance ht due
  | fails t =>
    show Inv site (s.tasks[t]?.elim s fun phase =>
      if phase.isOver then s else s.goto t .ended)
    cases ht : s.tasks[t]? with
    | none => exact h
    | some phase =>
      show Inv site (if phase.isOver then s else s.goto t .ended)
      split
      · exact h
      · exact h.goto_over ht rfl
  | clear user => exact h.clear user
  | change scores users =>
    exact ⟨h.exclusive, fun phase hin => TaskOk.mono (s := s) (fun _ hc => hc) (fun _ hr => hr)
      (fun _ _ _ _ hr => hr) (h.tasks phase hin), h.once, h.earned, h.events, h.published⟩

theorem inv_empty (site : Site) (scores : ScoreId → Option Score) (users : UserId → Bool) :
    Inv site (.empty scores users) where
  exclusive := .nil
  tasks := fun _ hin => absurd hin List.not_mem_nil
  once := fun _ _ => Nat.zero_le 1
  earned := fun _ hin => absurd hin List.not_mem_nil
  events := rfl
  published := fun _ hin => absurd hin List.not_mem_nil

theorem Inv.run (h : Inv site s) (events : List Event) : Inv site (s.run site events) := by
  induction events generalizing s with
  | nil => exact h
  | cons e rest ih => exact ih (h.after e)

end Events

section Runs

variable (site : Site) (scores : ScoreId → Option Score) (users : UserId → Bool)
  (events : List Event)

/-- **A medal is added once.**  However many tasks process the scores of a user at the same time,
however often a score is delivered and wherever tasks fail, a user has a medal of a processor once
at most.  Every row has its event, and was announced. -/
theorem medals_once :
    (∀ user medal, ¬ site.Clientside medal →
      ((State.empty scores users).run site events).rows.count (user, medal) ≤ 1) ∧
    ((State.empty scores users).run site events).events =
      ((State.empty scores users).run site events).rows ∧
    ∀ row ∈ ((State.empty scores users).run site events).rows,
      row ∈ ((State.empty scores users).run site events).published := by
  have h : Inv site ((State.empty scores users).run site events) :=
    (inv_empty site scores users).run events
  exact ⟨fun user medal hnot => h.once (user, medal) hnot, h.events, h.published⟩

/-- **A medal is earned.**  A medal that the game does not grant by itself was found due by its
processor, for a score of the user that was set on the chart that the server had. -/
theorem medals_earned (user : UserId) (medal : MedalId)
    (hrow : (user, medal) ∈ ((State.empty scores users).run site events).rows)
    (hprocessor : ¬ site.Clientside medal) :
    ∃ check ∈ ((State.empty scores users).run site events).checks,
      site.user check.score = user ∧ check.medal = medal ∧ check.due = true ∧
        site.lower check.row.mapMd5 = site.lower check.row.checksum := by
  have h : Inv site ((State.empty scores users).run site events) :=
    (inv_empty site scores users).run events
  exact (h.earned _ hrow).resolve_left hprocessor

end Runs

def sampleSite : Site := ⟨registry, fun _ => 7, id⟩

/-- One score of one user. -/
def twoPasses : State := .empty (fun _ => some ⟨"chart", "chart"⟩) fun _ => true

/-- The score is delivered twice, and both tasks find it.  The first one finds a medal due. -/
def passEvents : List Event :=
  [.deliver 5, .deliver 5, .resume 0 false, .resume 1 false] ++
    List.replicate 7 (.resume 0 false) ++ [.resume 1 false, .resume 0 true] ++
    List.replicate 134 (.resume 0 false) ++ List.replicate 141 (.resume 1 false)

theorem medals_earned_sample : ∃ check ∈ (twoPasses.run sampleSite passEvents).checks,
    sampleSite.user check.score = 7 ∧ check.medal = 336 ∧ check.due = true ∧
      sampleSite.lower check.row.mapMd5 = sampleSite.lower check.row.checksum :=
  medals_earned sampleSite _ _ passEvents 7 336 (by decide +kernel) (by decide +kernel)

end Soms.Medals

import Soms.Mail.Queue

/-!
# The attempts to send a mail

An id is with one task or in the queue, never in two places, whatever tasks end and whatever
hashes expire.  So no two workers send one mail, a mail that was taken is not sent again, and the
retries are counted, although the count is lost with a hash that expires.
-/

namespace Soms.Mail

open RedisList

namespace State

/-- How often the provider was called for an id. -/
def tries (s : State) (id : MailId) : Nat := s.attempts.countP fun a => a.id = id

/-- How often it took the mail. -/
def takes (s : State) (id : MailId) : Nat := s.attempts.countP fun a => a.id = id && a.ok

/-- The retries that a worker would read. -/
def recorded (s : State) (id : MailId) : Nat := (s.hashes id).elim 0 Hash.retries

/-- The attempts that may have been forgotten. -/
def forgotten (s : State) (id : MailId) : Nat := if s.expired id then retryLimit else 0

/-- The ids that somebody has. -/
def held (s : State) : List MailId := s.queue ++ s.tasks.map Prod.fst

end State

/-- The data are those of the mail, if its hash has not expired. -/
def Given (s : State) (id : MailId) (data : Hash) : Prop :=
  s.expired id = false → data.email = s.emails[id]?

/-- No attempt was taken, and all of them are counted. -/
def Waiting (s : State) (id : MailId) (retries : Nat) : Prop :=
  s.takes id = 0 ∧ s.tries id ≤ retries + s.forgotten id ∧ retries ≤ retryLimit

/-- What holds while a task is in a phase. -/
def Handles (s : State) (id : MailId) : Phase → Prop
  | .stored => Waiting s id (s.recorded id) ∧ s.expired id = false ∧
      ∀ data ∈ s.hashes id, data.expires = false
  | .read data => Waiting s id data.retries ∧ Given s id data
  | .sending data => Waiting s id data.retries ∧ Given s id data
  | .failed data => s.takes id = 0 ∧ s.tries id ≤ data.retries + 1 + s.forgotten id ∧
      data.retries ≤ retryLimit
  | .succeeded => True
  | .markedSent => True
  | _ => Waiting s id (s.recorded id)

structure Inv (s : State) : Prop where
  nodup : s.held.Nodup
  known : ∀ id ∈ s.held, id < s.emails.length
  queue : ∀ id ∈ s.queue, Waiting s id (s.recorded id)
  tasks : ∀ t ∈ s.tasks, Handles s t.1 t.2
  bound : ∀ id, s.tries id ≤ retryLimit + 1 + s.forgotten id
  last : s.attempts.Pairwise fun later earlier => later.id = earlier.id → earlier.ok = false
  given : ∀ a ∈ s.attempts, s.expired a.id = false → a.email = s.emails[a.id]?
  hash : ∀ id, ∀ data ∈ s.hashes id, Given s id data ∧ (data.expires = true → s.expired id = false)
  there : ∀ id < s.emails.length, s.expired id = false → s.hashes id ≠ none
  fresh : ∀ id, s.emails.length ≤ id → s.hashes id = none ∧ s.tries id = 0 ∧ s.expired id = false

/-! ## What a phase depends on -/

/-- The two states agree on an id. -/
structure Same (s t : State) (id : MailId) : Prop where
  attempts : t.attempts.filter (fun a => a.id = id) = s.attempts.filter fun a => a.id = id
  hashes : t.hashes id = s.hashes id
  expired : t.expired id = s.expired id
  email : t.emails[id]? = s.emails[id]?

namespace Same

variable {s t : State} {id : MailId}

theorem tries (h : Same s t id) : t.tries id = s.tries id := by
  rw [State.tries, State.tries, List.countP_eq_length_filter, List.countP_eq_length_filter,
    h.attempts]

theorem takes (h : Same s t id) : t.takes id = s.takes id := by
  have hcount : ∀ s : State, s.takes id =
      (s.attempts.filter fun a => a.id = id).countP fun a => a.ok := by
    intro s
    rw [List.countP_filter, State.takes]
    apply List.countP_congr
    intro a _
    simp only [Bool.and_eq_true, decide_eq_true_eq]
    exact and_comm
  rw [hcount, hcount, h.attempts]

theorem forgotten (h : Same s t id) : t.forgotten id = s.forgotten id := by
  rw [State.forgotten, State.forgotten, h.expired]

theorem recorded (h : Same s t id) : t.recorded id = s.recorded id := by
  rw [State.recorded, State.recorded, h.hashes]

theorem waiting (h : Same s t id) {n : Nat} (hw : Waiting s id n) : Waiting t id n := by
  rw [Waiting, h.takes, h.tries, h.forgotten]
  exact hw

theorem waiting_recorded (h : Same s t id) (hw : Waiting s id (s.recorded id)) :
    Waiting t id (t.recorded id) := h.recorded ▸ h.waiting hw

theorem given (h : Same s t id) {data : Hash} (hg : Given s id data) : Given t id data := by
  intro hexpired
  rw [h.email]
  exact hg (h.expired ▸ hexpired)

theorem handles (h : Same s t id) {phase : Phase} (hh : Handles s id phase) :
    Handles t id phase := by
  cases phase with
  | stored =>
    obtain ⟨hw, hexpired, hall⟩ := hh
    refine ⟨h.waiting_recorded hw, h.expired.trans hexpired, ?_⟩
    rw [h.hashes]
    exact hall
  | read data => exact ⟨h.waiting hh.1, h.given hh.2⟩
  | sending data => exact ⟨h.waiting hh.1, h.given hh.2⟩
  | failed data =>
    obtain ⟨htakes, htries, hlimit⟩ := hh
    refine ⟨h.takes.trans htakes, ?_, hlimit⟩
    rw [h.tries, h.forgotten]
    exact htries
  | succeeded => trivial
  | markedSent => trivial
  | expiring => exact h.waiting_recorded hh
  | popped => exact h.waiting_recorded hh
  | counted n => exact h.waiting_recorded hh
  | pending n => exact h.waiting_recorded hh
  | dated n => exact h.waiting_recorded hh
  | delayed n => exact h.waiting_recorded hh

end Same

/-! ## One command -/

theorem hashes_put {s : State} {id : MailId} {hash : Option Hash} :
    (s.put id hash).hashes id = hash := Function.update_self ..

theorem same_put {s : State} {id x : MailId} {hash : Option Hash} (hne : x ≠ id) :
    Same s (s.put id hash) x := ⟨rfl, Function.update_of_ne hne .., rfl, rfl⟩

namespace Inv

variable {s : State} {id : MailId}

/-- Nobody else has the id of a task. -/
theorem alone (h : Inv s) {phase : Phase} (ht : (id, phase) ∈ s.tasks) :
    Inv { s with tasks := s.tasks.erase (id, phase) } ∧
      id ∉ ({ s with tasks := s.tasks.erase (id, phase) } : State).held := by
  have hperm : s.tasks.Perm ((id, phase) :: s.tasks.erase (id, phase)) := List.perm_cons_erase ht
  have hheld : s.held.Perm (id :: (s.queue ++ (s.tasks.erase (id, phase)).map Prod.fst)) :=
    ((hperm.map Prod.fst).append_left s.queue).trans List.perm_middle
  have hnodup := List.nodup_cons.mp (hheld.nodup_iff.mp h.nodup)
  refine ⟨{
    h with
    nodup := hnodup.2
    known := fun x hx => h.known x (hheld.mem_iff.mpr (List.mem_cons_of_mem _ hx))
    tasks := fun t ht => h.tasks t (List.mem_of_mem_erase ht) }, hnodup.1⟩

theorem dies (h : Inv s) (t : MailId × Phase) : Inv { s with tasks := s.tasks.erase t } := by
  by_cases ht : t ∈ s.tasks
  · exact (h.alone ht).1
  · rw [List.erase_of_not_mem ht]
    exact h

theorem task (h : Inv s) (hfree : id ∉ s.held) (hid : id < s.emails.length) {phase : Phase}
    (hphase : Handles s id phase) : Inv (s.task id phase) := by
  have hheld : (s.task id phase).held.Perm (id :: s.held) := List.perm_middle
  exact {
    h with
    nodup := hheld.nodup_iff.mpr (List.nodup_cons.mpr ⟨hfree, h.nodup⟩)
    known := by
      intro x hx
      cases List.mem_cons.mp (hheld.mem_iff.mp hx) with
      | inl heq => exact heq ▸ hid
      | inr hin => exact h.known x hin
    tasks := by
      intro t ht
      cases List.mem_cons.mp ht with
      | inl heq => exact heq ▸ hphase
      | inr hin => exact h.tasks t hin }

theorem push (h : Inv s) (hfree : id ∉ s.held) (hid : id < s.emails.length)
    (hwaiting : Waiting s id (s.recorded id)) : Inv (s.push id) := {
  h with
  nodup := List.nodup_cons.mpr ⟨hfree, h.nodup⟩
  known := by
    intro x hx
    cases List.mem_cons.mp hx with
    | inl heq => exact heq ▸ hid
    | inr hin => exact h.known x hin
  queue := by
    intro x hx
    cases List.mem_cons.mp hx with
    | inl heq => exact heq ▸ hwaiting
    | inr hin => exact h.queue x hin }

/-- A command on what is known of an id that nobody else has. -/
theorem change (h : Inv s) (t : State) (hfree : id ∉ s.held) (hid : id < s.emails.length)
    (hqueue : t.queue = s.queue) (htasks : t.tasks = s.tasks) (hemails : t.emails = s.emails)
    (hother : ∀ x, x ≠ id → Same s t x)
    (hbound : t.tries id ≤ retryLimit + 1 + t.forgotten id)
    (hlast : t.attempts.Pairwise fun later earlier => later.id = earlier.id → earlier.ok = false)
    (hgiven : ∀ a ∈ t.attempts, t.expired a.id = false → a.email = t.emails[a.id]?)
    (hhash : ∀ data ∈ t.hashes id, Given t id data ∧
      (data.expires = true → t.expired id = false))
    (hthere : t.expired id = false → t.hashes id ≠ none) : Inv t := by
  have hheld : t.held = s.held := by rw [State.held, State.held, hqueue, htasks]
  have hne : ∀ x ∈ s.held, x ≠ id := fun x hx heq => hfree (heq ▸ hx)
  exact {
    nodup := hheld ▸ h.nodup
    known := by
      rw [hheld, hemails]
      exact h.known
    queue := by
      rw [hqueue]
      exact fun x hx =>
        (hother x (hne x (List.mem_append_left _ hx))).waiting_recorded (h.queue x hx)
    tasks := by
      rw [htasks]
      exact fun x hx =>
        (hother x.1 (hne x.1 (List.mem_append_right _ (List.mem_map_of_mem hx)))).handles
          (h.tasks x hx)
    bound := by
      intro x
      by_cases hx : x = id
      · exact hx ▸ hbound
      · rw [(hother x hx).tries, (hother x hx).forgotten]
        exact h.bound x
    last := hlast
    given := hgiven
    hash := by
      intro x data hdata
      by_cases hx : x = id
      · subst hx
        exact hhash data hdata
      · rw [(hother x hx).hashes] at hdata
        have hold := h.hash x data hdata
        exact ⟨(hother x hx).given hold.1, (hother x hx).expired ▸ hold.2⟩
    there := by
      intro x hx hexpired
      by_cases heq : x = id
      · subst heq
        exact hthere hexpired
      · rw [(hother x heq).expired] at hexpired
        rw [(hother x heq).hashes]
        exact h.there x (hemails ▸ hx) hexpired
    fresh := by
      intro x hx
      rw [hemails] at hx
      have hne : x ≠ id := fun heq => Nat.not_le.mpr hid (heq ▸ hx)
      rw [(hother x hne).hashes, (hother x hne).tries, (hother x hne).expired]
      exact h.fresh x hx }

theorem hset (h : Inv s) (hfree : id ∉ s.held) (hid : id < s.emails.length) {f : Hash → Hash}
    (hf : ∀ data, (f data).email = data.email ∧ (f data).expires = data.expires) :
    Inv (s.hset id f) := by
  refine h.change (s.put id _) hfree hid rfl rfl rfl (fun _ => same_put) (h.bound id) h.last
    h.given ?_ ?_
  · intro data hdata
    rw [hashes_put, Option.mem_some_iff] at hdata
    subst hdata
    cases hold : s.hashes id with
    | none =>
      have hexpired : s.expired id = true := by
        by_contra hno
        exact h.there id hid (Bool.eq_false_iff.mpr hno) hold
      constructor
      · intro hno
        exact absurd (hexpired.symm.trans hno) (by decide)
      · intro hexpires
        rw [Option.getD_none, (hf _).2] at hexpires
        cases hexpires
    | some old =>
      have hkept := h.hash id old hold
      constructor
      · intro hno
        rw [Option.getD_some, (hf old).1]
        exact hkept.1 hno
      · intro hexpires
        rw [Option.getD_some, (hf old).2] at hexpires
        exact hkept.2 hexpires
  · intro _ hnone
    rw [hashes_put] at hnone
    cases hnone

/-- `EXPIRE` on the hash that was just written. -/
theorem setExpiry (h : Inv s) (hfree : id ∉ s.held) (hid : id < s.emails.length)
    (hexpired : s.expired id = false) : Inv (s.setExpiry id) := by
  unfold State.setExpiry
  split
  · exact h
  · next data hdata =>
    refine h.change (s.put id _) hfree hid rfl rfl rfl (fun _ => same_put) (h.bound id) h.last
      h.given ?_ ?_
    · intro new hnew
      rw [hashes_put, Option.mem_some_iff] at hnew
      subst hnew
      exact ⟨(h.hash id data hdata).1, fun _ => hexpired⟩
    · intro _ hnone
      rw [hashes_put] at hnone
      cases hnone

/-- A call of the provider. -/
theorem attempt (h : Inv s) (hfree : id ∉ s.held) (hid : id < s.emails.length) {data : Hash}
    (hwaiting : Waiting s id data.retries) (hgiven : Given s id data) (ok : Bool) :
    Inv { s with attempts := ⟨id, data.email, ok⟩ :: s.attempts } := by
  obtain ⟨htakes, htries, hlimit⟩ := hwaiting
  refine h.change _ hfree hid rfl rfl rfl ?_ ?_ ?_ ?_ (h.hash id) (h.there id hid)
  · intro x hx
    exact ⟨List.filter_cons_of_neg (by simpa using Ne.symm hx), rfl, rfl, rfl⟩
  · have hone : ({ s with attempts := ⟨id, data.email, ok⟩ :: s.attempts } : State).tries id =
        s.tries id + 1 := by simp [State.tries]
    rw [hone]
    show s.tries id + 1 ≤ retryLimit + 1 + s.forgotten id
    omega
  · refine List.pairwise_cons.mpr ⟨?_, h.last⟩
    intro a ha heq
    have hnot := List.countP_eq_zero.mp htakes a ha
    by_contra hok
    exact hnot (by rw [decide_eq_true heq.symm, Bool.true_and]; exact Bool.not_eq_false _ ▸ hok)
  · intro a ha
    cases List.mem_cons.mp ha with
    | inl heq =>
      subst heq
      exact hgiven
    | inr hin => exact h.given a hin

end Inv

/-! ## The commands of a task -/

section Commands

variable {s : State} {id : MailId}

theorem recorded_hset {f : Hash → Hash} (hf : ∀ data, (f data).retryCount = data.retryCount) :
    (s.hset id f).recorded id = s.recorded id := by
  rw [State.recorded, State.hset, hashes_put, Option.elim_some, Hash.retries, hf, State.recorded]
  cases s.hashes id <;> rfl

theorem recorded_setExpiry : (s.setExpiry id).recorded id = s.recorded id := by
  unfold State.setExpiry
  split
  · rfl
  · next data hdata =>
    rw [State.recorded, hashes_put, State.recorded, hdata]
    rfl

/-- A write that leaves the retries alone. -/
theorem waiting_hset {f : Hash → Hash} (hf : ∀ data, (f data).retryCount = data.retryCount)
    (hw : Waiting s id (s.recorded id)) : Waiting (s.hset id f) id ((s.hset id f).recorded id) := by
  rw [recorded_hset hf]
  exact hw

theorem waiting_setExpiry (hw : Waiting s id (s.recorded id)) :
    Waiting (s.setExpiry id) id ((s.setExpiry id).recorded id) := by
  rw [recorded_setExpiry]
  unfold State.setExpiry
  split <;> exact hw

theorem setExpiry_rest : (s.setExpiry id).held = s.held ∧ (s.setExpiry id).emails = s.emails := by
  unfold State.setExpiry
  split <;> exact ⟨rfl, rfl⟩

end Commands

/-- What a task does next keeps the invariant. -/
theorem Inv.resume {s : State} {id : MailId} (h : Inv s) (hfree : id ∉ s.held)
    (hid : id < s.emails.length) {phase : Phase} (hphase : Handles s id phase) (ok : Bool)
    (now : Time) : Inv (s.resume id ok now phase) := by
  cases phase with
  | stored =>
    obtain ⟨hw, hexpired, -⟩ := hphase
    have hrest : (s.setExpiry id).held = s.held ∧ (s.setExpiry id).emails = s.emails :=
      setExpiry_rest
    refine (h.setExpiry hfree hid hexpired).task ?_ ?_ (waiting_setExpiry hw)
    · rw [hrest.1]
      exact hfree
    · rw [hrest.2]
      exact hid
  | expiring => exact h.push hfree hid hphase
  | popped =>
    unfold State.resume
    cases hdata : s.hashes id with
    | none => exact h
    | some data =>
      have hrecorded : s.recorded id = data.retries := by rw [State.recorded, hdata]; rfl
      exact h.task hfree hid ⟨hrecorded ▸ hphase, (h.hash id data hdata).1⟩
  | read data =>
    refine Inv.task (h.hset hfree hid ?_) hfree hid hphase
    exact fun _ => ⟨rfl, rfl⟩
  | sending data =>
    obtain ⟨hw, hgiven⟩ := hphase
    apply (h.attempt hfree hid hw hgiven ok).task hfree hid
    obtain ⟨htakes, htries, hlimit⟩ := hw
    cases ok with
    | true => trivial
    | false =>
      refine ⟨?_, ?_, hlimit⟩
      · simpa [State.takes] using htakes
      · have hone : ({ s with attempts := ⟨id, data.email, false⟩ :: s.attempts } : State).tries id =
            s.tries id + 1 := by simp [State.tries]
        rw [hone]
        show s.tries id + 1 ≤ data.retries + 1 + s.forgotten id
        omega
  | succeeded =>
    refine Inv.task (h.hset hfree hid ?_) hfree hid trivial
    exact fun _ => ⟨rfl, rfl⟩
  | markedSent =>
    show Inv (s.hset id fun data => { data with sentAt := some now })
    refine h.hset hfree hid ?_
    exact fun _ => ⟨rfl, rfl⟩
  | failed data =>
    obtain ⟨htakes, htries, hlimit⟩ := hphase
    unfold State.resume
    dsimp only
    split
    · next hagain =>
      refine Inv.task (h.hset hfree hid ?_) hfree hid ?_
      · exact fun _ => ⟨rfl, rfl⟩
      have hrecorded : ((s.hset id fun old =>
          { old with retryCount := some (data.retries + 1) }).recorded id) = data.retries + 1 := by
        rw [State.recorded, State.hset, hashes_put]
        rfl
      show Waiting _ id _
      rw [hrecorded]
      exact ⟨htakes, htries, hagain⟩
    · refine Inv.hset h hfree hid ?_
      exact fun _ => ⟨rfl, rfl⟩
  | counted n =>
    refine Inv.task (h.hset hfree hid ?_) hfree hid (waiting_hset (fun _ => rfl) hphase)
    exact fun _ => ⟨rfl, rfl⟩
  | pending n =>
    refine Inv.task (h.hset hfree hid ?_) hfree hid (waiting_hset (fun _ => rfl) hphase)
    exact fun _ => ⟨rfl, rfl⟩
  | dated n => exact h.task hfree hid hphase
  | delayed n => exact h.push hfree hid hphase

/-! ## Runs -/

theorem Inv.empty : Inv .empty where
  nodup := List.nodup_nil
  known := fun x hx => absurd hx List.not_mem_nil
  queue := fun x hx => absurd hx List.not_mem_nil
  tasks := fun t ht => absurd ht List.not_mem_nil
  bound := fun _ => Nat.zero_le _
  last := .nil
  given := fun a ha => absurd ha List.not_mem_nil
  hash := fun _ data hdata => by cases hdata
  there := fun _ hx => absurd hx (Nat.not_lt_zero _)
  fresh := fun _ _ => ⟨rfl, rfl, rfl⟩

/-- The state with the hash of a new mail. -/
def State.create (s : State) (email : Email) (now : Time) : State :=
  { s with emails := s.emails ++ [email] }.hset s.emails.length fun _ =>
    { email := some email, createdAt := some now, status := some .pending, retryCount := some 0 }

theorem hashes_create {s : State} {email : Email} {now : Time} :
    (s.create email now).hashes s.emails.length = some
      { email := some email, createdAt := some now, status := some .pending,
        retryCount := some 0 } := hashes_put

/-- A new mail leaves the others alone. -/
theorem same_create {s : State} {email : Email} {now : Time} {x : MailId}
    (hx : x ≠ s.emails.length) : Same s (s.create email now) x := by
  refine ⟨rfl, Function.update_of_ne hx .., rfl, ?_⟩
  show (s.emails ++ [email])[x]? = s.emails[x]?
  cases Nat.lt_or_gt_of_ne hx with
  | inl hlt => exact List.getElem?_append_left hlt
  | inr hgt =>
    rw [List.getElem?_append_right (Nat.le_of_lt hgt), List.getElem?_eq_none (by simp; omega),
      List.getElem?_eq_none (Nat.le_of_lt hgt)]

theorem Inv.enqueue {s : State} (h : Inv s) (email : Email) (now : Time) :
    Inv (s.after (.enqueue email now)) := by
  have hfresh := h.fresh s.emails.length (Nat.le_refl _)
  have hfree : s.emails.length ∉ s.held := fun hin => absurd (h.known _ hin) (Nat.lt_irrefl _)
  have hne : ∀ x, x < s.emails.length → x ≠ s.emails.length := fun x hx => Nat.ne_of_lt hx
  have hnew : (s.emails ++ [email])[s.emails.length]? = some email := by simp
  let t : State := s.create email now
  have hother : ∀ x, x ≠ s.emails.length → Same s t x := fun x hx => same_create hx
  have hlength : t.emails.length = s.emails.length + 1 := by
    simp [t, State.create, State.hset, State.put]
  have ht : Inv t := {
    nodup := h.nodup
    known := by
      intro x hx
      have hlt := h.known x hx
      rw [hlength]
      exact Nat.lt_succ_of_lt hlt
    queue := fun x hx =>
      (hother x (hne x (h.known x (List.mem_append_left _ hx)))).waiting_recorded (h.queue x hx)
    tasks := fun x hx =>
      (hother x.1 (hne x.1 (h.known x.1
        (List.mem_append_right _ (List.mem_map_of_mem hx))))).handles (h.tasks x hx)
    bound := h.bound
    last := h.last
    given := by
      intro a ha hexpired
      have hlt : a.id < s.emails.length := by
        by_contra hge
        have hzero := (h.fresh a.id (Nat.le_of_not_lt hge)).2.1
        exact List.countP_eq_zero.mp hzero a ha (decide_eq_true rfl)
      rw [(hother a.id (hne _ hlt)).email]
      exact h.given a ha hexpired
    hash := by
      intro x data hdata
      by_cases hx : x = s.emails.length
      · subst hx
        have hdata' := hashes_create.symm.trans hdata
        obtain rfl := Option.some.inj hdata'
        exact ⟨fun _ => hnew.symm, fun hexpires => by cases hexpires⟩
      · rw [(hother x hx).hashes] at hdata
        have hold := h.hash x data hdata
        exact ⟨(hother x hx).given hold.1, hold.2⟩
    there := by
      intro x hx hexpired
      by_cases heq : x = s.emails.length
      · subst heq
        intro hnone
        have hsome := hashes_create.symm.trans hnone
        cases hsome
      · rw [(hother x heq).hashes]
        rw [hlength] at hx
        exact h.there x (Nat.lt_of_le_of_ne (Nat.le_of_lt_succ hx) heq) hexpired
    fresh := by
      intro x hx
      rw [hlength] at hx
      rw [(hother x (Nat.ne_of_gt hx)).hashes]
      exact h.fresh x (Nat.le_of_succ_le hx) }
  apply ht.task hfree (by rw [hlength]; exact Nat.lt_succ_self _)
  have hrecorded : t.recorded s.emails.length = 0 := by
    rw [State.recorded, hashes_create]
    rfl
  refine ⟨⟨?_, ?_, ?_⟩, hfresh.2.2, ?_⟩
  · have hzero := List.countP_eq_zero.mp hfresh.2.1
    exact List.countP_eq_zero.mpr fun a ha hboth => hzero a ha ((Bool.and_eq_true _ _).mp hboth).1
  · have hzero : t.tries s.emails.length = 0 := hfresh.2.1
    omega
  · omega
  · intro data hdata
    have hdata' := hashes_create.symm.trans hdata
    obtain rfl := Option.some.inj hdata'
    rfl

theorem Inv.pop {s : State} (h : Inv s) : Inv (s.after .pop) := by
  unfold State.after
  cases hpop : rpop s.queue with
  | none => exact h
  | some popped =>
    obtain ⟨id, rest⟩ := popped
    have hqueue : s.queue = rest ++ [id] := rpop_eq_some.mp hpop
    have hheld : s.held.Perm (id :: (rest ++ s.tasks.map Prod.fst)) := by
      rw [State.held, hqueue, List.append_assoc]
      exact List.perm_middle
    have hnodup := List.nodup_cons.mp (hheld.nodup_iff.mp h.nodup)
    have hin : id ∈ s.queue := by
      rw [hqueue]
      exact List.mem_append_right _ List.mem_cons_self
    have hrest : Inv { s with queue := rest } := {
      h with
      nodup := hnodup.2
      known := fun x hx => h.known x (hheld.mem_iff.mpr (List.mem_cons_of_mem _ hx))
      queue := fun x hx => h.queue x (hqueue ▸ List.mem_append_left _ hx) }
    exact hrest.task hnodup.1 (h.known id (List.mem_append_left _ hin)) (h.queue id hin)

/-! ### Expiry -/

/-- The state without a hash that has expired. -/
def State.without (s : State) (id : MailId) : State :=
  { s.put id none with expired := Function.update s.expired id true }

theorem State.expire_cases (s : State) (id : MailId) :
    s.after (.expire id) = s ∨ ∃ data, s.hashes id = some data ∧ data.expires = true ∧
      s.after (.expire id) = s.without id := by
  cases hdata : s.hashes id with
  | none => exact Or.inl (by simp [State.after, hdata])
  | some data =>
    cases hexpires : data.expires with
    | false => exact Or.inl (by simp [State.after, hdata, hexpires])
    | true =>
      exact Or.inr ⟨data, rfl, hexpires, by simp [State.after, State.without, hdata, hexpires]⟩

section Without

variable {s : State} {id : MailId}

theorem hashes_without : (s.without id).hashes id = none := hashes_put

theorem expired_without : (s.without id).expired id = true := Function.update_self ..

theorem same_without {x : MailId} (hne : x ≠ id) : Same s (s.without id) x :=
  ⟨rfl, Function.update_of_ne hne .., Function.update_of_ne hne .., rfl⟩

theorem forgotten_without : (s.without id).forgotten id = retryLimit := by
  rw [State.forgotten, expired_without, if_pos rfl]

theorem given_without (data : Hash) : Given (s.without id) id data := by
  intro hno
  rw [expired_without] at hno
  cases hno

/-- Every attempt before the expiry was counted, and may be forgotten now. -/
theorem waiting_without {n m : Nat} (hbefore : s.expired id = false) (hw : Waiting s id n)
    (hm : m ≤ retryLimit) : Waiting (s.without id) id m := by
  obtain ⟨htakes, htries, hlimit⟩ := hw
  rw [State.forgotten, hbefore, if_neg Bool.false_ne_true] at htries
  refine ⟨htakes, ?_, hm⟩
  have hsame : (s.without id).tries id = s.tries id := rfl
  rw [hsame, forgotten_without]
  omega

theorem recorded_without : (s.without id).recorded id = 0 := by
  rw [State.recorded, hashes_without]
  rfl

theorem handles_without {data : Hash} (hdata : s.hashes id = some data)
    (hexpires : data.expires = true) (hbefore : s.expired id = false) {phase : Phase}
    (hphase : Handles s id phase) : Handles (s.without id) id phase := by
  have hqueued : ∀ {n}, Waiting s id n →
      Waiting (s.without id) id ((s.without id).recorded id) := by
    intro n hw
    rw [recorded_without]
    exact waiting_without hbefore hw (Nat.zero_le _)
  cases phase with
  | stored =>
    have hno := hphase.2.2 data hdata
    rw [hexpires] at hno
    cases hno
  | read d => exact ⟨waiting_without hbefore hphase.1 hphase.1.2.2, given_without d⟩
  | sending d => exact ⟨waiting_without hbefore hphase.1 hphase.1.2.2, given_without d⟩
  | failed d =>
    obtain ⟨htakes, htries, hlimit⟩ := hphase
    rw [State.forgotten, hbefore, if_neg Bool.false_ne_true] at htries
    exact ⟨htakes, Nat.le_trans htries (Nat.le_add_right _ _), hlimit⟩
  | succeeded => trivial
  | markedSent => trivial
  | expiring => exact hqueued hphase
  | popped => exact hqueued hphase
  | counted n => exact hqueued hphase
  | pending n => exact hqueued hphase
  | dated n => exact hqueued hphase
  | delayed n => exact hqueued hphase

end Without

/-- A hash expires, whoever has the id. -/
theorem Inv.expire {s : State} (h : Inv s) (id : MailId) : Inv (s.after (.expire id)) := by
  obtain heq | hsome := s.expire_cases id
  · rw [heq]
    exact h
  obtain ⟨data, hdata, hexpires, hafter⟩ := hsome
  rw [hafter]
  have hbefore := (h.hash id data hdata).2 hexpires
  exact {
    nodup := h.nodup
    known := h.known
    last := h.last
    queue := by
      intro x hx
      by_cases heq : x = id
      · subst heq
        rw [recorded_without]
        exact waiting_without hbefore (h.queue x hx) (Nat.zero_le _)
      · exact (same_without heq).waiting_recorded (h.queue x hx)
    tasks := by
      intro t ht
      by_cases heq : t.1 = id
      · subst heq
        exact handles_without hdata hexpires hbefore (h.tasks t ht)
      · exact (same_without heq).handles (h.tasks t ht)
    bound := by
      intro x
      by_cases heq : x = id
      · subst heq
        have hbound := h.bound x
        rw [State.forgotten, hbefore, if_neg Bool.false_ne_true] at hbound
        exact Nat.le_trans hbound (Nat.le_add_right _ _)
      · rw [(same_without heq).tries, (same_without heq).forgotten]
        exact h.bound x
    given := by
      intro a ha hno
      by_cases heq : a.id = id
      · rw [heq, expired_without] at hno
        cases hno
      · exact h.given a ha ((same_without heq).expired ▸ hno)
    hash := by
      intro x d hd
      by_cases heq : x = id
      · subst heq
        rw [hashes_without] at hd
        cases hd
      · rw [(same_without heq).hashes] at hd
        have hkept := h.hash x d hd
        exact ⟨(same_without heq).given hkept.1,
          fun hd => (same_without heq).expired.trans (hkept.2 hd)⟩
    there := by
      intro x hx hno
      by_cases heq : x = id
      · subst heq
        rw [expired_without] at hno
        cases hno
      · rw [(same_without heq).hashes]
        exact h.there x hx ((same_without heq).expired ▸ hno)
    fresh := by
      intro x hx
      have hne : x ≠ id := by
        intro heq
        have hnone := (h.fresh x hx).1
        rw [heq, hdata] at hnone
        cases hnone
      rw [(same_without hne).hashes, (same_without hne).tries, (same_without hne).expired]
      exact h.fresh x hx }

theorem Inv.after {s : State} (h : Inv s) (e : Event) : Inv (s.after e) := by
  cases e with
  | enqueue email now => exact h.enqueue email now
  | pop => exact h.pop
  | resume id phase ok now =>
    unfold State.after
    dsimp only
    split
    · next hin =>
      have hid := h.known id (List.mem_append_right _ (List.mem_map_of_mem hin))
      exact (h.alone hin).1.resume (h.alone hin).2 hid (h.tasks _ hin) ok now
    · exact h
  | dies id phase => exact h.dies (id, phase)
  | expire id => exact h.expire id

theorem Inv.run (events : List Event) : Inv (.run events) := by
  have hfold : ∀ s, Inv s → Inv (events.foldl State.after s) := by
    induction events with
    | nil => exact fun _ h => h
    | cons e rest ih => exact fun s h => ih _ (h.after e)
  exact hfold _ .empty

/-- Whatever tasks do and end, however many workers there are and whatever expires: an id is
in one place at most, no attempt follows one that the provider took, there are at most four
attempts for a mail, or seven if its hash has expired, and what is sent is what was enqueued,
unless the hash has expired. -/
theorem mail_attempts (events : List Event) :
    (State.run events).held.Nodup ∧
      ((State.run events).attempts.Pairwise fun later earlier =>
        later.id = earlier.id → earlier.ok = false) ∧
      (∀ id, (State.run events).tries id ≤ if (State.run events).expired id then 7 else 4) ∧
      ∀ a ∈ (State.run events).attempts, (State.run events).expired a.id = false →
        a.email = (State.run events).emails[a.id]? := by
  have h := Inv.run events
  refine ⟨h.nodup, h.last, ?_, h.given⟩
  intro id
  have hbound := h.bound id
  rw [State.forgotten, retryLimit] at hbound
  split <;> simp_all

end Soms.Mail

/-!
## What the hash of a mail tells

The status and the count of a hash can be relied on in every run.  If no task ends early and no
hash expires, every mail is on its way, or its status says how it ended.
-/

namespace Soms.Mail

open RedisList

/-- The hash of a mail tells the truth. -/
def Record (s : State) (id : MailId) : Prop :=
  s.recorded id ≤ s.tries id ∧ ∀ data ∈ s.hashes id,
    (data.status = some .sent → s.takes id = 1) ∧
      (data.status = some .failed → s.takes id = 0 ∧ retryLimit + 1 ≤ s.tries id)

/-- The mail has not been given up. -/
def Open (s : State) (id : MailId) : Prop := ∀ data ∈ s.hashes id, data.status ≠ some .failed

/-- What a task knows of the attempts. -/
def Knows (s : State) (id : MailId) : Phase → Prop
  | .read data => data.retries ≤ s.tries id
  | .sending data => data.retries ≤ s.tries id
  | .failed data => data.retries + 1 ≤ s.tries id
  | .succeeded => s.takes id = 1
  | .markedSent => s.takes id = 1
  | _ => True

structure Told (s : State) : Prop where
  record : ∀ id, Record s id
  held : ∀ id ∈ s.held, Open s id
  tasks : ∀ t ∈ s.tasks, Knows s t.1 t.2

namespace Same

variable {s t : State} {id : MailId}

theorem record (h : Same s t id) (hr : Record s id) : Record t id := by
  rw [Record, h.recorded, h.tries, h.hashes, h.takes]
  exact hr

theorem isOpen (h : Same s t id) (ho : Open s id) : Open t id := by
  rw [Open, h.hashes]
  exact ho

theorem knows (h : Same s t id) {phase : Phase} (hk : Knows s id phase) : Knows t id phase := by
  cases phase with
  | read data => exact Nat.le_trans hk (Nat.le_of_eq h.tries.symm)
  | sending data => exact Nat.le_trans hk (Nat.le_of_eq h.tries.symm)
  | failed data => exact Nat.le_trans hk (Nat.le_of_eq h.tries.symm)
  | succeeded => exact h.takes.trans hk
  | markedSent => exact h.takes.trans hk
  | _ => trivial

end Same

namespace Told

variable {s : State} {id : MailId}

/-- A task ends, or is about to go on. -/
theorem dies (h : Told s) (t : MailId × Phase) : Told { s with tasks := s.tasks.erase t } where
  record := h.record
  held := by
    intro x hx
    apply h.held x
    cases List.mem_append.mp hx with
    | inl hin => exact List.mem_append_left _ hin
    | inr hin =>
      obtain ⟨u, hu, heq⟩ := List.mem_map.mp hin
      exact List.mem_append_right _ (heq ▸ List.mem_map_of_mem (List.mem_of_mem_erase hu))
  tasks := fun u hu => h.tasks u (List.mem_of_mem_erase hu)

theorem task (h : Told s) (ho : Open s id) {phase : Phase} (hk : Knows s id phase) :
    Told (s.task id phase) where
  record := h.record
  held := by
    intro x hx
    have hperm : (s.task id phase).held.Perm (id :: s.held) := List.perm_middle
    cases List.mem_cons.mp (hperm.mem_iff.mp hx) with
    | inl heq => exact heq ▸ ho
    | inr hin => exact h.held x hin
  tasks := by
    intro u hu
    cases List.mem_cons.mp hu with
    | inl heq => exact heq ▸ hk
    | inr hin => exact h.tasks u hin

theorem push (h : Told s) (ho : Open s id) : Told (s.push id) where
  record := h.record
  held := by
    intro x hx
    cases List.mem_cons.mp hx with
    | inl heq => exact heq ▸ ho
    | inr hin => exact h.held x hin
  tasks := h.tasks

/-- A command on what is known of an id that nobody else has. -/
theorem change (h : Told s) (t : State) (hfree : id ∉ s.held) (hqueue : t.queue = s.queue)
    (htasks : t.tasks = s.tasks) (hother : ∀ x, x ≠ id → Same s t x) (hrecord : Record t id) :
    Told t := by
  have hheld : t.held = s.held := by rw [State.held, State.held, hqueue, htasks]
  have hne : ∀ x ∈ s.held, x ≠ id := fun x hx heq => hfree (heq ▸ hx)
  exact {
    record := by
      intro x
      by_cases hx : x = id
      · exact hx ▸ hrecord
      · exact (hother x hx).record (h.record x)
    held := by
      rw [hheld]
      exact fun x hx => (hother x (hne x hx)).isOpen (h.held x hx)
    tasks := by
      rw [htasks]
      exact fun u hu => (hother u.1 (hne u.1
        (List.mem_append_right _ (List.mem_map_of_mem hu)))).knows (h.tasks u hu) }

/-- What a write says must be true. -/
theorem put (h : Told s) (hfree : id ∉ s.held) {data : Hash} (hretries : data.retries ≤ s.tries id)
    (hsent : data.status = some .sent → s.takes id = 1)
    (hfailed : data.status = some .failed → s.takes id = 0 ∧ retryLimit + 1 ≤ s.tries id) :
    Told (s.put id (some data)) := by
  refine h.change (s.put id (some data)) hfree rfl rfl (fun _ => same_put) ?_
  constructor
  · rw [State.recorded, hashes_put]
    exact hretries
  · intro new hnew
    rw [hashes_put] at hnew
    obtain rfl := Option.some.inj hnew
    exact ⟨hsent, hfailed⟩

end Told

section Writes

variable {s : State} {id : MailId}

/-- The hash that a write starts from. -/
theorem record_getD (h : Record s id) :
    ((s.hashes id).getD {}).retries ≤ s.tries id ∧
      (((s.hashes id).getD {}).status = some .sent → s.takes id = 1) ∧
      (((s.hashes id).getD {}).status = some .failed →
        s.takes id = 0 ∧ retryLimit + 1 ≤ s.tries id) := by
  obtain ⟨hrecorded, hall⟩ := h
  cases hdata : s.hashes id with
  | none => exact ⟨Nat.zero_le _, (by intro hno; cases hno), (by intro hno; cases hno)⟩
  | some data =>
    rw [State.recorded, hdata] at hrecorded
    exact ⟨hrecorded, hall data hdata⟩

theorem open_getD (h : Open s id) : ((s.hashes id).getD {}).status ≠ some .failed := by
  cases hdata : s.hashes id with
  | none => exact fun h => by cases h
  | some data => exact h data hdata

theorem open_put {data : Hash} (h : data.status ≠ some .failed) :
    Open (s.put id (some data)) id := by
  intro new hnew
  rw [hashes_put] at hnew
  obtain rfl := Option.some.inj hnew
  exact h

end Writes

/-- A write of a task that goes on. -/
theorem Told.write {s : State} {id : MailId} (h : Told s) (hfree : id ∉ s.held) {data : Hash}
    {phase : Phase} (hretries : data.retries ≤ s.tries id)
    (hsent : data.status = some .sent → s.takes id = 1) (hopen : data.status ≠ some .failed)
    (hk : Knows s id phase) : Told ((s.put id (some data)).task id phase) :=
  (h.put hfree hretries hsent fun hfailed => absurd hfailed hopen).task (open_put hopen) hk

/-- What a task does next leaves the truth. -/
theorem Told.resume {s : State} {id : MailId} (h : Told s) (hfree : id ∉ s.held) {phase : Phase}
    (hphase : Handles s id phase) (ho : Open s id) (hk : Knows s id phase) (ok : Bool)
    (now : Time) : Told (s.resume id ok now phase) := by
  obtain ⟨hretries, hsent, hfailed⟩ := record_getD (h.record id)
  cases phase with
  | stored =>
    unfold State.resume State.setExpiry
    dsimp only
    cases hdata : s.hashes id with
    | none => exact h.task ho trivial
    | some data =>
      rw [hdata] at hretries hsent
      refine Told.write h hfree ?_ ?_ (ho data hdata) trivial
      · exact hretries
      · exact hsent
  | expiring => exact h.push ho
  | popped =>
    unfold State.resume
    cases hdata : s.hashes id with
    | none => exact h
    | some data =>
      rw [hdata] at hretries
      exact h.task ho hretries
  | read data =>
    refine Told.write h hfree ?_ (fun hno => by cases hno) (fun hno => by cases hno) hk
    exact hretries
  | sending data =>
    obtain ⟨⟨htakes, htries, hlimit⟩, -⟩ := hphase
    have htries' : ({ s with attempts := ⟨id, data.email, ok⟩ :: s.attempts } : State).tries id =
        s.tries id + 1 := by simp [State.tries]
    have htakes' : ({ s with attempts := ⟨id, data.email, ok⟩ :: s.attempts } : State).takes id =
        if ok then 1 else 0 := by
      have hzero : s.attempts.countP (fun a => a.id = id && a.ok) = 0 := htakes
      cases ok <;> simp [State.takes, hzero]
    have hold : ∀ old ∈ s.hashes id, old.status ≠ some .sent := by
      intro old hold hstatus
      have hone := ((h.record id).2 old hold).1 hstatus
      omega
    have hnew : Told { s with attempts := ⟨id, data.email, ok⟩ :: s.attempts } := by
      refine h.change _ hfree rfl rfl ?_ ?_
      · intro x hx
        exact ⟨List.filter_cons_of_neg (by simpa using Ne.symm hx), rfl, rfl, rfl⟩
      · constructor
        · rw [htries']
          exact Nat.le_succ_of_le (h.record id).1
        · intro old hin
          exact ⟨fun hstatus => absurd hstatus (hold old hin),
            fun hstatus => absurd hstatus (ho old hin)⟩
    apply hnew.task ho
    cases ok with
    | true => exact htakes'
    | false =>
      show data.retries + 1 ≤ _
      rw [htries']
      exact Nat.succ_le_succ hk
  | succeeded =>
    refine Told.write h hfree ?_ (fun _ => hk) (fun hno => by cases hno) hk
    exact hretries
  | markedSent =>
    refine Told.put h hfree ?_ ?_ ?_
    · exact hretries
    · exact hsent
    · exact hfailed
  | failed data =>
    obtain ⟨htakes, htries, hlimit⟩ := hphase
    have hopen := open_getD ho
    unfold State.resume
    dsimp only
    split
    · refine Told.write h hfree ?_ ?_ hopen trivial
      · exact hk
      · exact hsent
    · next hover =>
      refine Told.put h hfree ?_ (fun hno => by cases hno) ?_
      · exact hretries
      · have hk' : data.retries + 1 ≤ s.tries id := hk
        exact fun _ => ⟨htakes, by omega⟩
  | counted n =>
    refine Told.write h hfree ?_ (fun hno => by cases hno) (fun hno => by cases hno) trivial
    exact hretries
  | pending n =>
    refine Told.write h hfree ?_ ?_ (open_getD ho) trivial
    · exact hretries
    · exact hsent
  | dated n => exact h.task ho trivial
  | delayed n => exact h.push ho

/-! ## Runs -/

theorem Told.empty : Told .empty where
  record := fun _ => ⟨Nat.le_refl _, fun data hdata => by cases hdata⟩
  held := fun x hx => absurd hx List.not_mem_nil
  tasks := fun _ ht => absurd ht List.not_mem_nil

theorem Told.enqueue {s : State} (hs : Inv s) (h : Told s) (email : Email) (now : Time) :
    Told (s.after (.enqueue email now)) := by
  have hfree : s.emails.length ∉ s.held := fun hin => absurd (hs.known _ hin) (Nat.lt_irrefl _)
  let t : State := s.create email now
  have hnew : ∀ data ∈ t.hashes s.emails.length, data.status = some .pending := by
    intro data hdata
    have hdata' := hashes_create.symm.trans hdata
    obtain rfl := Option.some.inj hdata'
    rfl
  have hrecord : Record t s.emails.length := by
    constructor
    · have hzero : t.recorded s.emails.length = 0 := by
        rw [State.recorded, hashes_create]
        rfl
      omega
    · intro data hdata
      have hpending := hnew data hdata
      constructor
      · intro hsent
        cases hpending.symm.trans hsent
      · intro hfailed
        cases hpending.symm.trans hfailed
  have ht : Told t := h.change t hfree rfl rfl (fun _ hx => same_create hx) hrecord
  refine ht.task ?_ trivial
  intro data hdata hno
  cases (hnew data hdata).symm.trans hno

theorem Told.pop {s : State} (h : Told s) : Told (s.after .pop) := by
  unfold State.after
  cases hpop : rpop s.queue with
  | none => exact h
  | some popped =>
    obtain ⟨id, rest⟩ := popped
    have hqueue : s.queue = rest ++ [id] := rpop_eq_some.mp hpop
    have hin : ∀ x, x ∈ rest ∨ x = id → x ∈ s.queue := by
      intro x hx
      rw [hqueue, List.mem_append, List.mem_singleton]
      exact hx
    have hrest : Told { s with queue := rest } := {
      h with
      held := by
        intro x hx
        apply h.held x
        cases List.mem_append.mp hx with
        | inl hleft => exact List.mem_append_left _ (hin x (Or.inl hleft))
        | inr hright => exact List.mem_append_right _ hright }
    exact hrest.task (h.held id (List.mem_append_left _ (hin id (Or.inr rfl)))) trivial

theorem Told.expire {s : State} (h : Told s) (id : MailId) : Told (s.after (.expire id)) := by
  obtain heq | hsome := s.expire_cases id
  · rw [heq]
    exact h
  obtain ⟨_, -, -, hafter⟩ := hsome
  rw [hafter]
  exact {
    record := by
      intro x
      by_cases heq : x = id
      · subst heq
        constructor
        · rw [recorded_without]
          exact Nat.zero_le _
        · intro data hdata
          rw [hashes_without] at hdata
          cases hdata
      · exact (same_without heq).record (h.record x)
    held := by
      intro x hx
      by_cases heq : x = id
      · subst heq
        intro data hdata
        rw [hashes_without] at hdata
        cases hdata
      · exact (same_without heq).isOpen (h.held x hx)
    tasks := by
      -- The attempts are as they were, and a task knows nothing else.
      intro t ht
      have hknows := h.tasks t ht
      cases hphase : t.2 <;> rw [hphase] at hknows <;> exact hknows }

theorem Told.after {s : State} (hs : Inv s) (h : Told s) (e : Event) : Told (s.after e) := by
  cases e with
  | enqueue email now => exact h.enqueue hs email now
  | pop => exact h.pop
  | resume id phase ok now =>
    unfold State.after
    dsimp only
    split
    · next hin =>
      have hopen := h.held id (List.mem_append_right _ (List.mem_map_of_mem hin))
      exact (h.dies (id, phase)).resume (hs.alone hin).2 (hs.tasks _ hin) hopen (h.tasks _ hin) ok
        now
    · exact h
  | dies id phase => exact h.dies (id, phase)
  | expire id => exact h.expire id

theorem Told.run (events : List Event) : Told (.run events) := by
  have hfold : ∀ s, Inv s → Told s → Told (events.foldl State.after s) := by
    induction events with
    | nil => exact fun _ _ h => h
    | cons e rest ih => exact fun s hs h => ih _ (hs.after e) (h.after hs e)
  exact hfold _ .empty .empty

/-- Whatever tasks do and end and whatever expires, a hash that says that its mail was sent belongs
to a mail that the provider took once, one that says that it failed to a mail that it never took
in four attempts at least, and no hash counts more retries than there were attempts. -/
theorem mail_status (events : List Event) (id : MailId) :
    ∀ data ∈ (State.run events).hashes id,
      (data.status = some .sent → (State.run events).takes id = 1) ∧
        (data.status = some .failed →
          (State.run events).takes id = 0 ∧ 4 ≤ (State.run events).tries id) ∧
        data.retries ≤ (State.run events).tries id := by
  intro data hdata
  obtain ⟨hretries, hall⟩ := (Told.run events).record id
  rw [State.recorded, hdata] at hretries
  exact ⟨(hall data hdata).1, (hall data hdata).2, hretries⟩

def sampleEmail : Email := ⟨"a@b.c", "Verify", "Code: 12345678", "", "\x7b\x7d"⟩

def sampleHash : Hash := ⟨some sampleEmail, some 7, some .pending, some 0, none, none, true⟩

def takenEvents : List Event := [
  .enqueue sampleEmail 7, .resume 0 .stored true 7, .resume 0 .expiring true 7, .pop,
  .resume 0 .popped true 8, .resume 0 (.read sampleHash) true 8,
  .resume 0 (.sending sampleHash) true 9, .resume 0 .succeeded true 9]

theorem mail_status_taken : (State.run takenEvents).takes 0 = 1 :=
  (mail_status takenEvents 0 { sampleHash with status := some .sent } (by decide)).1 rfl

/-! ## Runs without faults -/

/-- No task ends early, and no hash expires. -/
def Event.isSound : Event → Bool
  | .dies .. => false
  | .expire _ => false
  | _ => true

/-- The status of a mail says how it ended. -/
def Ended (s : State) (id : MailId) : Prop :=
  ∃ data, s.hashes id = some data ∧ (data.status = some .sent ∨ data.status = some .failed)

/-- Nothing is lost, an id perhaps apart. -/
structure Kept (s : State) (apart : Option MailId) : Prop where
  kept : ∀ id < s.emails.length, some id ≠ apart → id ∈ s.held ∨ Ended s id
  marked : ∀ t ∈ s.tasks, t.2 = .markedSent → Ended s t.1
  expired : ∀ id, s.expired id = false

theorem Same.ended {s t : State} {id : MailId} (h : Same s t id) (he : Ended s id) :
    Ended t id := by
  rw [Ended, h.hashes]
  exact he

theorem ended_put {s : State} {id : MailId} {data : Hash}
    (h : data.status = some .sent ∨ data.status = some .failed) :
    Ended (s.put id (some data)) id := ⟨data, hashes_put, h⟩

namespace Kept

variable {s : State} {id : MailId}

/-- The id of a task that goes on. -/
theorem apart (h : Kept s none) (phase : Phase) :
    Kept { s with tasks := s.tasks.erase (id, phase) } (some id) where
  kept := by
    intro x hx hne
    cases h.kept x hx (by simp) with
    | inr hended => exact Or.inr hended
    | inl hin =>
      left
      cases List.mem_append.mp hin with
      | inl hqueue => exact List.mem_append_left _ hqueue
      | inr htask =>
        obtain ⟨t, ht, rfl⟩ := List.mem_map.mp htask
        have hother : t ≠ (id, phase) := fun heq => hne (by rw [heq])
        exact List.mem_append_right _
          (List.mem_map_of_mem ((List.mem_erase_of_ne hother).mpr ht))
  marked := fun t ht => h.marked t (List.mem_of_mem_erase ht)
  expired := h.expired

/-- A command of the task that has the id apart, which ends. -/
theorem put (h : Kept s (some id)) (hfree : id ∉ s.held) (data : Hash) :
    Kept (s.put id (some data)) (some id) where
  kept := by
    intro x hx hne
    have hother : x ≠ id := fun heq => hne (congrArg some heq)
    exact (h.kept x hx hne).imp_right (same_put hother).ended
  marked := by
    intro t ht hmarked
    have hother : t.1 ≠ id := by
      intro heq
      exact hfree (heq ▸ List.mem_append_right _ (List.mem_map_of_mem ht))
    exact (same_put hother).ended (h.marked t ht hmarked)
  expired := h.expired

theorem ends (h : Kept s (some id)) (he : Ended s id) : Kept s none := {
  h with
  kept := by
    intro x hx _
    by_cases heq : x = id
    · exact Or.inr (heq ▸ he)
    · exact h.kept x hx fun hsome => heq (Option.some.inj hsome) }

theorem task (h : Kept s (some id)) {phase : Phase} (hmarked : phase = .markedSent → Ended s id) :
    Kept (s.task id phase) none := {
  h with
  kept := by
    intro x hx _
    have hperm : (s.task id phase).held.Perm (id :: s.held) := List.perm_middle
    by_cases heq : x = id
    · exact Or.inl (hperm.mem_iff.mpr (heq ▸ List.mem_cons_self))
    · have hx' := h.kept x hx fun hsome => heq (Option.some.inj hsome)
      exact hx'.imp_left fun hin => hperm.mem_iff.mpr (List.mem_cons_of_mem _ hin)
  marked := by
    intro t ht hphase
    cases List.mem_cons.mp ht with
    | inl heq =>
      subst heq
      exact hmarked hphase
    | inr hin => exact h.marked t hin hphase }

theorem push (h : Kept s (some id)) : Kept (s.push id) none := {
  h with
  kept := by
    intro x hx _
    by_cases heq : x = id
    · exact Or.inl (heq ▸ List.mem_cons_self)
    · have hx' := h.kept x hx fun hsome => heq (Option.some.inj hsome)
      exact hx'.imp_left fun hin => List.mem_cons_of_mem _ hin }

/-- A write of a task that goes on. -/
theorem write (h : Kept s (some id)) (hfree : id ∉ s.held) {data : Hash} {phase : Phase}
    (hmarked : phase = .markedSent → data.status = some .sent) :
    Kept ((s.put id (some data)).task id phase) none :=
  (h.put hfree data).task fun hphase => ended_put (Or.inl (hmarked hphase))

theorem resume (hs : Inv s) (h : Kept s (some id)) (hfree : id ∉ s.held)
    (hid : id < s.emails.length) {phase : Phase} (hmarked : phase = .markedSent → Ended s id)
    (ok : Bool) (now : Time) : Kept (s.resume id ok now phase) none := by
  have hthere : s.hashes id ≠ none := hs.there id hid (h.expired id)
  cases phase with
  | stored =>
    unfold State.resume State.setExpiry
    dsimp only
    cases hdata : s.hashes id with
    | none => exact absurd hdata hthere
    | some data => exact h.write hfree fun hno => by cases hno
  | expiring => exact h.push
  | popped =>
    unfold State.resume
    cases hdata : s.hashes id with
    | none => exact absurd hdata hthere
    | some data => exact h.task fun hno => by cases hno
  | read data => exact h.write hfree fun hno => by cases hno
  | sending data =>
    have hnew : Kept { s with attempts := ⟨id, data.email, ok⟩ :: s.attempts } (some id) :=
      { h with }
    apply hnew.task
    intro hno
    cases ok <;> cases hno
  | succeeded => exact h.write hfree fun _ => rfl
  | markedSent =>
    obtain ⟨data, hdata, hstatus⟩ := hmarked rfl
    refine (h.put hfree _).ends (ended_put ?_)
    rw [hdata]
    exact hstatus
  | failed data =>
    unfold State.resume
    dsimp only
    split
    · exact h.write hfree fun hno => by cases hno
    · exact (h.put hfree _).ends (ended_put (Or.inr rfl))
  | counted n => exact h.write hfree fun hno => by cases hno
  | pending n => exact h.write hfree fun hno => by cases hno
  | dated n => exact h.task fun hno => by cases hno
  | delayed n => exact h.push

theorem empty : Kept .empty none where
  kept := fun x hx => absurd hx (Nat.not_lt_zero x)
  marked := fun _ ht => absurd ht List.not_mem_nil
  expired := fun _ => rfl

theorem enqueue (hs : Inv s) (h : Kept s none) (email : Email) (now : Time) :
    Kept (s.after (.enqueue email now)) none := by
  have hfree : s.emails.length ∉ s.held := fun hin => absurd (hs.known _ hin) (Nat.lt_irrefl _)
  have hnew : Kept (s.create email now) (some s.emails.length) := {
    kept := by
      intro x hx hne
      have hother : x ≠ s.emails.length := fun heq => hne (congrArg some heq)
      have hlt : x < s.emails.length + 1 := by
        have hlength : (s.create email now).emails.length = s.emails.length + 1 := by
          simp [State.create, State.hset, State.put]
        exact hlength ▸ hx
      have hold := h.kept x (Nat.lt_of_le_of_ne (Nat.le_of_lt_succ hlt) hother) (by simp)
      exact hold.imp_right (same_create hother).ended
    marked := by
      intro t ht hmarked
      have hother : t.1 ≠ s.emails.length := by
        intro heq
        exact hfree (heq ▸ List.mem_append_right _ (List.mem_map_of_mem ht))
      exact (same_create hother).ended (h.marked t ht hmarked)
    expired := h.expired }
  exact hnew.task fun hno => by cases hno

theorem pop (h : Kept s none) : Kept (s.after .pop) none := by
  unfold State.after
  cases hpop : rpop s.queue with
  | none => exact h
  | some popped =>
    obtain ⟨id, rest⟩ := popped
    have hqueue : s.queue = rest ++ [id] := rpop_eq_some.mp hpop
    have hrest : Kept { s with queue := rest } (some id) := {
      h with
      kept := by
        intro x hx hne
        refine (h.kept x hx (by simp)).imp_left ?_
        intro hin
        have hother : x ≠ id := fun heq => hne (congrArg some heq)
        rw [State.held, hqueue, List.append_assoc] at hin
        cases List.mem_append.mp hin with
        | inl hleft => exact List.mem_append_left _ hleft
        | inr hright =>
          exact List.mem_append_right _ ((List.mem_cons.mp hright).resolve_left hother)
      }
    exact hrest.task fun hno => by cases hno

theorem after (hs : Inv s) (h : Kept s none) {e : Event} (hsound : e.isSound) :
    Kept (s.after e) none := by
  cases e with
  | enqueue email now => exact h.enqueue hs email now
  | pop => exact h.pop
  | resume id phase ok now =>
    unfold State.after
    dsimp only
    split
    · next hin =>
      have hid := hs.known id (List.mem_append_right _ (List.mem_map_of_mem hin))
      refine (h.apart phase).resume (hs.alone hin).1 (hs.alone hin).2 hid ?_ ok now
      intro hmarked
      exact h.marked _ hin hmarked
    · exact h
  | dies id phase => cases hsound
  | expire id => cases hsound

theorem run {events : List Event} (hsound : ∀ e ∈ events, e.isSound) :
    Kept (.run events) none := by
  have hfold : ∀ s, Inv s → Kept s none → Kept (events.foldl State.after s) none := by
    induction events with
    | nil => exact fun _ _ h => h
    | cons e rest ih =>
      intro s hs h
      refine ih (fun x hx => hsound x (List.mem_cons_of_mem e hx)) _ (hs.after e) ?_
      exact h.after hs (hsound e List.mem_cons_self)
  exact hfold _ .empty .empty

end Kept

/-- If no task ends early and no hash expires, every mail that was enqueued is in one place, or was
taken once, or has failed in four attempts. -/
theorem mail_kept (events : List Event) (hsound : ∀ e ∈ events, e.isSound) :
    ∀ id < (State.run events).emails.length,
      (State.run events).held.count id = 1 ∨
        (State.run events).takes id = 1 ∨
        ((State.run events).takes id = 0 ∧ (State.run events).tries id = 4) := by
  intro id hid
  have h := Kept.run hsound
  have hs := Inv.run events
  cases h.kept id hid (by simp) with
  | inl hin => exact Or.inl (List.count_eq_one_of_mem hs.nodup hin)
  | inr hended =>
    obtain ⟨data, hdata, hstatus⟩ := hended
    obtain ⟨hsent, hfailed⟩ := ((Told.run events).record id).2 data hdata
    cases hstatus with
    | inl hstatus => exact Or.inr (Or.inl (hsent hstatus))
    | inr hstatus =>
      have hbound := hs.bound id
      rw [State.forgotten, h.expired id, if_neg Bool.false_ne_true] at hbound
      obtain ⟨htakes, htries⟩ := hfailed hstatus
      exact Or.inr (Or.inr ⟨htakes, Nat.le_antisymm hbound htries⟩)

/-- A mail that is not taken at first, and another one that still waits. -/
def sampleEvents : List Event := [
  .enqueue sampleEmail 7, .resume 0 .stored true 7, .resume 0 .expiring true 7, .pop,
  .resume 0 .popped true 8, .resume 0 (.read sampleHash) true 8,
  .resume 0 (.sending sampleHash) false 9, .enqueue sampleEmail 9,
  .resume 0 (.failed sampleHash) true 9]

/-- Both are with a task. -/
theorem mail_kept_sample :
    (State.run sampleEvents).held = [0, 1] ∧
      ∀ id < (State.run sampleEvents).emails.length,
        (State.run sampleEvents).held.count id = 1 ∨
          (State.run sampleEvents).takes id = 1 ∨
          ((State.run sampleEvents).takes id = 0 ∧ (State.run sampleEvents).tries id = 4) :=
  ⟨by decide, mail_kept sampleEvents (by decide)⟩

end Soms.Mail

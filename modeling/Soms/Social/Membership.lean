import Soms.Social.Teams

/-!
# Membership

A leader is refused whomever they ask to remove, as if they asked to leave themselves.  So
the teams are in order only while nobody else is let into them, and then only while the two
commits of a creation are not cut off or overtaken.
-/

namespace Soms.Social.Teams

open Txn

/-- The leader of the team is about to be enrolled. -/
def State.Founding (s : State) (k : TeamId) : Prop :=
  ∃ r leaderId, s.pending r = some (.enroll leaderId k)

/-- The request passes its checks. -/
def State.Accepts (s : State) (request : Request) : Prop := ∃ p t, request.checks s = (.ok p, t)

/-- What the teams and their members keep to. -/
structure Orderly (s : State) : Prop where
  single : ∀ m ∈ s.members, ∀ m' ∈ s.members, m.userId = m'.userId → m.teamId = m'.teamId
  led : ∀ k team, s.teams.row k = some team → s.Founding k ∨ ⟨team.leaderId, k⟩ ∈ s.members
  handled : ∀ uid k, ⟨uid, k⟩ ∈ s.members → ⟨uid, k⟩ ∉ s.requests
  removable : ∀ k team uid, s.teams.row k = some team → ⟨uid, k⟩ ∈ s.members →
    uid ≠ team.leaderId → s.Accepts (.kick team.leaderId k uid)
  leavable : ∀ k team uid, s.teams.row k = some team → ⟨uid, k⟩ ∈ s.members →
    uid ≠ team.leaderId → s.Accepts (.kick uid k uid)

/-- The same, said of the rows alone: the leader of a team is its only member. -/
structure Alone (s : State) : Prop where
  single : ∀ m ∈ s.members, ∀ m' ∈ s.members, m.userId = m'.userId → m.teamId = m'.teamId
  led : ∀ k team, s.teams.row k = some team → s.Founding k ∨ ⟨team.leaderId, k⟩ ∈ s.members
  handled : ∀ uid k, ⟨uid, k⟩ ∈ s.members → ⟨uid, k⟩ ∉ s.requests
  sole : ∀ k team uid, s.teams.row k = some team → ⟨uid, k⟩ ∈ s.members → uid = team.leaderId

/-- After the event the teams are in order. -/
def StaysOrderly (_ : List (Event × State)) (_ : Event) (t : State) : Prop := Orderly t

/-- The commit lets nobody but its leader into a team and leaves no leader outside. -/
def Pending.Harmless (s : State) : Pending → Prop
  | .enroll leaderId k => (s.teams.row k).isSome → ⟨leaderId, k⟩ ∈ s.members ∨
      s.enrolled leaderId = false ∧ ⟨leaderId, k⟩ ∉ s.requests
  | .delete k members => ((Pending.delete k members).write s).isSome →
      ∀ uid ∈ members, ∀ k', k' ≠ k → ⟨uid, k'⟩ ∈ s.members → s.Founding k'
  | .requestJoin k uid => ⟨uid, k⟩ ∉ s.members
  | .accept k uid => s.enrolled uid = false → ∀ team, s.teams.row k = some team →
      uid = team.leaderId
  | _ => True

/-- The event lets nobody but its leader into a team and leaves no leader outside. -/
def LeadersOnly (past : List (Event × State)) (e : Event) (_ : State) : Prop :=
  let s := endState State.empty past
  match e with
  | .commit r => ∀ p, s.pending r = some p → p.Harmless s
  | .fail r => ∀ leaderId k, s.pending r = some (.enroll leaderId k) → (s.teams.row k).isSome →
      ⟨leaderId, k⟩ ∈ s.members
  | _ => True

/-- What the rows and the requests under way have to do with each other, along runs that stay
in order. -/
structure Sound (s : State) : Prop where
  known : ∀ m ∈ s.members, (s.teams.row m.teamId).isSome = true
  founded : ∀ r leaderId k, s.pending r = some (.enroll leaderId k) → k < s.teams.next ∧
    ∀ team, s.teams.row k = some team → team.leaderId = leaderId
  once : ∀ r r' l l' k, s.pending r = some (.enroll l k) → s.pending r' = some (.enroll l' k) →
    r = r'
  stays : ∀ r k name shortName l, s.pending r ≠ some (.update k name shortName (some l))
  keeps : ∀ r uid, s.pending r ≠ some (.remove uid)

variable {s t : State} {k : TeamId} {uid currentUser : UserId} {r : RequestId}

/-! ## The checks -/

theorem ledTeam_ok {team : Team} : ledTeam currentUser k s = (.ok team, t) ↔
    s.restricted currentUser = false ∧ s.teams.row k = some team ∧ team.leaderId = currentUser ∧
      s = t := by
  simp only [ledTeam, bind_ok, refuse_ok, require_ok, pure_ok]
  constructor
  · rintro ⟨_, _, ⟨hrestricted, rfl⟩, _, _, ⟨hteam, rfl⟩, _, _, ⟨hleader, rfl⟩, rfl, rfl⟩
    exact ⟨by simpa using hrestricted, hteam, by simpa using hleader, rfl⟩
  · rintro ⟨hrestricted, hteam, hleader, rfl⟩
    exact ⟨(), s, ⟨by simp [hrestricted], rfl⟩, team, s, ⟨hteam, rfl⟩, (), s,
      ⟨by simp [hleader], rfl⟩, rfl, rfl⟩

theorem kickMember_ok {p : Pending} (h : kickMember currentUser k uid s = (.ok p, t)) :
    p = .remove uid ∧ uid = currentUser ∧
      ∃ team, s.teams.row k = some team ∧ ⟨uid, k⟩ ∈ s.members ∧ team.leaderId ≠ currentUser := by
  simp only [kickMember, bind_ok, refuse_ok, require_ok, pure_ok] at h
  obtain ⟨_, _, ⟨-, rfl⟩, team, _, ⟨hteam, rfl⟩, _, _, ⟨hcaller, rfl⟩, _, _, ⟨hmember, rfl⟩, _, _,
    ⟨hleader, rfl⟩, rfl, rfl⟩ := h
  exact ⟨rfl, by simpa [hleader] using hcaller, team, hteam, by simpa using hmember, hleader⟩

/-- A leader can remove nobody. -/
theorem not_accepts_kick {team : Team} (hteam : s.teams.row k = some team) :
    ¬ s.Accepts (.kick team.leaderId k uid) := by
  rintro ⟨p, t, hok⟩
  obtain ⟨-, -, team', hteam', -, hleader⟩ := kickMember_ok hok
  obtain rfl := Option.some.inj (hteam.symm.trans hteam')
  exact hleader rfl

theorem orderly_iff : Orderly s ↔ Alone s := by
  constructor
  · intro h
    refine ⟨h.single, h.led, h.handled, fun k team uid hteam hmember => ?_⟩
    by_contra hother
    exact not_accepts_kick hteam (h.removable k team uid hteam hmember hother)
  · intro h
    exact ⟨h.single, h.led, h.handled,
      fun k team uid hteam hmember hother => absurd (h.sole k team uid hteam hmember) hother,
      fun k team uid hteam hmember hother => absurd (h.sole k team uid hteam hmember) hother⟩

/-- What a request may have to write when nobody but the leaders is in a team. -/
theorem checks_ok (h : Alone s) {request : Request} {p : Pending}
    (hok : request.checks s = (.ok p, t)) :
    (∀ l k, p ≠ .enroll l k) ∧ (∀ k name shortName l, p ≠ .update k name shortName (some l)) ∧
      ∀ uid, p ≠ .remove uid := by
  cases request with
  | create currentUser name shortName =>
    simp only [Request.checks, createTeam, bind_ok, refuse_ok, pure_ok] at hok
    obtain ⟨_, _, -, _, _, -, _, _, -, _, _, -, rfl, -⟩ := hok
    simp
  | update currentUser k name shortName leaderId =>
    simp only [Request.checks, updateTeam, bind_ok, refuse_ok, pure_ok, ledTeam_ok] at hok
    obtain ⟨team, _, ⟨-, hteam, -, rfl⟩, _, _, ⟨-, rfl⟩, _, _, ⟨-, rfl⟩, _, _, ⟨-, rfl⟩, _, _,
      ⟨hmember, rfl⟩, rfl, -⟩ := hok
    refine ⟨by simp, fun k' name' shortName' l heq => ?_, by simp⟩
    obtain ⟨-, -, -, hleader⟩ := Pending.update.inj heq
    obtain ⟨rfl, hnew⟩ := Option.filter_eq_some_iff.mp hleader
    have hin : ⟨l, k⟩ ∈ s.members := by simpa using hmember
    exact absurd (h.sole k team l hteam hin) (by simpa using hnew)
  | delete currentUser k =>
    simp only [Request.checks, deleteTeam, bind_ok, read_ok, pure_ok] at hok
    obtain ⟨_, _, -, _, _, -, rfl, -⟩ := hok
    simp
  | requestJoin currentUser k =>
    simp only [Request.checks, requestJoinTeam, bind_ok, refuse_ok, require_ok, pure_ok] at hok
    obtain ⟨_, _, -, _, _, -, _, _, -, _, _, -, rfl, -⟩ := hok
    simp
  | handle currentUser k uid post =>
    simp only [Request.checks, handleRequest, bind_ok, refuse_ok, pure_ok] at hok
    obtain ⟨_, _, -, _, _, -, _, _, -, _, _, -, rfl, -⟩ := hok
    cases post <;> simp
  | kick currentUser k uid =>
    obtain ⟨-, rfl, team, hteam, hmember, hleader⟩ := kickMember_ok hok
    exact absurd (h.sole k team uid hteam hmember).symm hleader

/-! ## What a step carries over -/

/-- Nothing to be written makes a leader or removes a member. -/
structure Plain (q : Option Pending) : Prop where
  enroll : ∀ l k, q ≠ some (.enroll l k)
  update : ∀ k name shortName l, q ≠ some (.update k name shortName (some l))
  remove : ∀ uid, q ≠ some (.remove uid)

theorem plain_none : Plain none := ⟨by simp, by simp, by simp⟩

/-- The step is one of request `r`, and the teams keep their leaders. -/
structure Carries (r : RequestId) (q : Option Pending) (s t : State) : Prop where
  pending : t.pending = Function.update s.pending r q
  next : t.teams.next = s.teams.next
  leaders : ∀ k team, t.teams.row k = some team →
    ∃ team', s.teams.row k = some team' ∧ team'.leaderId = team.leaderId

variable {q : Option Pending}

theorem Carries.pending_eq (h : Carries r q s t) (r' : RequestId) :
    t.pending r' = if r' = r then q else s.pending r' := by
  rw [h.pending, Function.update_apply]

theorem Carries.setPending (s : State) (r : RequestId) (q : Option Pending) :
    Carries r q s (s.setPending r q) :=
  ⟨rfl, rfl, fun _ team hteam => ⟨team, hteam, rfl⟩⟩

/-- What was pending of another request is pending. -/
theorem Carries.old (h : Carries r q s t) (hq : Plain q) {r' : RequestId} {l : UserId}
    (ht : t.pending r' = some (.enroll l k)) : r' ≠ r ∧ s.pending r' = some (.enroll l k) := by
  rw [h.pending_eq] at ht
  split at ht
  · exact absurd ht (hq.enroll l k)
  · next hne => exact ⟨hne, ht⟩

theorem Carries.sound (h : Carries r q s t) (hq : Plain q) (hs : Sound s)
    (hknown : ∀ m ∈ t.members, (t.teams.row m.teamId).isSome = true) : Sound t where
  known := hknown
  founded r' l k ht := by
    obtain ⟨hlt, hleader⟩ := hs.founded r' l k (h.old hq ht).2
    refine ⟨h.next ▸ hlt, fun team hteam => ?_⟩
    obtain ⟨team', hteam', hsame⟩ := h.leaders k team hteam
    rw [← hsame]
    exact hleader team' hteam'
  once r₁ r₂ l₁ l₂ k h₁ h₂ := hs.once r₁ r₂ l₁ l₂ k (h.old hq h₁).2 (h.old hq h₂).2
  stays r' k name shortName l ht := by
    rw [h.pending_eq] at ht
    split at ht
    · exact hq.update k name shortName l ht
    · exact hs.stays r' k name shortName l ht
  keeps r' uid ht := by
    rw [h.pending_eq] at ht
    split at ht
    · exact hq.remove uid ht
    · exact hs.keeps r' uid ht

theorem Carries.founding (h : Carries r q s t) (hq : Plain q) {p : Option Pending}
    (hp : s.pending r = p) (hnot : ∀ l, p ≠ some (.enroll l k)) : t.Founding k ↔ s.Founding k := by
  constructor
  · rintro ⟨r', l, ht⟩
    exact ⟨r', l, (h.old hq ht).2⟩
  · rintro ⟨r', l, hs⟩
    refine ⟨r', l, ?_⟩
    rw [h.pending_eq, if_neg, hs]
    rintro rfl
    exact hnot l (hp.symm.trans hs)

theorem Carries.not_founding (h : Carries r q s t) (hq : Plain q) (hs : Sound s) {l : UserId}
    (hp : s.pending r = some (.enroll l k)) : ¬ t.Founding k := by
  rintro ⟨r', l', ht⟩
  obtain ⟨hne, hold⟩ := h.old hq ht
  exact hne (hs.once r' r l' l k hold hp)

/-- Where nobody new comes into a team it is enough that the leaders stay. -/
theorem Carries.alone_iff (h : Carries r q s t) (ha : Alone s) (hmembers : t.members ⊆ s.members)
    (hrequests : t.requests ⊆ s.requests) :
    Alone t ↔ ∀ k team, t.teams.row k = some team →
      t.Founding k ∨ ⟨team.leaderId, k⟩ ∈ t.members := by
  refine ⟨fun ht => ht.led, fun hled => ⟨?_, hled, ?_, ?_⟩⟩
  · exact fun m hm m' hm' => ha.single m (hmembers hm) m' (hmembers hm')
  · exact fun uid k hm hreq => ha.handled uid k (hmembers hm) (hrequests hreq)
  · intro k team uid hteam hm
    obtain ⟨team', hteam', hsame⟩ := h.leaders k team hteam
    rw [← hsame]
    exact ha.sole k team' uid hteam' (hmembers hm)

/-- The leaders stay when the members do and no creation ends. -/
theorem Carries.led (h : Carries r q s t) (hq : Plain q) (ha : Alone s) {p : Option Pending}
    (hp : s.pending r = p) (hnot : ∀ l k, p ≠ some (.enroll l k)) (hmembers : s.members ⊆ t.members)
    (k : TeamId) (team : Team) (hteam : t.teams.row k = some team) :
    t.Founding k ∨ ⟨team.leaderId, k⟩ ∈ t.members := by
  obtain ⟨team', hteam', hsame⟩ := h.leaders k team hteam
  rw [h.founding hq hp fun l => hnot l k, ← hsame]
  exact (ha.led k team' hteam').imp id fun hm => hmembers hm

/-! ## The members after a commit -/

theorem enrolled_eq_false : s.enrolled uid = false ↔ ∀ m ∈ s.members, m.userId ≠ uid := by
  simp [State.enrolled]

theorem addMember_eq_some : s.addMember k uid = some t ↔
    (s.teams.row k).isSome = true ∧ s.enrolled uid = false ∧
      t = { s with members := s.members ++ [⟨uid, k⟩] } := by
  unfold State.addMember
  split
  · next h => simp [h.1, h.2, eq_comm]
  · next h =>
    refine iff_of_false (by simp) fun hall => h ⟨hall.1, hall.2.1⟩

/-- A leader who comes into their own team. -/
theorem alone_addMember_iff (ha : Alone s) {team : Team} (hteam : s.teams.row k = some team)
    (hout : s.enrolled uid = false) (hteams : t.teams = s.teams)
    (hmembers : t.members = s.members ++ [⟨uid, k⟩]) (hrequests : t.requests ⊆ s.requests)
    (hfounding : ∀ k' ≠ k, t.Founding k' ↔ s.Founding k') :
    Alone t ↔ uid = team.leaderId ∧ ⟨uid, k⟩ ∉ t.requests := by
  have hmem : ∀ m, m ∈ t.members ↔ m ∈ s.members ∨ m = ⟨uid, k⟩ := by simp [hmembers]
  rw [enrolled_eq_false] at hout
  constructor
  · intro ht
    have hin : ⟨uid, k⟩ ∈ t.members := (hmem _).mpr (.inr rfl)
    exact ⟨ht.sole k team uid (hteams ▸ hteam) hin, ht.handled uid k hin⟩
  · rintro ⟨rfl, hfree⟩
    refine ⟨fun m hm m' hm' huser => ?_, fun k' team' hteam' => ?_, fun uid' k' hm => ?_,
      fun k' team' uid' hteam' hm => ?_⟩
    · rcases (hmem m).mp hm with hm | rfl <;> rcases (hmem m').mp hm' with hm' | rfl
      · exact ha.single m hm m' hm' huser
      · exact absurd huser (hout m hm)
      · exact absurd huser.symm (hout m' hm')
      · rfl
    · rw [hteams] at hteam'
      by_cases hk : k' = k
      · subst hk
        obtain rfl := Option.some.inj (hteam.symm.trans hteam')
        exact .inr ((hmem _).mpr (.inr rfl))
      · rw [hfounding k' hk]
        exact (ha.led k' team' hteam').imp id fun h => (hmem _).mpr (.inl h)
    · rcases (hmem _).mp hm with hold | hnew
      · exact fun hreq => ha.handled uid' k' hold (hrequests hreq)
      · obtain ⟨rfl, rfl⟩ := TeamMember.mk.inj hnew
        exact hfree
    · rw [hteams] at hteam'
      rcases (hmem _).mp hm with hold | hnew
      · exact ha.sole k' team' uid' hteam' hold
      · obtain ⟨rfl, rfl⟩ := TeamMember.mk.inj hnew
        obtain rfl := Option.some.inj (hteam.symm.trans hteam')
        rfl

/-! ## One commit -/

theorem after_commit {p : Pending} (hp : s.pending r = some p) (ht : p.write s = some t) :
    s.after (.commit r) = t.setPending r (p.next s) := by
  simp only [State.after, hp, ht]

theorem after_commit_refused {p : Pending} (hp : s.pending r = some p) (ht : p.write s = none) :
    s.after (.commit r) = s.setPending r none := by
  simp only [State.after, hp, ht]

/-- A request that ends leaves the rows alone. -/
theorem setPending_none (hs : Sound s) (ha : Alone s) {p : Option Pending} (hp : s.pending r = p)
    (hnot : ∀ l k, p ≠ some (.enroll l k)) :
    Alone (s.setPending r none) ∧ Sound (s.setPending r none) := by
  have hcarries := Carries.setPending s r none
  exact ⟨(hcarries.alone_iff ha (fun _ h => h) fun _ h => h).mpr
    (hcarries.led plain_none ha hp hnot fun _ h => h), hcarries.sound plain_none hs hs.known⟩

/-- A creation that ends must leave the leader in the team. -/
theorem setPending_none_enroll (hs : Sound s) (ha : Alone s) {l : UserId}
    (hp : s.pending r = some (.enroll l k)) :
    (Alone (s.setPending r none) ↔ ((s.teams.row k).isSome = true → ⟨l, k⟩ ∈ s.members)) ∧
      Sound (s.setPending r none) := by
  have hcarries := Carries.setPending s r none
  refine ⟨?_, hcarries.sound plain_none hs hs.known⟩
  rw [hcarries.alone_iff ha (fun _ h => h) fun _ h => h]
  constructor
  · intro hled hsome
    obtain ⟨team, hteam⟩ := Option.isSome_iff_exists.mp hsome
    obtain rfl := (hs.founded r l k hp).2 team hteam
    exact (hled k team hteam).resolve_left (hcarries.not_founding plain_none hs hp)
  · intro hin k' team hteam
    by_cases hk : k' = k
    · subst hk
      obtain rfl := (hs.founded r l k' hp).2 team hteam
      exact .inr (hin (by simp [show s.teams.row k' = some team from hteam]))
    · rw [hcarries.founding plain_none hp (by simp [Ne.symm hk])]
      exact ha.led k' team hteam

theorem commit_create (hs : Sound s) (ha : Alone s) {l : UserId} {name shortName : String}
    (hp : s.pending r = some (.create l name shortName)) :
    Alone (s.after (.commit r)) ∧ Sound (s.after (.commit r)) := by
  rw [after_commit hp rfl]
  have hpending : ∀ r' p, (Function.update s.pending r (some (.enroll l s.teams.next))) r' = some p →
      (r' = r ∧ p = .enroll l s.teams.next) ∨ s.pending r' = some p := by
    intro r' p h
    rw [Function.update_apply] at h
    split at h
    · next hr => exact .inl ⟨hr, (Option.some.inj h).symm⟩
    · exact .inr h
  have hfresh : ∀ uid, ⟨uid, s.teams.next⟩ ∉ s.members := fun uid hm => by
    simpa using hs.known _ hm
  refine ⟨⟨ha.single, fun k team hteam => ?_, ha.handled, fun k team uid hteam hm => ?_⟩, ?_⟩
  · simp only [State.setPending, Table.row_insert] at hteam
    split at hteam
    · next hk =>
      subst hk
      exact .inl ⟨r, l, by simp [State.setPending, Pending.next]⟩
    · refine (ha.led k team hteam).imp ?_ id
      rintro ⟨r', l', hold⟩
      refine ⟨r', l', ?_⟩
      simp only [State.setPending, Function.update_apply]
      rw [if_neg, hold]
      rintro rfl
      simp [hp] at hold
  · simp only [State.setPending, Table.row_insert] at hteam
    split at hteam
    · next hk => exact absurd hm (hk ▸ hfresh uid)
    · exact ha.sole k team uid hteam hm
  · refine ⟨fun m hm => ?_, fun r' l' k h => ?_, fun r₁ r₂ l₁ l₂ k h₁ h₂ => ?_,
      fun r' k name' shortName' l' h => ?_, fun r' uid h => ?_⟩
    · obtain ⟨team, hteam⟩ := Option.isSome_iff_exists.mp (hs.known m hm)
      exact Option.isSome_iff_exists.mpr ⟨team, Table.row_insert_of_some hteam⟩
    · rcases hpending r' _ h with ⟨-, heq⟩ | hold
      · obtain ⟨rfl, rfl⟩ := Pending.enroll.inj heq
        refine ⟨Nat.lt_succ_self _, fun team hteam => ?_⟩
        obtain rfl : (⟨name, shortName, l'⟩ : Team) = team := by
          simpa [State.setPending] using hteam
        rfl
      · obtain ⟨hlt, hleader⟩ := hs.founded r' l' k hold
        refine ⟨Nat.lt_succ_of_lt hlt, fun team hteam => hleader team ?_⟩
        simpa [State.setPending, Nat.ne_of_lt hlt] using hteam
    · rcases hpending r₁ _ h₁ with ⟨rfl, heq₁⟩ | hold₁ <;>
        rcases hpending r₂ _ h₂ with ⟨rfl, heq₂⟩ | hold₂
      · rfl
      · obtain ⟨-, rfl⟩ := Pending.enroll.inj heq₁
        exact absurd (hs.founded r₂ l₂ _ hold₂).1 (Nat.lt_irrefl _)
      · obtain ⟨-, rfl⟩ := Pending.enroll.inj heq₂
        exact absurd (hs.founded r₁ l₁ _ hold₁).1 (Nat.lt_irrefl _)
      · exact hs.once r₁ r₂ l₁ l₂ k hold₁ hold₂
    · rcases hpending r' _ h with ⟨-, heq⟩ | hold
      · simp at heq
      · exact hs.stays r' k name' shortName' l' hold
    · rcases hpending r' _ h with ⟨-, heq⟩ | hold
      · simp at heq
      · exact hs.keeps r' uid hold

theorem commit_enroll (hs : Sound s) (ha : Alone s) {l : UserId}
    (hp : s.pending r = some (.enroll l k)) :
    (Alone (s.after (.commit r)) ↔ (Pending.enroll l k).Harmless s) ∧
      Sound (s.after (.commit r)) := by
  cases hwrite : s.addMember k l with
  | none =>
    rw [after_commit_refused hp hwrite]
    obtain ⟨hiff, hsound⟩ := setPending_none_enroll hs ha hp
    refine ⟨hiff.trans (imp_congr_right fun hsome => ?_), hsound⟩
    refine ⟨.inl, fun h => h.resolve_right fun hout => ?_⟩
    have hadd := addMember_eq_some.mpr ⟨hsome, hout.1, rfl⟩
    rw [hwrite] at hadd
    simp at hadd
  | some t =>
    rw [after_commit hp hwrite]
    obtain ⟨hsome, hout, rfl⟩ := addMember_eq_some.mp hwrite
    obtain ⟨team, hteam⟩ := Option.isSome_iff_exists.mp hsome
    have hcarries : Carries r none s (State.setPending r none
        { s with members := s.members ++ [⟨l, k⟩] }) :=
      ⟨rfl, rfl, fun _ team hteam => ⟨team, hteam, rfl⟩⟩
    refine ⟨?_, hcarries.sound plain_none hs fun m hm => ?_⟩
    · have hadd := alone_addMember_iff (t := State.setPending r none
        { s with members := s.members ++ [⟨l, k⟩] }) ha hteam hout rfl rfl (fun _ h => h)
        fun k' hk => hcarries.founding plain_none hp (by simp [Ne.symm hk])
      refine hadd.trans ?_
      have hnot : ⟨l, k⟩ ∉ s.members := fun hm => enrolled_eq_false.mp hout _ hm rfl
      simp [Pending.Harmless, hsome, hout, hnot, (hs.founded r l k hp).2 team hteam,
        State.setPending]
    · rcases List.mem_append.mp hm with hold | hnew
      · exact hs.known m hold
      · obtain rfl := List.mem_singleton.mp hnew
        exact hsome

theorem commit_update (hs : Sound s) (ha : Alone s) {name shortName : Option String}
    (hp : s.pending r = some (.update k name shortName none)) :
    Alone (s.after (.commit r)) ∧ Sound (s.after (.commit r)) := by
  have ht := after_commit hp rfl
  generalize s.after (.commit r) = t at ht ⊢
  have hcarries : Carries r none s t := by
    subst ht
    refine ⟨rfl, rfl, fun k' team hteam => ?_⟩
    simp only [State.setPending, Table.row_modify] at hteam
    split at hteam
    · obtain ⟨team', hteam', rfl⟩ := Option.map_eq_some_iff.mp hteam
      exact ⟨team', hteam', rfl⟩
    · exact ⟨team, hteam, rfl⟩
  have hmembers : t.members = s.members := by rw [ht]; rfl
  have hrequests : t.requests = s.requests := by rw [ht]; rfl
  refine ⟨(hcarries.alone_iff ha (by simp [hmembers]) (by simp [hrequests])).mpr
    (hcarries.led plain_none ha hp (by simp) (by simp [hmembers])),
    hcarries.sound plain_none hs fun m hm => ?_⟩
  have hknown := hs.known m (hmembers ▸ hm)
  rw [ht]
  simp only [State.setPending, Table.row_modify]
  split
  · rw [Option.isSome_map]
    exact hknown
  · exact hknown

theorem commit_delete (hs : Sound s) (ha : Alone s) {members : List UserId}
    (hp : s.pending r = some (.delete k members)) :
    (Alone (s.after (.commit r)) ↔ (Pending.delete k members).Harmless s) ∧
      Sound (s.after (.commit r)) := by
  cases hwrite : (Pending.delete k members).write s with
  | none =>
    rw [after_commit_refused hp hwrite]
    obtain ⟨halone, hsound⟩ := setPending_none hs ha hp (by simp)
    exact ⟨iff_of_true halone (by simp [Pending.Harmless, hwrite]), hsound⟩
  | some t =>
    have hleft := hwrite
    simp only [Pending.write] at hleft
    split at hleft
    · simp at hleft
    · next hfree =>
      have hgone : ∀ m ∈ s.members, m.userId ∉ members → m.teamId ≠ k := by
        simp only [Bool.or_eq_true, not_or, List.any_eq_true, List.mem_filter, not_exists,
          not_and, and_imp] at hfree
        intro m hm hnot
        simpa using hfree.1 m hm (by simpa using hnot)
      have hu := after_commit hp hwrite
      obtain rfl := Option.some.inj hleft
      generalize s.after (.commit r) = u at hu ⊢
      have hcarries : Carries r none s u := by
        subst hu
        refine ⟨rfl, rfl, fun k' team hteam => ?_⟩
        simp only [State.setPending, Table.row_delete] at hteam
        split at hteam
        · simp at hteam
        · exact ⟨team, hteam, rfl⟩
      have hmem : ∀ m, m ∈ u.members ↔ m ∈ s.members ∧ m.userId ∉ members := by
        simp [hu, State.setPending]
      have hrow : ∀ k', u.teams.row k' = if k' = k then none else s.teams.row k' := by
        rw [hu]
        exact fun k' => rfl
      have hsubset : u.members ⊆ s.members := fun m hm => ((hmem m).mp hm).1
      refine ⟨?_, hcarries.sound plain_none hs fun m hm => ?_⟩
      · rw [hcarries.alone_iff ha hsubset (by simp [hu, State.setPending])]
        simp only [Pending.Harmless, hwrite, Option.isSome_some, forall_const]
        constructor
        · intro hled uid huid k' hk hm
          obtain ⟨team, hteam⟩ := Option.isSome_iff_exists.mp (hs.known _ hm)
          obtain rfl := ha.sole k' team uid hteam hm
          have := hled k' team (by rw [hrow, if_neg hk]; exact hteam)
          rw [hcarries.founding plain_none hp (by simp)] at this
          exact this.resolve_right fun hin => ((hmem _).mp hin).2 huid
        · intro hmoved k' team hteam
          rw [hrow] at hteam
          split at hteam
          · simp at hteam
          · next hk =>
            rw [hcarries.founding plain_none hp (by simp)]
            rcases ha.led k' team hteam with hfounding | hin
            · exact .inl hfounding
            · by_cases huid : team.leaderId ∈ members
              · exact .inl (hmoved _ huid k' hk hin)
              · exact .inr ((hmem _).mpr ⟨hin, huid⟩)
      · obtain ⟨hold, hnot⟩ := (hmem m).mp hm
        rw [hrow, if_neg (hgone m hold hnot)]
        exact hs.known m hold

theorem commit_requestJoin (hs : Sound s) (ha : Alone s)
    (hp : s.pending r = some (.requestJoin k uid)) :
    (Alone (s.after (.commit r)) ↔ (Pending.requestJoin k uid).Harmless s) ∧
      Sound (s.after (.commit r)) := by
  by_cases hok : (s.teams.row k).isSome ∧ ⟨uid, k⟩ ∉ s.requests
  · have ht := after_commit hp (if_pos hok)
    generalize s.after (.commit r) = t at ht ⊢
    have hcarries : Carries r none s t := by
      subst ht
      exact ⟨rfl, rfl, fun _ team hteam => ⟨team, hteam, rfl⟩⟩
    have hmembers : t.members = s.members := by rw [ht]; rfl
    have hrequests : t.requests = s.requests ++ [⟨uid, k⟩] := by rw [ht]; rfl
    have hteams : t.teams = s.teams := by rw [ht]; rfl
    refine ⟨⟨fun h hm => ?_, fun hout => ⟨?_, ?_, ?_, ?_⟩⟩,
      hcarries.sound plain_none hs (by rw [hmembers, hteams]; exact hs.known)⟩
    · exact h.handled uid k (hmembers ▸ hm) (by simp [hrequests])
    · rw [hmembers]
      exact ha.single
    · exact hcarries.led plain_none ha hp (by simp) (by simp [hmembers])
    · intro uid' k' hm hreq
      rw [hmembers] at hm
      rw [hrequests] at hreq
      rcases List.mem_append.mp hreq with hold | hnew
      · exact ha.handled uid' k' hm hold
      · obtain ⟨rfl, rfl⟩ := TeamRequest.mk.inj (List.mem_singleton.mp hnew)
        exact hout hm
    · rw [hmembers, hteams]
      exact ha.sole
  · rw [after_commit_refused hp (if_neg hok)]
    obtain ⟨halone, hsound⟩ := setPending_none hs ha hp (by simp)
    refine ⟨iff_of_true halone fun hm => hok ⟨hs.known _ hm, ha.handled uid k hm⟩, hsound⟩

theorem commit_accept (hs : Sound s) (ha : Alone s) (hp : s.pending r = some (.accept k uid)) :
    (Alone (s.after (.commit r)) ↔ (Pending.accept k uid).Harmless s) ∧
      Sound (s.after (.commit r)) := by
  cases hwrite : s.addMember k uid with
  | none =>
    have hrefused : (Pending.accept k uid).write s = none := by simp [Pending.write, hwrite]
    rw [after_commit_refused hp hrefused]
    obtain ⟨halone, hsound⟩ := setPending_none hs ha hp (by simp)
    refine ⟨iff_of_true halone fun hout team hteam => ?_, hsound⟩
    have hadd := addMember_eq_some.mpr
      ⟨Option.isSome_iff_exists.mpr ⟨team, hteam⟩, hout, rfl⟩
    rw [hwrite] at hadd
    simp at hadd
  | some u =>
    obtain ⟨hsome, hout, rfl⟩ := addMember_eq_some.mp hwrite
    have haccepted : (Pending.accept k uid).write s = some { s with
        members := s.members ++ [⟨uid, k⟩]
        requests := s.requests.filter (· ≠ ⟨uid, k⟩) } := by
      simp [Pending.write, hwrite]
    have ht := after_commit hp haccepted
    generalize s.after (.commit r) = t at ht ⊢
    have hcarries : Carries r none s t := by
      subst ht
      exact ⟨rfl, rfl, fun _ team hteam => ⟨team, hteam, rfl⟩⟩
    obtain ⟨team, hteam⟩ := Option.isSome_iff_exists.mp hsome
    have hmembers : t.members = s.members ++ [⟨uid, k⟩] := by rw [ht]; rfl
    have hrequests : t.requests = s.requests.filter (· ≠ ⟨uid, k⟩) := by rw [ht]; rfl
    have hteams : t.teams = s.teams := by rw [ht]; rfl
    refine ⟨?_, hcarries.sound plain_none hs fun m hm => ?_⟩
    · have hsubset : t.requests ⊆ s.requests := by
        rw [hrequests]
        exact List.filter_subset_self _
      rw [alone_addMember_iff ha hteam hout hteams hmembers hsubset
        fun k' _ => hcarries.founding plain_none hp (by simp)]
      simp [Pending.Harmless, hout, hteam, hrequests]
    · rw [hteams]
      rw [hmembers] at hm
      rcases List.mem_append.mp hm with hold | hnew
      · exact hs.known m hold
      · obtain rfl := List.mem_singleton.mp hnew
        exact hsome

theorem commit_reject (hs : Sound s) (ha : Alone s) (hp : s.pending r = some (.reject k uid)) :
    Alone (s.after (.commit r)) ∧ Sound (s.after (.commit r)) := by
  rw [after_commit hp rfl]
  have hcarries : Carries r none s (State.setPending r none
      { s with requests := s.requests.filter (· ≠ ⟨uid, k⟩) }) :=
    ⟨rfl, rfl, fun _ team hteam => ⟨team, hteam, rfl⟩⟩
  exact ⟨(hcarries.alone_iff ha (fun _ h => h) (List.filter_subset_self _)).mpr
    (hcarries.led plain_none ha hp (by simp) fun _ h => h), hcarries.sound plain_none hs hs.known⟩

theorem commit_step (hs : Sound s) (ha : Alone s) (r : RequestId) :
    (Alone (s.after (.commit r)) ↔ ∀ p, s.pending r = some p → p.Harmless s) ∧
      Sound (s.after (.commit r)) := by
  cases hp : s.pending r with
  | none =>
    have hsame : s.after (.commit r) = s := by simp only [State.after, hp]
    rw [hsame]
    exact ⟨iff_of_true ha (by simp), hs⟩
  | some p =>
    simp only [Option.some.injEq, forall_eq']
    cases p with
    | create l name shortName =>
      obtain ⟨halone, hsound⟩ := commit_create hs ha hp
      exact ⟨iff_of_true halone trivial, hsound⟩
    | enroll l k => exact commit_enroll hs ha hp
    | update k name shortName leaderId =>
      cases leaderId with
      | none =>
        obtain ⟨halone, hsound⟩ := commit_update hs ha hp
        exact ⟨iff_of_true halone trivial, hsound⟩
      | some l => exact absurd hp (hs.stays r k name shortName l)
    | delete k members => exact commit_delete hs ha hp
    | requestJoin k uid => exact commit_requestJoin hs ha hp
    | accept k uid => exact commit_accept hs ha hp
    | reject k uid =>
      obtain ⟨halone, hsound⟩ := commit_reject hs ha hp
      exact ⟨iff_of_true halone trivial, hsound⟩
    | remove uid => exact absurd hp (hs.keeps r uid)

/-! ## Runs -/

theorem start_step (hs : Sound s) (ha : Alone s) (r : RequestId) (request : Request) :
    Alone (s.after (.start r request)) ∧ Sound (s.after (.start r request)) := by
  simp only [State.after]
  split
  · next p _ hidle hok =>
    obtain ⟨henroll, hupdate, hremove⟩ := checks_ok ha hok
    have hplain : Plain (some p) :=
      ⟨fun l k => by simpa using henroll l k,
        fun k name shortName l => by simpa using hupdate k name shortName l,
        fun uid => by simpa using hremove uid⟩
    have hcarries := Carries.setPending s r (some p)
    exact ⟨(hcarries.alone_iff ha (fun _ h => h) fun _ h => h).mpr
      (hcarries.led hplain ha hidle (by simp) fun _ h => h), hcarries.sound hplain hs hs.known⟩
  · exact ⟨ha, hs⟩

theorem event_step (hs : Sound s) (ha : Alone s) {past : List (Event × State)}
    (hend : endState State.empty past = s) (e : Event) :
    (Alone (s.after e) ↔ LeadersOnly past e (s.after e)) ∧ Sound (s.after e) := by
  unfold LeadersOnly
  rw [hend]
  cases e with
  | start r request =>
    obtain ⟨halone, hsound⟩ := start_step hs ha r request
    exact ⟨iff_of_true halone trivial, hsound⟩
  | commit r => exact commit_step hs ha r
  | fail r =>
    by_cases hfounding : ∃ l k, s.pending r = some (.enroll l k)
    · obtain ⟨l, k, hp⟩ := hfounding
      obtain ⟨hiff, hsound⟩ := setPending_none_enroll hs ha hp
      exact ⟨hiff.trans (by simp [hp]), hsound⟩
    · obtain ⟨halone, hsound⟩ := setPending_none hs ha (r := r) rfl fun l k hp =>
        hfounding ⟨l, k, hp⟩
      exact ⟨iff_of_true halone fun l k hp => absurd ⟨l, k, hp⟩ hfounding, hsound⟩
  | register uid =>
    exact ⟨iff_of_true ⟨ha.single, ha.led, ha.handled, ha.sole⟩ trivial,
      hs.known, hs.founded, hs.once, hs.stays, hs.keeps⟩
  | setRestricted uid restricted =>
    exact ⟨iff_of_true ⟨ha.single, ha.led, ha.handled, ha.sole⟩ trivial,
      hs.known, hs.founded, hs.once, hs.stays, hs.keeps⟩

/-- The teams stay in order as long as nobody but its leader comes into a team and no leader is
left outside. -/
theorem teams_orderly {h : List (Event × State)}
    (hrun : Trace Step (fun _ _ => True) State.empty h s) :
    Every StaysOrderly h ↔ Every LeadersOnly h := by
  have halone : Alone State.empty :=
    ⟨by simp [State.empty], by simp [State.empty], by simp [State.empty], by simp [State.empty]⟩
  have hsound : Sound State.empty :=
    ⟨by simp [State.empty], by simp [State.empty], by simp [State.empty], by simp [State.empty],
      by simp [State.empty]⟩
  refine Trace.every_iff (I := fun _ s => Sound s ∧ Alone s) ⟨hsound, halone⟩
    (fun past u e v hI hend hstep => ?_) hrun
  cases hstep
  obtain ⟨hiff, hafter⟩ := event_step hI.1 hI.2 hend e
  exact ⟨orderly_iff.trans hiff, fun honly => ⟨hafter, hiff.mpr honly⟩⟩

/-- The history of some events, the newest first. -/
def teamRun (es : List Event) : List (Event × State) := historyOf State.after State.empty es

theorem trace_teamRun (es : List Event) : Trace Step (fun _ _ => True) State.empty
    (teamRun es) (endState State.empty (teamRun es)) :=
  trace_historyOf State.empty es fun e _ s => .mk s e

/-- User 1 founds a team, user 2 asks to join it and user 1 answers. -/
def joining (post : Bool) : List Event :=
  [.commit 30, .start 30 (.handle 1 1 2 post), .commit 20, .start 20 (.requestJoin 2 1),
    .commit 10, .commit 10, .start 10 (.create 1 "Team" "T"), .register 2, .register 1]

theorem teams_orderly_rejected :
    Every StaysOrderly (teamRun (joining false)) ∧
      (endState State.empty (teamRun (joining false))).members = [⟨1, 1⟩] := by
  refine ⟨(teams_orderly (trace_teamRun (joining false))).mpr ?_, by decide +kernel⟩
  refine ⟨⟨⟨⟨⟨⟨⟨⟨⟨trivial, trivial⟩, trivial⟩, trivial⟩, fun p hp => ?_⟩, fun p hp => ?_⟩, trivial⟩,
    fun p hp => ?_⟩, trivial⟩, fun p hp => ?_⟩
  · obtain rfl : .create 1 "Team" "T" = p := Option.some.inj hp
    trivial
  · obtain rfl : .enroll 1 1 = p := Option.some.inj hp
    simp only [Pending.Harmless]
    decide +kernel
  · obtain rfl : .requestJoin 1 2 = p := Option.some.inj hp
    simp only [Pending.Harmless]
    decide +kernel
  · obtain rfl : .reject 1 2 = p := Option.some.inj hp
    trivial

theorem leader_removes_nobody : ∃ h s,
    Trace Step (fun _ _ => True) State.empty h s ∧ ¬ Every StaysOrderly h := by
  refine ⟨_, _, trace_teamRun (joining true), fun hevery => ?_⟩
  have halone := orderly_iff.mp hevery.2
  have hsole := halone.sole 1 ⟨"Team", "T", 1⟩ 2 (by decide +kernel) (by decide +kernel)
  simp at hsole

end Soms.Social.Teams

import Soms.Auth.Sessions

/-!
# The life of a refresh token

A refresh token is good from its issue to its first use, its expiry, an invalidation
of its user's tokens or its eviction as one of the oldest over the limit.  Its row
also goes when a token is stored for the same user and client after its access token
has expired, and stays when it is used before.
-/

namespace Soms.Auth

variable (cfg : Settings)

/-- The server accepts the refresh token. -/
def State.Accepts (s : State) (tid : TokenId) : Prop := ∃ cid, (s.refreshable tid cid).isSome

/-- The refresh tokens that were issued and neither used, nor invalidated, nor evicted. -/
def due : List (Event × State) → TokenId → Option OAuthToken
  | [], _ => none
  | (e, _) :: past, tid =>
    let s := endState State.empty past
    match e with
    | .login uid cid _ _ =>
      if tid = s.tokens.next then
        some ⟨uid, cid, s.now + cfg.accessTokenExpire, s.now + cfg.refreshTokenExpire, s.now⟩
      else if tid ∈ s.evicted cfg uid cid then none else due past tid
    | .refresh source cid =>
      match s.refreshable source cid with
      | some token =>
        if tid = s.tokens.next then
          some ⟨token.userId, cid, s.now + cfg.accessTokenExpire, s.now + cfg.refreshTokenExpire,
            s.now⟩
        else if tid = source ∨ tid ∈ s.evicted cfg token.userId cid then none
        else due past tid
      | none => due past tid
    | .invalidateTokens uid => (due past tid).filter fun token => token.userId != uid
    | _ => due past tid

/-- After the event, exactly the refresh tokens are accepted that are due and have not
expired. -/
def AcceptsDue (past : List (Event × State)) (e : Event) (t : State) : Prop :=
  ∀ tid, t.Accepts tid ↔
    ∃ token, due cfg ((e, t) :: past) tid = some token ∧ t.now < token.refreshTokenExpiresAt

/-- A token that is stored for a user and a client takes no refresh token away that has
not expired, unless it is evicted; and a refresh takes its own token away. -/
def TakesItsOwn (past : List (Event × State)) (e : Event) (_ : State) : Prop :=
  let s := endState State.empty past
  match e with
  | .login uid cid _ _ =>
    ∀ tid, s.Accepts tid → tid ∈ s.outdated cfg uid cid → tid ∈ s.evicted cfg uid cid
  | .refresh source cid => ∀ token, s.refreshable source cid = some token →
      source ∈ s.outdated cfg token.userId cid ∧
        ∀ tid, s.Accepts tid → tid ∈ s.outdated cfg token.userId cid →
          tid = source ∨ tid ∈ s.evicted cfg token.userId cid
  | _ => True

variable {cfg} {s t : State} {past : List (Event × State)} {e : Event} {uid : UserId}
  {cid : ClientId} {tid : TokenId}

theorem accepts_iff : s.Accepts tid ↔
    ∃ token, s.tokens.row tid = some token ∧ s.now < token.refreshTokenExpiresAt := by
  constructor
  · rintro ⟨cid, hsome⟩
    obtain ⟨token, htoken⟩ := Option.isSome_iff_exists.mp hsome
    obtain ⟨hrow, hlive, -⟩ := State.refreshable_eq_some.mp htoken
    exact ⟨token, hrow, hlive⟩
  · rintro ⟨token, hrow, hlive⟩
    exact ⟨token.clientId, Option.isSome_iff_exists.mpr
      ⟨token, State.refreshable_eq_some.mpr ⟨hrow, hlive, rfl⟩⟩⟩

theorem evicted_outdated (hmulti : cfg.enableMultiDeviceLogin = true)
    (h : tid ∈ s.evicted cfg uid cid) : tid ∈ s.outdated cfg uid cid := by
  rw [State.outdated, if_pos hmulti]
  exact List.mem_append_right _ h

/-- The rows of the refresh tokens that have not expired are those that are due. -/
structure Agrees (cfg : Settings) (h : List (Event × State)) (s : State) : Prop where
  same : ∀ tid token, s.now < token.refreshTokenExpiresAt →
    (s.tokens.row tid = some token ↔ due cfg h tid = some token)
  issued : ∀ tid token, due cfg h tid = some token → tid < s.tokens.next

theorem Agrees.empty : Agrees cfg [] State.empty where
  same := by simp [due, State.empty]
  issued := by simp [due]

theorem Agrees.acceptsDue (h : Agrees cfg ((e, t) :: past) t) : AcceptsDue cfg past e t := by
  intro tid
  rw [accepts_iff]
  exact exists_congr fun token => and_congr_left fun hlive => h.same tid token hlive

/-- An event that leaves the tokens that have not expired as they were. -/
theorem Agrees.keep (h : Agrees cfg past s) (hnow : s.now ≤ t.now)
    (hnext : t.tokens.next = s.tokens.next)
    (hrow : ∀ tid token, t.now < token.refreshTokenExpiresAt →
      (t.tokens.row tid = some token ↔ s.tokens.row tid = some token))
    (hdue : ∀ tid, due cfg ((e, t) :: past) tid = due cfg past tid) :
    Agrees cfg ((e, t) :: past) t where
  same := fun tid token hlive => by
    rw [hdue, hrow tid token hlive]
    exact h.same tid token (Nat.lt_of_le_of_lt hnow hlive)
  issued := fun tid token htoken => hnext ▸ h.issued tid token (hdue tid ▸ htoken)

/-- A token is stored.  What is accepted is what is due if what the store deletes was
due to go. -/
theorem Agrees.store (h : Agrees cfg past s) (e : Event) (uid : UserId) (cid : ClientId)
    (gone : TokenId → Prop) [DecidablePred gone] (hnow : t.now = s.now)
    (hnext : t.tokens.next = s.tokens.next + 1)
    (hrow : ∀ tid, t.tokens.row tid = (s.storeToken cfg uid cid).tokens.row tid)
    (hdue : ∀ tid, due cfg ((e, t) :: past) tid =
      if tid = s.tokens.next then
        some ⟨uid, cid, s.now + cfg.accessTokenExpire, s.now + cfg.refreshTokenExpire, s.now⟩
      else if gone tid then none else due cfg past tid) :
    (AcceptsDue cfg past e t ↔
      ∀ tid, s.Accepts tid → (tid ∈ s.outdated cfg uid cid ↔ gone tid)) ∧
    (AcceptsDue cfg past e t → Agrees cfg ((e, t) :: past) t) := by
  have hold : ∀ tid, s.Accepts tid → tid ≠ s.tokens.next := by
    rintro tid haccepts rfl
    obtain ⟨token, hfresh, -⟩ := accepts_iff.mp haccepts
    simp at hfresh
  have hagrees : (∀ tid, s.Accepts tid → (tid ∈ s.outdated cfg uid cid ↔ gone tid)) →
      Agrees cfg ((e, t) :: past) t := by
    intro hgone
    refine ⟨fun tid token hlive => ?_, fun tid token htoken => ?_⟩
    · rw [hnow] at hlive
      rw [hrow, hdue, State.row_storeToken]
      by_cases hnew : tid = s.tokens.next
      · rw [if_pos hnew, if_pos hnew]
      · rw [if_neg hnew, if_neg hnew]
        by_cases haccepts : s.Accepts tid
        · simp only [hgone tid haccepts]
          by_cases hgoes : gone tid
          · rw [if_pos hgoes, if_pos hgoes]
          · rw [if_neg hgoes, if_neg hgoes]
            exact h.same tid token hlive
        · -- Neither the row nor the token that is due is still good.
          have hnot : s.tokens.row tid ≠ some token := fun hsome =>
            haccepts (accepts_iff.mpr ⟨token, hsome, hlive⟩)
          have hnot' : due cfg past tid ≠ some token := fun hsome =>
            hnot ((h.same tid token hlive).mpr hsome)
          refine iff_of_false ?_ ?_ <;> split <;> simp_all
    · rw [hdue] at htoken
      rw [hnext]
      split at htoken
      · next hnew => exact hnew ▸ Nat.lt_succ_self _
      · split at htoken
        · simp at htoken
        · exact Nat.lt_succ_of_lt (h.issued tid token htoken)
  have hgone : AcceptsDue cfg past e t →
      ∀ tid, s.Accepts tid → (tid ∈ s.outdated cfg uid cid ↔ gone tid) := by
    intro hevent tid haccepts
    obtain ⟨token, htoken, hlive⟩ := accepts_iff.mp haccepts
    have hne := hold tid haccepts
    have hdueOf := (h.same tid token hlive).mp htoken
    have hafter : t.Accepts tid ↔ tid ∉ s.outdated cfg uid cid := by
      rw [accepts_iff, hrow, State.row_storeToken, if_neg hne, htoken, hnow]
      by_cases hout : tid ∈ s.outdated cfg uid cid <;> simp [hout, hlive]
    have hstill : (∃ token, due cfg ((e, t) :: past) tid = some token ∧
        t.now < token.refreshTokenExpiresAt) ↔ ¬ gone tid := by
      rw [hdue, if_neg hne, hdueOf, hnow]
      by_cases hgoes : gone tid <;> simp [hgoes, hlive]
    exact not_iff_not.mp (hafter.symm.trans ((hevent tid).trans hstill))
  exact ⟨⟨hgone, fun hsame => (hagrees hsame).acceptsDue⟩, fun hevent => hagrees (hgone hevent)⟩

theorem Agrees.event (hmulti : cfg.enableMultiDeviceLogin = true) (h : Agrees cfg past s)
    (hend : endState State.empty past = s) (e : Event) :
    (AcceptsDue cfg past e (s.after cfg e) ↔ TakesItsOwn cfg past e (s.after cfg e)) ∧
      (AcceptsDue cfg past e (s.after cfg e) →
        Agrees cfg ((e, s.after cfg e) :: past) (s.after cfg e)) := by
  have hkeep : ∀ {P : Prop}, P → Agrees cfg ((e, s.after cfg e) :: past) (s.after cfg e) →
      (AcceptsDue cfg past e (s.after cfg e) ↔ P) ∧
        (AcceptsDue cfg past e (s.after cfg e) →
          Agrees cfg ((e, s.after cfg e) :: past) (s.after cfg e)) :=
    fun hP hagrees => ⟨iff_of_true hagrees.acceptsDue hP, fun _ => hagrees⟩
  have hsame : (s.after cfg e).now = s.now → (s.after cfg e).tokens = s.tokens →
      (∀ tid, due cfg ((e, s.after cfg e) :: past) tid = due cfg past tid) →
        Agrees cfg ((e, s.after cfg e) :: past) (s.after cfg e) := by
    intro hnow htokens hdue
    exact h.keep (Nat.le_of_eq hnow.symm) (by rw [htokens]) (fun tid token _ => by rw [htokens]) hdue
  cases e with
  | login uid cid supportsTotp trusted =>
    have htokens : (s.after cfg (.login uid cid supportsTotp trusted)).tokens =
        (s.storeToken cfg uid cid).tokens := by
      simp only [State.after]
      split <;> split <;> rfl
    have hnow : (s.after cfg (.login uid cid supportsTotp trusted)).now = s.now := by
      simp only [State.after]
      split <;> split <;> rfl
    obtain ⟨hiff, hagrees⟩ := h.store (.login uid cid supportsTotp trusted) uid cid
      (· ∈ s.evicted cfg uid cid) hnow (by rw [htokens]; rfl) (fun tid => by rw [htokens])
      fun tid => by simp only [due, hend]
    refine ⟨hiff.trans ?_, hagrees⟩
    simp only [TakesItsOwn, hend]
    exact forall_congr' fun tid => imp_congr_right fun _ =>
      ⟨Iff.mp, fun himp => ⟨himp, evicted_outdated hmulti⟩⟩
  | refresh source cid =>
    cases hsource : s.refreshable source cid with
    | none =>
      refine hkeep ?_ (hsame ?_ ?_ fun tid => ?_)
      · simp only [TakesItsOwn, hend, hsource]
        exact fun _ hnone => absurd hnone (by simp)
      · simp only [State.after, hsource]
      · simp only [State.after, hsource]
      · simp only [due, hend, hsource]
    | some token =>
      obtain ⟨hiff, hagrees⟩ := h.store (t := s.after cfg (.refresh source cid))
        (.refresh source cid) token.userId cid
        (fun tid => tid = source ∨ tid ∈ s.evicted cfg token.userId cid)
        (by simp only [State.after, hsource]; rfl) (by simp only [State.after, hsource]; rfl)
        (fun tid => by simp only [State.after, hsource])
        fun tid => by simp only [due, hend, hsource]
      refine ⟨hiff.trans ?_, hagrees⟩
      simp only [TakesItsOwn, hend, hsource, Option.some.injEq, forall_eq']
      have haccepts : s.Accepts source := ⟨cid, by rw [hsource]; rfl⟩
      constructor
      · intro hgone
        exact ⟨(hgone source haccepts).mpr (.inl rfl), fun tid htid => (hgone tid htid).mp⟩
      · rintro ⟨htaken, hothers⟩ tid htid
        refine ⟨hothers tid htid, ?_⟩
        rintro (rfl | hevicted)
        · exact htaken
        · exact evicted_outdated hmulti hevicted
  | invalidateTokens uid =>
    have hrow : ∀ tid token,
        (s.deleteTokens fun tid => (s.tokens.row tid).any fun token => token.userId == uid).tokens.row
          tid = some token ↔ s.tokens.row tid = some token ∧ token.userId ≠ uid := by
      intro tid token
      rw [State.row_deleteTokens]
      cases hold : s.tokens.row tid with
      | none => simp
      | some old =>
        by_cases hold' : old.userId = uid
        · simp [hold']
          rintro rfl
          exact hold'
        · simp [hold']
          rintro rfl
          exact hold'
    refine hkeep trivial ⟨fun tid token hlive => ?_, fun tid token htoken => ?_⟩
    · rw [show (s.after cfg (.invalidateTokens uid)).tokens.row tid = some token ↔
        s.tokens.row tid = some token ∧ token.userId ≠ uid from hrow tid token]
      simp only [due, Option.filter_eq_some_iff, bne_iff_ne]
      exact and_congr_left fun _ => h.same tid token hlive
    · exact h.issued tid token (Option.filter_eq_some_iff.mp htoken).1
  | cleanupOutdatedTokens =>
    refine hkeep trivial (h.keep (Nat.le_refl _) rfl (fun tid token hlive => ?_) fun _ => rfl)
    show (s.deleteTokens _).tokens.row tid = some token ↔ _
    rw [State.row_deleteTokens]
    cases hold : s.tokens.row tid with
    | none => simp
    | some old =>
      by_cases hout : old.refreshTokenExpiresAt < s.now
      · simp [hout]
        rintro rfl
        exact absurd hlive (Nat.not_lt.mpr (Nat.le_of_lt hout))
      · simp [hout]
  | advance seconds =>
    exact hkeep trivial (h.keep (Nat.le_add_right _ _) rfl (fun _ _ _ => Iff.rfl) fun _ => rfl)
  | request tid supportsTotp =>
    refine hkeep trivial (hsame ?_ ?_ fun _ => rfl) <;> simp only [State.after]
    · split
      · split <;> rfl
      · rfl
    · split
      · split <;> rfl
      · rfl
  | verify tid supportsTotp right =>
    refine hkeep trivial (hsame ?_ ?_ fun _ => rfl) <;>
      simp only [State.after, State.verifyWith] <;> repeat' split
    all_goals rfl
  | fallback tid =>
    refine hkeep trivial (hsame ?_ ?_ fun _ => rfl) <;> simp only [State.after]
    · split
      · split <;> rfl
      · rfl
    · split
      · split <;> rfl
      · rfl
  | setTotp uid hasTotp => exact hkeep trivial (hsame rfl rfl fun _ => rfl)
  | cleanupExpiredSessions => exact hkeep trivial (hsame rfl rfl fun _ => rfl)
  | cleanupUnverifiedSessions => exact hkeep trivial (hsame rfl rfl fun _ => rfl)
  | cleanupOutdatedSessions => exact hkeep trivial (hsame rfl rfl fun _ => rfl)

/-! ## Runs -/

/-- With several devices, exactly the refresh tokens are accepted that are due, as long as
a stored token takes away no other than its own. -/
theorem refresh_tokens_due (hmulti : cfg.enableMultiDeviceLogin = true) {h : List (Event × State)}
    (hrun : Trace (Step cfg) (fun _ _ => True) State.empty h s) :
    Every (AcceptsDue cfg) h ↔ Every (TakesItsOwn cfg) h := by
  refine Trace.every_iff (I := Agrees cfg) .empty (fun past u e v hagrees hend hstep => ?_) hrun
  obtain rfl := step_iff.mp hstep
  obtain ⟨hiff, hafter⟩ := hagrees.event hmulti hend e
  exact ⟨hiff, fun htakes => hafter (hiff.mpr htakes)⟩

/-- A login, and a refresh when the access token has expired. -/
def lateRefresh : List Event := [.refresh 1 5, .advance 90000, .login 1 5 true false]

theorem refresh_tokens_due_late : Every (AcceptsDue standard) (authRun lateRefresh) ∧
    ¬ (endState State.empty (authRun lateRefresh)).Accepts 1 ∧
      (endState State.empty (authRun lateRefresh)).Accepts 2 := by
  refine ⟨(refresh_tokens_due rfl (trace_authRun lateRefresh)).mpr ?_, ?_, ?_⟩
  · refine ⟨⟨⟨trivial, ?login⟩, trivial⟩, ?refresh⟩
    case login =>
      intro tid _ hmem
      have hnone : State.empty.outdated standard 1 5 = [] := by decide +kernel
      exact absurd (hnone ▸ hmem) (by simp)
    case refresh =>
      intro token htoken
      have hold : (endState State.empty (authRun (lateRefresh.drop 1))).refreshable 1 5 =
          some ⟨1, 5, 86400, 2592000, 0⟩ := by decide +kernel
      obtain rfl := Option.some.inj (hold.symm.trans htoken)
      have hown : (endState State.empty (authRun (lateRefresh.drop 1))).outdated standard 1 5 =
          [1] := by decide +kernel
      refine ⟨hown ▸ List.mem_singleton_self 1, fun tid _ hmem => .inl ?_⟩
      exact List.mem_singleton.mp (hown ▸ hmem)
  · rintro ⟨cid, hsome⟩
    have hnone : (endState State.empty (authRun lateRefresh)).tokens.row 1 = none := by
      decide +kernel
    simp [State.refreshable, hnone] at hsome
  · exact ⟨5, by decide +kernel⟩

/-- A login, and a refresh while the access token is still good. -/
def earlyRefresh : List Event := [.refresh 1 5, .login 1 5 true false]

theorem used_token_accepted : ∃ h s,
    Trace (Step standard) (fun _ _ => True) State.empty h s ∧ ¬ Every (AcceptsDue standard) h := by
  refine ⟨_, _, trace_authRun earlyRefresh, fun hevery => ?_⟩
  obtain ⟨token, hdue, -⟩ := (hevery.2 1).mp ⟨5, by decide +kernel⟩
  have hused : due standard (authRun earlyRefresh) 1 = none := by decide +kernel
  exact absurd (hused.symm.trans hdue) (by simp)

end Soms.Auth

import Mathlib.Tactic.IntervalCases
import Soms.Auth.Sessions

/-!
# The second factor

A token may pass when it comes, through refreshes, from a login that asked for no
verification or from a token that was verified by its required method.  What the
server looks at is whether the token has an unverified session.  The two agree as
long as no such session is lost before its token, no token without a session comes
from one that has to be verified, and no verification succeeds without its check.
-/

namespace Soms.Auth

variable (cfg : Settings)

namespace State

/-- An unverified session of a token that satisfies a condition. -/
def Pending (p : LoginSession → Prop) (uid : UserId) (tid : TokenId) (s : State) : Prop :=
  ∃ i x, s.sessions.row i = some x ∧ x.userId = uid ∧ x.tokenId = some tid ∧
    x.isVerified = false ∧ p x

/-- A request with the token passes `get_client_user`. -/
def Passes (s : State) (tid : TokenId) : Prop :=
  ∃ token, s.live tid = some token ∧ s.needsVerification cfg token.userId tid = false

/-- The method by which a token has to be verified: the one that the login or a
fallback chose. -/
def requiredMethod (uid : UserId) (tid : TokenId) (s : State) : Method :=
  s.chosenMethod true uid tid

/-- The key is checked by the method that is required of the token, and is right. -/
def VerifiedAsRequired (supportsTotp : Bool) (right : Method → Bool) (uid : UserId)
    (tid : TokenId) (s : State) : Prop :=
  s.chosenMethod supportsTotp uid tid = s.requiredMethod uid tid ∧
    verification cfg (s.requiredMethod uid tid) (s.hasTotp uid) right = .checked

end State

/-- The tokens that may pass after a history. -/
def Entitled : List (Event × State) → TokenId → Prop
  | [], _ => False
  | (e, _) :: past, tid =>
    let s := endState State.empty past
    Entitled past tid ∨
      match e with
      | .login uid _ supportsTotp trusted =>
        tid = s.tokens.next ∧ verificationMethod cfg supportsTotp trusted (s.hasTotp uid) = none
      | .refresh source cid =>
        tid = s.tokens.next ∧ (s.refreshable source cid).isSome ∧ Entitled past source
      | .verify tid' supportsTotp right =>
        tid = tid' ∧ ∃ token, s.live tid = some token ∧
          s.needsVerification cfg token.userId tid = true ∧
          s.VerifiedAsRequired cfg supportsTotp right token.userId tid
      | _ => False

/-- After the event, only tokens that may pass do. -/
def SecondFactor (past : List (Event × State)) (e : Event) (t : State) : Prop :=
  ∀ tid, t.Passes cfg tid → Entitled cfg ((e, t) :: past) tid

/-- The event gives no token a way around the verification. -/
def NoBypass (past : List (Event × State)) (e : Event) (_ : State) : Prop :=
  let s := endState State.empty past
  match e with
  | .refresh source cid =>
    0 < cfg.accessTokenExpire → (s.refreshable source cid).isSome → Entitled cfg past source
  | .verify tid supportsTotp right =>
    ∀ token, s.live tid = some token → s.needsVerification cfg token.userId tid = true →
      (verification cfg (s.chosenMethod supportsTotp token.userId tid) (s.hasTotp token.userId)
        right = .checked ∨
      verification cfg (s.chosenMethod supportsTotp token.userId tid) (s.hasTotp token.userId)
        right = .unchecked) →
      Entitled cfg past tid ∨ s.VerifiedAsRequired cfg supportsTotp right token.userId tid
  | .cleanupUnverifiedSessions =>
    ∀ tid token, s.live tid = some token → Entitled cfg past tid ∨
      s.Pending (fun x => s.now < x.expiresAt ∧ s.now ≤ x.createdAt + 3600) token.userId tid
  | .advance seconds =>
    ∀ tid token, s.tokens.row tid = some token → s.now + seconds < token.expiresAt →
      Entitled cfg past tid ∨ s.Pending (fun x => s.now + seconds < x.expiresAt) token.userId tid
  | _ => True

variable {cfg} {s t : State} {past : List (Event × State)} {e : Event} {uid uid' : UserId}
  {cid : ClientId} {tid tid' : TokenId}

/-! ## Pending sessions -/

section Pending

variable {p q : LoginSession → Prop}

theorem State.Pending.congr (h : t.sessions = s.sessions) (hs : s.Pending p uid tid) :
    t.Pending p uid tid := by
  obtain ⟨i, x, hrow, hx⟩ := hs
  exact ⟨i, x, h ▸ hrow, hx⟩

theorem pending_congr (h : ∀ x : LoginSession, x.isVerified = false → (p x ↔ q x)) :
    s.Pending p uid tid ↔ s.Pending q uid tid := by
  constructor
  · rintro ⟨i, x, hrow, huser, htoken, hverified, hx⟩
    exact ⟨i, x, hrow, huser, htoken, hverified, (h x hverified).mp hx⟩
  · rintro ⟨i, x, hrow, huser, htoken, hverified, hx⟩
    exact ⟨i, x, hrow, huser, htoken, hverified, (h x hverified).mpr hx⟩

theorem needsVerification_iff : s.needsVerification cfg uid tid = true ↔
    s.Pending (fun x => s.now < x.expiresAt) uid tid := by
  rw [State.needsVerification, cfg.verifies, Bool.true_and, List.any_eq_true]
  constructor
  · rintro ⟨⟨i, x⟩, hmem, hx⟩
    simp only [Bool.and_eq_true, beq_iff_eq, Bool.not_eq_true', decide_eq_true_eq] at hx
    obtain ⟨⟨⟨huser, hverified⟩, hlive⟩, htoken⟩ := hx
    exact ⟨i, x, Table.mem_toList.mp hmem, huser, htoken, hverified, hlive⟩
  · rintro ⟨i, x, hrow, huser, htoken, hverified, hlive⟩
    exact ⟨(i, x), Table.mem_toList.mpr hrow, by simp [huser, htoken, hverified, hlive]⟩

/-- A session keeps its token as long as the token is kept. -/
theorem State.Pending.deleteTokens {gone : TokenId → Bool} (hkept : gone tid = false)
    (hs : s.Pending p uid tid) : (s.deleteTokens gone).Pending p uid tid := by
  obtain ⟨i, x, hrow, huser, htoken, hverified, hx⟩ := hs
  refine ⟨i, x, ?_, huser, htoken, hverified, hx⟩
  show (s.sessions.row i).map _ = some x
  rw [hrow, Option.map_some, htoken, Option.any_some, hkept]
  rfl

theorem State.Pending.storeToken (hkept : tid ∉ s.outdated cfg uid' cid)
    (hs : s.Pending p uid tid) : (s.storeToken cfg uid' cid).Pending p uid tid := by
  have hdeleted : (s.deleteTokens fun k => decide (k ∈ s.outdated cfg uid' cid)).Pending p uid tid :=
    hs.deleteTokens (by simpa using hkept)
  exact hdeleted.congr rfl

/-- Verifying one token leaves the sessions of the others alone. -/
theorem State.Pending.markSessionVerified (hne : tid ≠ tid') (hs : s.Pending p uid tid) :
    (s.markSessionVerified uid' tid').Pending p uid tid := by
  obtain ⟨i, x, hrow, huser, htoken, hverified, hx⟩ := hs
  refine ⟨i, x, ?_, huser, htoken, hverified, hx⟩
  show (s.sessions.row i).map _ = some x
  rw [hrow, Option.map_some, if_neg fun h => hne (Option.some.inj (htoken.symm.trans h.2.2.2))]

theorem not_pending_markSessionVerified :
    ¬ (s.markSessionVerified uid tid).Pending (fun x => s.now < x.expiresAt) uid tid := by
  rintro ⟨i, x, hrow, huser, htoken, hverified, hlive⟩
  obtain ⟨y, -, hy⟩ := Option.map_eq_some_iff.mp hrow
  split at hy
  · subst hy
    exact Bool.noConfusion hverified
  · next hnot =>
    subst hy
    exact hnot ⟨huser, hverified, hlive, htoken⟩

theorem State.Pending.createSession {isVerified : Bool} (hs : s.Pending p uid tid) :
    (s.createSession uid' tid' isVerified).Pending p uid tid := by
  obtain ⟨i, x, hrow, hx⟩ := hs
  exact ⟨i, x, Table.row_insert_of_some hrow, hx⟩

theorem pending_createSession :
    (s.createSession uid tid false).Pending (fun x => s.now < x.expiresAt) uid tid := by
  refine ⟨s.sessions.next, ⟨uid, some tid, false, s.now, s.now + 86400⟩, ?_, rfl, rfl, rfl, ?_⟩
  · simp [State.createSession]
  · exact Nat.lt_add_of_pos_right (by decide)

theorem pending_filter {keep : LoginSession → Bool} :
    State.Pending p uid tid { s with sessions := s.sessions.filter keep } ↔
      s.Pending (fun x => p x ∧ keep x = true) uid tid := by
  constructor
  · rintro ⟨i, x, hrow, huser, htoken, hverified, hx⟩
    obtain ⟨hrow, hkeep⟩ := Option.filter_eq_some_iff.mp hrow
    exact ⟨i, x, hrow, huser, htoken, hverified, hx, hkeep⟩
  · rintro ⟨i, x, hrow, huser, htoken, hverified, hx, hkeep⟩
    exact ⟨i, x, Option.filter_eq_some_iff.mpr ⟨hrow, hkeep⟩, huser, htoken, hverified, hx⟩

end Pending

/-! ## What an event keeps -/

/-- The sessions are of tokens that were issued. -/
def State.Linked (s : State) : Prop :=
  ∀ i x tid, s.sessions.row i = some x → x.tokenId = some tid → tid < s.tokens.next

theorem State.Linked.map {f : LoginSession → LoginSession} (hs : s.Linked)
    (hsessions : t.sessions = s.sessions.map f) (hnext : s.tokens.next ≤ t.tokens.next)
    (hf : ∀ x tid, (f x).tokenId = some tid → x.tokenId = some tid) : t.Linked := by
  intro i y tid hrow htoken
  rw [hsessions] at hrow
  obtain ⟨x, hx, rfl⟩ := Option.map_eq_some_iff.mp hrow
  exact Nat.lt_of_lt_of_le (hs i x tid hx (hf x tid htoken)) hnext

theorem State.Linked.filter {keep : LoginSession → Bool} (hs : s.Linked) :
    State.Linked { s with sessions := s.sessions.filter keep } := by
  intro i x tid hrow htoken
  exact hs i x tid (Option.filter_eq_some_iff.mp hrow).1 htoken

theorem State.Linked.deleteTokens {gone : TokenId → Bool} (hs : s.Linked) :
    (s.deleteTokens gone).Linked := by
  refine hs.map rfl (Nat.le_refl _) fun x tid htoken => ?_
  split at htoken
  · simp at htoken
  · exact htoken

theorem State.Linked.storeToken (hs : s.Linked) : (s.storeToken cfg uid cid).Linked := by
  intro i x tid hrow htoken
  exact Nat.lt_succ_of_lt (hs.deleteTokens i x tid hrow htoken)

theorem State.Linked.markSessionVerified (hs : s.Linked) :
    (s.markSessionVerified uid tid).Linked := by
  refine hs.map rfl (Nat.le_refl _) fun x tid htoken => ?_
  split at htoken <;> exact htoken

theorem State.Linked.createSession {isVerified : Bool} (hs : s.Linked)
    (htid : tid < s.tokens.next) : (s.createSession uid tid isVerified).Linked := by
  intro i x tid' hrow htoken
  simp only [State.createSession, Table.row_insert] at hrow
  split at hrow
  · obtain rfl := Option.some.inj hrow
    obtain rfl := Option.some.inj htoken
    exact htid
  · exact hs i x tid' hrow htoken

theorem State.Linked.after (hs : s.Linked) (e : Event) : (s.after cfg e).Linked := by
  cases e with
  | login uid cid supportsTotp trusted =>
    have hnew : s.tokens.next < (s.storeToken cfg uid cid).tokens.next := Nat.lt_succ_self _
    simp only [State.after]
    split <;> split
    · exact hs.storeToken.markSessionVerified.createSession hnew
    · exact hs.storeToken.createSession hnew
    · exact hs.storeToken.markSessionVerified.createSession hnew
    · exact hs.storeToken.createSession hnew
  | refresh source cid =>
    simp only [State.after]
    split
    · exact hs.storeToken
    · exact hs
  | request tid supportsTotp =>
    simp only [State.after]
    split
    · split <;> exact hs
    · exact hs
  | verify tid supportsTotp right =>
    simp only [State.after, State.verifyWith]
    repeat' split
    all_goals first | exact hs | exact State.Linked.markSessionVerified hs
  | fallback tid =>
    simp only [State.after]
    split
    · split <;> exact hs
    · exact hs
  | invalidateTokens uid => exact hs.deleteTokens
  | setTotp uid hasTotp => exact hs
  | cleanupExpiredSessions => exact hs.filter
  | cleanupUnverifiedSessions => exact hs.filter
  | cleanupOutdatedTokens => exact hs.deleteTokens
  | cleanupOutdatedSessions => exact hs.filter
  | advance seconds => exact hs

/-- Keys of tokens are not given out twice. -/
theorem next_le_after (s : State) (e : Event) : s.tokens.next ≤ (s.after cfg e).tokens.next := by
  cases e with
  | login uid cid supportsTotp trusted =>
    simp only [State.after]
    split <;> split <;> exact Nat.le_succ _
  | refresh source cid =>
    simp only [State.after]
    split
    · exact Nat.le_succ _
    · exact Nat.le_refl _
  | request tid supportsTotp =>
    simp only [State.after]
    split
    · split <;> exact Nat.le_refl _
    · exact Nat.le_refl _
  | verify tid supportsTotp right =>
    simp only [State.after, State.verifyWith]
    repeat' split
    all_goals exact Nat.le_refl _
  | fallback tid =>
    simp only [State.after]
    split
    · split <;> exact Nat.le_refl _
    · exact Nat.le_refl _
  | _ => exact Nat.le_refl _

/-- A token entitled by an event was issued by then. -/
theorem issued_after (hissued : ∀ tid, Entitled cfg past tid → tid < s.tokens.next)
    (hend : endState State.empty past = s) (e : Event) :
    ∀ tid, Entitled cfg ((e, s.after cfg e) :: past) tid → tid < (s.after cfg e).tokens.next := by
  intro tid hentitled
  rcases hentitled with hbefore | hnow
  · exact Nat.lt_of_lt_of_le (hissued tid hbefore) (next_le_after s e)
  · rw [hend] at hnow
    cases e with
    | login uid cid supportsTotp trusted =>
      obtain ⟨rfl, -⟩ := hnow
      simp only [State.after]
      split <;> split <;> exact Nat.lt_succ_self _
    | refresh source cid =>
      obtain ⟨rfl, hsome, -⟩ := hnow
      obtain ⟨token, htoken⟩ := Option.isSome_iff_exists.mp hsome
      simp only [State.after, htoken]
      exact Nat.lt_succ_self _
    | verify tid' supportsTotp right =>
      obtain ⟨rfl, token, hlive, -⟩ := hnow
      exact Nat.lt_of_lt_of_le (Table.lt_next (State.live_eq_some.mp hlive).1)
        (next_le_after s _)
    | _ => exact hnow.elim

/-! ## Tokens that pass -/

/-- The token may pass, or has a session to verify. -/
def Covered (cfg : Settings) (h : List (Event × State)) (s : State) (uid : UserId)
    (tid : TokenId) : Prop :=
  Entitled cfg h tid ∨ s.Pending (fun x => s.now < x.expiresAt) uid tid

theorem secondFactor_iff : SecondFactor cfg past e t ↔
    ∀ tid token, t.live tid = some token → Covered cfg ((e, t) :: past) t token.userId tid := by
  constructor
  · intro h tid token hlive
    by_cases hneeds : t.needsVerification cfg token.userId tid = true
    · exact .inr (needsVerification_iff.mp hneeds)
    · exact .inl (h tid ⟨token, hlive, by simpa using hneeds⟩)
  · rintro h tid ⟨token, hlive, hneeds⟩
    rcases h tid token hlive with hentitled | hpending
    · exact hentitled
    · rw [needsVerification_iff.mpr hpending] at hneeds
      exact Bool.noConfusion hneeds

/-- What holds as long as only tokens that may pass do. -/
structure Guarded (cfg : Settings) (past : List (Event × State)) (s : State) : Prop where
  linked : s.Linked
  issued : ∀ tid, Entitled cfg past tid → tid < s.tokens.next
  covered : ∀ tid token, s.live tid = some token → Covered cfg past s token.userId tid

theorem Guarded.empty : Guarded cfg [] State.empty where
  linked := by
    intro i x tid hrow
    simp [State.empty] at hrow
  issued := fun tid hentitled => hentitled.elim
  covered := by
    intro tid token hlive
    simp [State.empty, State.live] at hlive

theorem Guarded.after (h : Guarded cfg past s) (hend : endState State.empty past = s)
    (hsecond : SecondFactor cfg past e (s.after cfg e)) :
    Guarded cfg ((e, s.after cfg e) :: past) (s.after cfg e) where
  linked := h.linked.after e
  issued := issued_after h.issued hend e
  covered := secondFactor_iff.mp hsecond

/-- Every token served after an event was served before and keeps its session, or may
pass or has a session now. -/
theorem Guarded.carry (h : Guarded cfg past s) (hnow : t.now = s.now)
    (hrow : ∀ tid token, t.live tid = some token →
      s.tokens.row tid = some token ∧ (s.Pending (fun x => s.now < x.expiresAt) token.userId tid →
        Covered cfg ((e, t) :: past) t token.userId tid) ∨
      Covered cfg ((e, t) :: past) t token.userId tid) : SecondFactor cfg past e t := by
  refine secondFactor_iff.mpr fun tid token hlive => ?_
  rcases hrow tid token hlive with ⟨hold, hkept⟩ | hnew
  · have hbefore : s.live tid = some token :=
      State.live_eq_some.mpr ⟨hold, hnow ▸ (State.live_eq_some.mp hlive).2⟩
    rcases h.covered tid token hbefore with hentitled | hpending
    · exact .inl (.inl hentitled)
    · exact hkept hpending
  · exact hnew

/-- An event that changes neither tokens nor sessions. -/
theorem Guarded.carry_same (h : Guarded cfg past s) (hnow : t.now = s.now)
    (htokens : t.tokens = s.tokens) (hsessions : t.sessions = s.sessions) :
    SecondFactor cfg past e t := by
  refine h.carry hnow fun tid token hlive => .inl ⟨?_, fun hpending => .inr ?_⟩
  · exact htokens ▸ (State.live_eq_some.mp hlive).1
  · rw [hnow]
    exact hpending.congr hsessions

/-- An event that deletes tokens. -/
theorem Guarded.carry_delete (h : Guarded cfg past s) (gone : TokenId → Bool) :
    SecondFactor cfg past e (s.deleteTokens gone) := by
  refine h.carry rfl fun tid token hlive => .inl ?_
  have hrow := (State.live_eq_some.mp hlive).1
  rw [State.row_deleteTokens] at hrow
  split at hrow
  · simp at hrow
  · next hkept => exact ⟨hrow, fun hpending => .inr (hpending.deleteTokens (by simpa using hkept))⟩

/-! ## Each event -/

theorem Guarded.login (h : Guarded cfg past s) (hend : endState State.empty past = s)
    {supportsTotp trusted : Bool} :
    SecondFactor cfg past (.login uid cid supportsTotp trusted)
      (s.after cfg (.login uid cid supportsTotp trusted)) := by
  obtain ⟨t, ht⟩ : ∃ t, t = s.after cfg (.login uid cid supportsTotp trusted) := ⟨_, rfl⟩
  obtain ⟨method, hmethod⟩ : ∃ method,
    method = verificationMethod cfg supportsTotp trusted (s.hasTotp uid) := ⟨_, rfl⟩
  have htokens : t.tokens = (s.storeToken cfg uid cid).tokens := by
    rw [ht]
    simp only [State.after]
    split <;> split <;> rfl
  have hnow : t.now = s.now := by
    rw [ht]
    simp only [State.after]
    split <;> split <;> rfl
  -- The sessions of before, and a new one that is to be verified if a method was chosen.
  have hkept : ∀ {p : LoginSession → Prop} {uid' : UserId} {tid : TokenId}, tid ≠ s.tokens.next →
      (s.storeToken cfg uid cid).Pending p uid' tid → t.Pending p uid' tid := by
    intro p uid' tid hne hpending
    rw [ht]
    simp only [State.after]
    split <;> split
    · exact (hpending.markSessionVerified hne).createSession.congr rfl
    · exact hpending.createSession.congr rfl
    · exact (hpending.markSessionVerified hne).createSession
    · exact hpending.createSession
  have hnew : method ≠ none → t.Pending (fun x => t.now < x.expiresAt) uid s.tokens.next := by
    intro hsome
    rw [ht]
    simp only [State.after, ← hmethod, Option.isSome_iff_ne_none.mpr hsome, hsome, false_and,
      if_false, if_true]
    have hnone : method.isNone = false := by
      rw [Option.isNone_eq_false_iff]
      exact Option.isSome_iff_ne_none.mpr hsome
    rw [hnone]
    exact State.Pending.congr rfl pending_createSession
  rw [← ht]
  refine h.carry hnow fun tid token hlive => ?_
  have hrow := (State.live_eq_some.mp hlive).1
  rw [htokens, State.row_storeToken] at hrow
  split at hrow
  · next htid =>
    subst htid
    obtain rfl := Option.some.inj hrow
    refine .inr ?_
    by_cases hnone : method = none
    · refine .inl (.inr ?_)
      rw [hend]
      exact ⟨rfl, hmethod.symm.trans hnone⟩
    · exact .inr (hnew hnone)
  · next hne =>
    split at hrow
    · simp at hrow
    · next hin =>
      refine .inl ⟨hrow, fun hpending => .inr ?_⟩
      rw [hnow]
      exact hkept hne (hpending.storeToken hin)

theorem Guarded.refresh (h : Guarded cfg past s) (hend : endState State.empty past = s)
    {source : TokenId} :
    SecondFactor cfg past (.refresh source cid) (s.after cfg (.refresh source cid)) ↔
      (0 < cfg.accessTokenExpire → (s.refreshable source cid).isSome →
        Entitled cfg past source) := by
  cases hsource : s.refreshable source cid with
  | none =>
    simp only [State.after, hsource, Option.isSome_none, Bool.false_eq_true, false_imp_iff,
      implies_true, iff_true]
    exact h.carry_same rfl rfl rfl
  | some old =>
    obtain ⟨t, ht⟩ : ∃ t, t = s.storeToken cfg old.userId cid := ⟨_, rfl⟩
    simp only [State.after, hsource, Option.isSome_some, true_imp_iff]
    rw [← ht]
    constructor
    · intro hsecond haccess
      have hlive : t.live s.tokens.next = some ⟨old.userId, cid, s.now + cfg.accessTokenExpire,
          s.now + cfg.refreshTokenExpire, s.now⟩ := by
        rw [State.live_eq_some, ht, State.row_storeToken, if_pos rfl]
        exact ⟨rfl, Nat.lt_add_of_pos_right haccess⟩
      rcases secondFactor_iff.mp hsecond _ _ hlive with (hbefore | hnow) | hpending
      · exact absurd (h.issued _ hbefore) (Nat.lt_irrefl _)
      · exact hnow.2.2
      · -- The new token has no session.
        obtain ⟨i, x, hrow, -, htoken, -⟩ := hpending
        rw [ht] at hrow
        obtain ⟨y, hy, hxy⟩ := Option.map_eq_some_iff.mp hrow
        have hold : y.tokenId = some s.tokens.next := by
          split at hxy
          · rw [← hxy] at htoken
            simp at htoken
          · rw [hxy]
            exact htoken
        exact absurd (h.linked i y _ hy hold) (Nat.lt_irrefl _)
    · intro hentitled
      refine h.carry (by rw [ht]; rfl) fun tid token hlive => ?_
      obtain ⟨hrow, hexpires⟩ := State.live_eq_some.mp hlive
      rw [ht, State.row_storeToken] at hrow
      split at hrow
      · next htid =>
        subst htid
        obtain rfl := Option.some.inj hrow
        rw [ht] at hexpires
        have haccess : 0 < cfg.accessTokenExpire := Nat.lt_add_right_iff_pos.mp hexpires
        refine .inr (.inl (.inr ?_))
        rw [hend]
        exact ⟨rfl, by rw [hsource]; rfl, hentitled haccess⟩
      · split at hrow
        · simp at hrow
        · next hin =>
          refine .inl ⟨hrow, fun hpending => .inr ?_⟩
          rw [ht]
          exact hpending.storeToken hin

/-- A verification succeeds. -/
def State.Succeeds (cfg : Settings) (s : State) (supportsTotp : Bool) (right : Method → Bool)
    (uid : UserId) (tid : TokenId) : Prop :=
  verification cfg (s.chosenMethod supportsTotp uid tid) (s.hasTotp uid) right = .checked ∨
    verification cfg (s.chosenMethod supportsTotp uid tid) (s.hasTotp uid) right = .unchecked

section Verify

variable {supportsTotp : Bool} {right : Method → Bool}

theorem verifyWith_frame : (s.verifyWith cfg supportsTotp right uid tid).tokens = s.tokens ∧
    (s.verifyWith cfg supportsTotp right uid tid).now = s.now := by
  simp only [State.verifyWith]
  repeat' split
  all_goals exact ⟨rfl, rfl⟩

theorem verifyWith_succeeds (h : s.Succeeds cfg supportsTotp right uid tid) :
    (s.verifyWith cfg supportsTotp right uid tid).sessions =
      (s.markSessionVerified uid tid).sessions := by
  rcases h with hresult | hresult <;> cases supportsTotp <;>
    simp only [State.verifyWith, Bool.false_eq_true, if_false, if_true,
      State.hasTotp_setLoginMethod, hresult] <;> rfl

theorem verifyWith_fails (h : ¬ s.Succeeds cfg supportsTotp right uid tid) :
    (s.verifyWith cfg supportsTotp right uid tid).sessions = s.sessions := by
  cases hresult : verification cfg (s.chosenMethod supportsTotp uid tid) (s.hasTotp uid) right with
  | checked => exact absurd (.inl hresult) h
  | unchecked => exact absurd (.inr hresult) h
  | switched | refused =>
    cases supportsTotp <;>
      simp only [State.verifyWith, Bool.false_eq_true, if_false, if_true,
        State.hasTotp_setLoginMethod, hresult] <;> rfl

theorem Guarded.verify (h : Guarded cfg past s) (hend : endState State.empty past = s) :
    SecondFactor cfg past (.verify tid supportsTotp right)
      (s.after cfg (.verify tid supportsTotp right)) ↔
      ∀ token, s.live tid = some token → s.needsVerification cfg token.userId tid = true →
        s.Succeeds cfg supportsTotp right token.userId tid →
          Entitled cfg past tid ∨ s.VerifiedAsRequired cfg supportsTotp right token.userId tid := by
  cases hlive : s.live tid with
  | none =>
    simp only [State.after, hlive]
    exact iff_of_true (h.carry_same rfl rfl rfl) fun _ hsome => Option.noConfusion rfl (heq_of_eq hsome)
  | some token =>
    simp only [State.after, hlive, Option.some.injEq, forall_eq']
    by_cases hneeds : s.needsVerification cfg token.userId tid = true
    · rw [if_pos hneeds]
      obtain ⟨htokens, hnow⟩ := @verifyWith_frame cfg s token.userId tid supportsTotp right
      by_cases hsuccess : s.Succeeds cfg supportsTotp right token.userId tid
      · have hsessions := verifyWith_succeeds hsuccess
        simp only [hneeds, hsuccess, true_imp_iff]
        obtain ⟨t, ht⟩ : ∃ t, t = s.verifyWith cfg supportsTotp right token.userId tid := ⟨_, rfl⟩
        rw [← ht] at htokens hnow hsessions ⊢
        constructor
        · intro hsecond
          have hserved : t.live tid = some token := by
            rw [State.live_eq_some, htokens, hnow]
            exact State.live_eq_some.mp hlive
          rcases secondFactor_iff.mp hsecond tid token hserved with (hbefore | hnew) | hpending
          · exact .inl hbefore
          · obtain ⟨-, other, hother, -, hverified⟩ := hnew
            rw [hend] at hother hverified
            obtain rfl := Option.some.inj (hlive.symm.trans hother)
            exact .inr hverified
          · rw [hnow] at hpending
            exact absurd (hpending.congr hsessions.symm) not_pending_markSessionVerified
        · intro hentitled
          refine h.carry hnow fun tid' other hserved => ?_
          have hrow := (State.live_eq_some.mp hserved).1
          rw [htokens] at hrow
          by_cases htid : tid' = tid
          · subst htid
            refine .inr (.inl ?_)
            rcases hentitled with hbefore | hverified
            · exact .inl hbefore
            · refine .inr ⟨rfl, token, ?_⟩
              rw [hend]
              exact ⟨hlive, hneeds, hverified⟩
          · refine .inl ⟨hrow, fun hpending => .inr ?_⟩
            rw [hnow]
            exact (hpending.markSessionVerified htid).congr hsessions
      · refine iff_of_true (h.carry_same hnow htokens (verifyWith_fails hsuccess)) ?_
        exact fun _ hsome => absurd hsome hsuccess
    · rw [if_neg hneeds]
      exact iff_of_true (h.carry_same rfl rfl rfl) fun hyes => absurd hyes hneeds

end Verify

/-- A cleanup of sessions lets in the tokens whose sessions it does not keep. -/
theorem secondFactor_filter {keep : LoginSession → Bool} (e : Event)
    (hclean : ∀ tid, Entitled cfg ((e, { s with sessions := s.sessions.filter keep }) :: past) tid ↔
      Entitled cfg past tid) :
    SecondFactor cfg past e { s with sessions := s.sessions.filter keep } ↔
      ∀ tid token, s.live tid = some token → Entitled cfg past tid ∨
        s.Pending (fun x => s.now < x.expiresAt ∧ keep x = true) token.userId tid := by
  rw [secondFactor_iff]
  refine forall_congr' fun tid => forall_congr' fun token => imp_congr_right fun _ => ?_
  rw [Covered, hclean]
  exact or_congr Iff.rfl pending_filter

/-- A cleanup that keeps the sessions that are still good. -/
theorem Guarded.filter {keep : LoginSession → Bool} (h : Guarded cfg past s) (e : Event)
    (hclean : ∀ tid, Entitled cfg ((e, { s with sessions := s.sessions.filter keep }) :: past) tid ↔
      Entitled cfg past tid)
    (hkeep : ∀ x : LoginSession, x.isVerified = false → s.now < x.expiresAt → keep x = true) :
    SecondFactor cfg past e { s with sessions := s.sessions.filter keep } := by
  refine (secondFactor_filter e hclean).mpr fun tid token hlive => ?_
  refine (h.covered tid token hlive).imp_right fun hpending => ?_
  exact (pending_congr fun x hx => ⟨fun hgood => ⟨hgood, hkeep x hx hgood⟩, And.left⟩).mp hpending

/-- The passing of time lets in the tokens whose sessions expire first. -/
theorem secondFactor_advance {seconds : Time} :
    SecondFactor cfg past (.advance seconds) (s.after cfg (.advance seconds)) ↔
      ∀ tid token, s.tokens.row tid = some token → s.now + seconds < token.expiresAt →
        Entitled cfg past tid ∨
          s.Pending (fun x => s.now + seconds < x.expiresAt) token.userId tid := by
  rw [secondFactor_iff]
  refine forall_congr' fun tid => forall_congr' fun token => ?_
  rw [State.live_eq_some, and_imp]
  refine imp_congr_right fun _ => imp_congr_right fun _ => or_congr ?_ Iff.rfl
  exact or_iff_left id

theorem Guarded.event (h : Guarded cfg past s) (hend : endState State.empty past = s) (e : Event) :
    SecondFactor cfg past e (s.after cfg e) ↔ NoBypass cfg past e (s.after cfg e) := by
  unfold NoBypass
  rw [hend]
  cases e with
  | login uid cid supportsTotp trusted => exact iff_of_true (h.login hend) trivial
  | refresh source cid => exact h.refresh hend
  | verify tid supportsTotp right => exact h.verify hend
  | advance seconds => exact secondFactor_advance
  | cleanupUnverifiedSessions =>
    refine Iff.trans (secondFactor_filter _ fun tid => or_iff_left id) ?_
    refine forall_congr' fun tid => forall_congr' fun token => imp_congr_right fun _ => ?_
    refine or_congr Iff.rfl (pending_congr fun x hx => ?_)
    simp [hx]
  | request tid supportsTotp =>
    refine iff_of_true ?_ trivial
    simp only [State.after]
    split
    · split <;> exact h.carry_same rfl rfl rfl
    · exact h.carry_same rfl rfl rfl
  | fallback tid =>
    refine iff_of_true ?_ trivial
    simp only [State.after]
    split
    · split <;> exact h.carry_same rfl rfl rfl
    · exact h.carry_same rfl rfl rfl
  | setTotp uid hasTotp => exact iff_of_true (h.carry_same rfl rfl rfl) trivial
  | invalidateTokens uid => exact iff_of_true (h.carry_delete _) trivial
  | cleanupOutdatedTokens => exact iff_of_true (h.carry_delete _) trivial
  | cleanupExpiredSessions =>
    refine iff_of_true (h.filter _ (fun tid => or_iff_left id) fun x hx hgood => ?_) trivial
    simpa [hx] using Nat.le_of_lt hgood
  | cleanupOutdatedSessions =>
    refine iff_of_true (h.filter _ (fun tid => or_iff_left id) fun x hx _ => ?_) trivial
    simp [hx]

/-! ## Runs -/

/-- In a run, only tokens that may pass do as long as no event gives a token a way
around the verification. -/
theorem second_factor_required {h : List (Event × State)}
    (hrun : Trace (Step cfg) (fun _ _ => True) State.empty h s) :
    Every (SecondFactor cfg) h ↔ Every (NoBypass cfg) h := by
  refine Trace.every_iff (I := Guarded cfg) .empty (fun past u e v hguarded hend hstep => ?_) hrun
  obtain rfl := step_iff.mp hstep
  have hevent := hguarded.event hend e
  exact ⟨hevent, fun hno => hguarded.after hend (hevent.mpr hno)⟩

/-- User 1 logs in from a new device, verifies the session by mail and refreshes the
token an hour later. -/
def verifiedLogin : List Event :=
  [.refresh 1 5, .advance 3600, .verify 1 true (· = .mail), .request 1 true, .login 1 5 true false]

theorem second_factor_required_verified :
    Every (SecondFactor standard) (authRun verifiedLogin) ∧
      (endState State.empty (authRun verifiedLogin)).Passes standard 2 := by
  have hverified : Entitled standard (authRun (verifiedLogin.drop 2)) 1 := by
    refine .inr ⟨rfl, ⟨1, 5, 86400, 2592000, 0⟩, ?_⟩
    refine ⟨by decide +kernel, by decide +kernel, by decide +kernel, by decide +kernel⟩
  refine ⟨(second_factor_required (trace_authRun verifiedLogin)).mpr ?_, ?_⟩
  · refine ⟨⟨⟨⟨⟨trivial, ?hlogin⟩, ?hrequest⟩, ?hverify⟩, ?hadvance⟩, ?hrefresh⟩
    case hlogin | hrequest => trivial
    case hverify =>
      intro token hlive _ _
      obtain rfl : token = ⟨1, 5, 86400, 2592000, 0⟩ :=
        Option.some.inj (hlive.symm.trans (by decide +kernel))
      exact .inr ⟨by decide +kernel, by decide +kernel⟩
    case hadvance =>
      -- The first token is the only one.
      intro tid token hrow _
      have hlt : tid < 2 := Table.lt_next hrow
      interval_cases tid
      · have hnone : (endState State.empty (authRun (verifiedLogin.drop 2))).tokens.row 0 = none := by
          decide +kernel
        exact absurd (hnone.symm.trans hrow) (by simp)
      · exact .inl hverified
    case hrefresh => exact fun _ _ => .inl hverified
  · exact ⟨⟨1, 5, 90000, 2595600, 3600⟩, by decide +kernel, by decide +kernel⟩

/-- User 1, who has set up TOTP, logs in and refreshes the token without a verification. -/
def bypassedLogin : List Event :=
  [.refresh 1 5, .login 1 5 true false, .setTotp 1 true]

theorem refreshed_token_passes :
    ∃ h s, Trace (Step standard) (fun _ _ => True) State.empty h s ∧
      ¬ Every (SecondFactor standard) h := by
  refine ⟨_, _, trace_authRun bypassedLogin, fun hevery => ?_⟩
  have hpasses : (endState State.empty (authRun bypassedLogin)).Passes standard 2 :=
    ⟨⟨1, 5, 86400, 2592000, 0⟩, by decide +kernel, by decide +kernel⟩
  have hnever : ∀ tid, ¬ Entitled standard (authRun (bypassedLogin.drop 1)) tid := by
    rintro tid ((hnone | hnone) | ⟨-, hnone⟩)
    · exact hnone
    · exact hnone
    · exact absurd hnone (by decide +kernel)
  rcases hevery.2 2 hpasses with hbefore | ⟨-, -, hsource⟩
  · exact hnever 2 hbefore
  · exact hnever 1 hsource

end Soms.Auth

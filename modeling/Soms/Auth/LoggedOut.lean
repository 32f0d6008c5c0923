import Mathlib.Tactic.IntervalCases
import Soms.Auth.Redeem

/-!
# A password reset logs everyone out

What was obtained with an older password is on its way out as long as a reset is to
read it or has read it.  That is kept in every run in which nothing obtained with an
older password is stored too late for the reset, and no reset stops on its way.
-/

namespace Soms.Auth.Account

/-- A reset that still deletes a token. -/
def Stage.deletesToken (tid : TokenId) : Stage → Prop
  | .changed => True
  | .selected tokens => tid ∈ tokens
  | _ => False

/-- A reset that still reads the sessions of its user. -/
def Stage.readsSessions : Stage → Prop
  | .changed => True
  | .selected _ => True
  | .loggedOut => True
  | _ => False

/-- A reset that still deletes a session. -/
def Stage.deletesSession (sid : SessionId) : Stage → Prop
  | .read digests => sid ∈ digests
  | stage => stage.readsSessions

/-- A reset of a user's password is at a stage. -/
def State.ResetAt (uid : UserId) (P : Stage → Prop) (s : State) : Prop :=
  ∃ r data stage, s.phase r = .resetting data stage ∧ data.userId = uid ∧ P stage

/-- The token is accepted, by itself or for a refresh. -/
def State.TokenAccepted (s : State) (token : Token) : Prop :=
  s.now < token.expiresAt ∨ s.now < token.refreshTokenExpiresAt

/-- When no reset of a user's password is in progress, what is accepted for the user was
obtained with the password in force. -/
def State.LoggedOut (s : State) : Prop :=
  ∀ uid, ¬ s.ResetAt uid (fun _ => True) →
    (∀ tid token, s.tokens.row tid = some token → token.userId = uid → s.TokenAccepted token →
      token.proven = s.password uid) ∧
    ∀ sid x, s.sessions.row sid = some x → x.userId = uid → s.now < x.expiresAt →
      x.proven = s.password uid

/-- What the event stores is in time for the resets, and no reset stops too early. -/
def InTime (s : State) : Event → Prop
  | .store r _ => ∀ uid proven, s.phase r = .granting uid proven →
      proven = s.password uid ∨ s.ResetAt uid (· = .changed)
  | .setSession r => ∀ uid proven, s.phase r = .opening uid proven →
      proven = s.password uid ∨ s.ResetAt uid Stage.readsSessions
  | .readMembers r => ∀ data, s.phase r = .resetting data .loggedOut →
      ∀ sid x, s.sessions.row sid = some x → x.userId = data.userId → s.now < x.expiresAt →
        x.proven ≠ s.password data.userId → sid ∈ (s.membership data.userId).digests ∨
          ∃ r' data' stage, r' ≠ r ∧ s.phase r' = .resetting data' stage ∧
            data'.userId = data.userId ∧ stage.readsSessions
  | .fail r => ∀ data stage, s.phase r = .resetting data stage →
      ∀ sid, ¬ stage.deletesSession sid
  | .crash r => ∀ data stage, s.phase r = .resetting data stage →
      ∀ sid, ¬ stage.deletesSession sid
  | _ => True

/-- What was obtained with an older password is still to be deleted by a reset. -/
structure OnTheWayOut (s : State) : Prop where
  tokens : ∀ tid token, s.tokens.row tid = some token → token.proven ≠ s.password token.userId →
    s.ResetAt token.userId (Stage.deletesToken tid)
  sessions : ∀ sid x, s.sessions.row sid = some x → s.now < x.expiresAt →
    x.proven ≠ s.password x.userId → s.ResetAt x.userId (Stage.deletesSession sid)

variable {site : Site} {s t : State} {r : RequestId} {p : Phase} {data : ResetData}
  {uid : UserId} {P Q : Stage → Prop}

theorem State.ResetAt.mono (hPQ : ∀ stage, P stage → Q stage) (h : s.ResetAt uid P) :
    s.ResetAt uid Q := by
  obtain ⟨r, data, stage, hr, huser, hP⟩ := h
  exact ⟨r, data, stage, hr, huser, hPQ stage hP⟩

/-- Another request goes on, or the one that is at the stage stays at it. -/
theorem State.ResetAt.update (h : s.ResetAt uid P) (hphase : t.phase = Function.update s.phase r p)
    (hkept : ∀ data stage, s.phase r = .resetting data stage → data.userId = uid → P stage →
      ∃ stage', p = .resetting data stage' ∧ P stage') : t.ResetAt uid P := by
  obtain ⟨r', data, stage, hr', huser, hP⟩ := h
  by_cases hr : r' = r
  · subst hr
    obtain ⟨stage', hp, hP'⟩ := hkept data stage hr' huser hP
    exact ⟨r', data, stage', by rw [hphase, Function.update_self, hp], huser, hP'⟩
  · exact ⟨r', data, stage, by rw [hphase, Function.update_of_ne hr, hr'], huser, hP⟩

theorem State.deletesSession_of_reads {stage : Stage} (sid : SessionId)
    (h : stage.readsSessions) : stage.deletesSession sid := by
  cases stage <;> first | exact h | exact h.elim

theorem OnTheWayOut.loggedOut (h : OnTheWayOut s) : s.LoggedOut := by
  intro uid hidle
  refine ⟨fun tid token hrow huser _ => ?_, fun sid x hrow huser hlive => ?_⟩
  · by_contra hold
    subst huser
    exact hidle ((h.tokens tid token hrow hold).mono fun _ _ => trivial)
  · by_contra hold
    subst huser
    exact hidle ((h.sessions sid x hrow hlive hold).mono fun _ _ => trivial)

theorem OnTheWayOut.empty : OnTheWayOut State.empty where
  tokens := by simp [State.empty]
  sessions := by simp [State.empty]

/-- A request goes on that no token and no session waits for. -/
theorem OnTheWayOut.aside (h : OnTheWayOut s) (hphase : t.phase = Function.update s.phase r p)
    (hpassword : t.password = s.password) (hnow : s.now ≤ t.now)
    (htokens : ∀ tid token, t.tokens.row tid = some token →
      s.tokens.row tid = some token ∨ token.proven = t.password token.userId ∨
        t.ResetAt token.userId (Stage.deletesToken tid))
    (hsessions : ∀ sid x, t.sessions.row sid = some x →
      s.sessions.row sid = some x ∨ x.proven = t.password x.userId ∨
        t.ResetAt x.userId (Stage.deletesSession sid))
    (hr : ∀ data stage, s.phase r = .resetting data stage → ∀ sid, ¬ stage.deletesSession sid) :
    OnTheWayOut t where
  tokens := by
    intro tid token hrow hold
    rcases htokens tid token hrow with hbefore | hcurrent | hnew
    · refine (h.tokens tid token hbefore (hpassword ▸ hold)).update hphase ?_
      intro data stage hstage _ hdeletes
      refine absurd ?_ (hr data stage hstage 0)
      cases stage <;> first | exact hdeletes.elim | exact trivial
    · exact absurd hcurrent hold
    · exact hnew
  sessions := by
    intro sid x hrow hlive hold
    rcases hsessions sid x hrow with hbefore | hcurrent | hnew
    · refine (h.sessions sid x hbefore (Nat.lt_of_le_of_lt hnow hlive) (hpassword ▸ hold)).update
        hphase ?_
      exact fun data stage hstage _ hdeletes => absurd hdeletes (hr data stage hstage sid)
    · exact absurd hcurrent hold
    · exact hnew

/-- A reset goes on from one stage to the next. -/
theorem OnTheWayOut.next (h : OnTheWayOut s) {stage stage' : Stage}
    (hphase : t.phase = Function.update s.phase r (.resetting data stage'))
    (hpassword : t.password = s.password) (hnow : t.now = s.now)
    (hr : s.phase r = .resetting data stage)
    (htokens : ∀ tid token, t.tokens.row tid = some token → s.tokens.row tid = some token ∧
      (token.userId = data.userId → stage.deletesToken tid → stage'.deletesToken tid))
    (hsessions : ∀ sid x, t.sessions.row sid = some x → s.sessions.row sid = some x ∧
      (x.userId = data.userId → s.now < x.expiresAt → x.proven ≠ s.password x.userId →
        stage.deletesSession sid → stage'.deletesSession sid ∨
          t.ResetAt x.userId (Stage.deletesSession sid))) :
    OnTheWayOut t where
  tokens := by
    intro tid token hrow hold
    obtain ⟨hbefore, hkept⟩ := htokens tid token hrow
    refine (h.tokens tid token hbefore (hpassword ▸ hold)).update hphase ?_
    intro data' stage'' hstage huser hdeletes
    obtain ⟨rfl, rfl⟩ := Phase.resetting.inj (hr.symm.trans hstage)
    exact ⟨stage', rfl, hkept huser.symm hdeletes⟩
  sessions := by
    intro sid x hrow hlive hold
    obtain ⟨hbefore, hkept⟩ := hsessions sid x hrow
    rw [hnow] at hlive
    rw [hpassword] at hold
    have hreset := h.sessions sid x hbefore hlive hold
    by_cases hmoved : t.ResetAt x.userId (Stage.deletesSession sid)
    · exact hmoved
    · refine hreset.update hphase ?_
      intro data' stage'' hstage huser hdeletes
      obtain ⟨rfl, rfl⟩ := Phase.resetting.inj (hr.symm.trans hstage)
      exact ⟨stage', rfl, (hkept huser.symm hlive hold hdeletes).resolve_right hmoved⟩

/-- A new password is committed: whatever the user has is from an older one. -/
theorem OnTheWayOut.commit (h : OnTheWayOut s) (hr : s.phase r = .resetting data .checked)
    (hphase : t.phase = Function.update s.phase r (.resetting data .changed))
    (hpassword : t.password =
      Function.update s.password data.userId (s.password data.userId + 1))
    (hnow : t.now = s.now) (htokens : t.tokens = s.tokens) (hsessions : t.sessions = s.sessions) :
    OnTheWayOut t := by
  have hchanged : ∀ {P : Stage → Prop}, P .changed → t.ResetAt data.userId P := fun hP =>
    ⟨r, data, .changed, by rw [hphase, Function.update_self], rfl, hP⟩
  have hother : ∀ {uid' : UserId} {P : Stage → Prop}, ¬ P .checked → s.ResetAt uid' P →
      t.ResetAt uid' P := by
    intro uid' P hP hreset
    refine hreset.update hphase fun data' stage hstage _ hstageP => ?_
    obtain ⟨-, rfl⟩ := Phase.resetting.inj (hr.symm.trans hstage)
    exact absurd hstageP hP
  constructor
  case tokens =>
    intro tid token hrow hold
    rw [htokens] at hrow
    by_cases huser : token.userId = data.userId
    · rw [huser]
      exact hchanged trivial
    · rw [hpassword, Function.update_of_ne huser] at hold
      exact hother (fun hfalse => hfalse) (h.tokens tid token hrow hold)
  case sessions =>
    intro sid x hrow hlive hold
    rw [hsessions] at hrow
    rw [hnow] at hlive
    by_cases huser : x.userId = data.userId
    · rw [huser]
      exact hchanged trivial
    · rw [hpassword, Function.update_of_ne huser] at hold
      exact hother (fun hfalse => hfalse) (h.sessions sid x hrow hlive hold)

theorem OnTheWayOut.after (h : OnTheWayOut s) {e : Event} (hin : InTime s e) :
    OnTheWayOut (s.after site e) := by
  -- Requests other than resets keep nothing waiting.
  have hother : ∀ {r : RequestId} {p : Phase}, s.phase r = p →
      (∀ data stage, p ≠ .resetting data stage) → ∀ data stage, s.phase r = .resetting data stage →
        ∀ sid, ¬ stage.deletesSession sid :=
    fun hr hp data stage hstage => absurd (hr.symm.trans hstage) (hp data stage)
  have hquiet : ∀ {r : RequestId} {data : ResetData} {stage : Stage},
      s.phase r = .resetting data stage → (∀ sid, ¬ stage.deletesSession sid) →
        ∀ data' stage', s.phase r = .resetting data' stage' → ∀ sid, ¬ stage'.deletesSession sid := by
    intro r data stage hr hstage data' stage' hr'
    obtain ⟨-, rfl⟩ := Phase.resetting.inj (hr.symm.trans hr')
    exact hstage
  have hmove : ∀ {t : State} {r : RequestId} {p : Phase}, t.phase = Function.update s.phase r p →
      t.password = s.password → t.now = s.now → t.tokens = s.tokens → t.sessions = s.sessions →
      (∀ data stage, s.phase r = .resetting data stage → ∀ sid, ¬ stage.deletesSession sid) →
        OnTheWayOut t :=
    fun hphase hpassword hnow htokens hsessions hr =>
      h.aside hphase hpassword (Nat.le_of_eq hnow.symm)
        (fun tid token hrow => .inl (htokens ▸ hrow)) (fun sid x hrow => .inl (hsessions ▸ hrow)) hr
  cases e with
  | issue email code =>
    simp only [State.after]
    split
    · exact ⟨h.tokens, h.sessions⟩
    · exact h
  | dropCode email => exact ⟨h.tokens, h.sessions⟩
  | prove r uid =>
    simp only [State.after]
    split
    · next hidle => exact hmove rfl rfl rfl rfl rfl (hother hidle (by simp))
    · exact h
  | find r tid =>
    simp only [State.after]
    split
    · next hidle => split <;> exact hmove rfl rfl rfl rfl rfl (hother hidle (by simp))
    · exact h
  | store r outdated =>
    simp only [State.after]
    split
    · next uid proven hphase =>
      have hr := hother hphase (by simp)
      refine h.aside rfl rfl (Nat.le_refl _) ?_ (fun sid x hrow => .inl hrow) hr
      intro tid token hrow
      simp only [State.setPhase, Table.row_insert] at hrow
      split at hrow
      · obtain rfl := Option.some.inj hrow
        refine .inr ((hin uid proven hphase).imp id fun hreset => ?_)
        refine (hreset.mono (Q := Stage.deletesToken tid) ?_).update rfl ?_
        · rintro _ rfl
          exact trivial
        · exact fun data stage hstage => absurd (hphase.symm.trans hstage) (by simp)
      · exact .inl (Option.filter_eq_some_iff.mp hrow).1
    · exact h
  | proveWeb r uid =>
    simp only [State.after]
    split
    · next hidle => exact hmove rfl rfl rfl rfl rfl (hother hidle (by simp))
    · exact h
  | setSession r =>
    simp only [State.after]
    split
    · next uid proven hphase =>
      have hr := hother hphase (by simp)
      refine h.aside rfl rfl (Nat.le_refl _) (fun tid token hrow => .inl hrow) ?_ hr
      intro sid x hrow
      simp only [State.setPhase, Table.row_insert] at hrow
      split at hrow
      · obtain rfl := Option.some.inj hrow
        refine .inr ((hin uid proven hphase).imp id fun hreset => ?_)
        refine (hreset.mono (Q := Stage.deletesSession sid) ?_).update rfl ?_
        · exact fun stage => State.deletesSession_of_reads sid
        · exact fun data stage hstage => absurd (hphase.symm.trans hstage) (by simp)
      · exact .inl hrow
    · exact h
  | addMember r =>
    simp only [State.after]
    split
    · next hphase => exact hmove rfl rfl rfl rfl rfl (hother hphase (by simp))
    · exact h
  | expireMembers r =>
    simp only [State.after]
    split
    · next hphase => exact hmove rfl rfl rfl rfl rfl (hother hphase (by simp))
    · exact h
  | check r email code longEnough =>
    simp only [State.after]
    split
    · next hidle => split <;> exact hmove rfl rfl rfl rfl rfl (hother hidle (by simp))
    · exact h
  | commitPassword r =>
    rw [State.after]
    exact atStage_elim h fun data hr => h.commit hr rfl rfl rfl rfl rfl
  | selectTokens r =>
    rw [State.after]
    refine atStage_elim h fun data hr => h.next rfl rfl rfl hr ?_ ?_
    · intro tid token hrow
      refine ⟨hrow, fun huser _ => ?_⟩
      exact List.mem_map.mpr ⟨(tid, token), List.mem_filter.mpr ⟨Table.mem_toList.mpr hrow,
        by simpa using huser⟩, rfl⟩
    · exact fun sid x hrow => ⟨hrow, fun _ _ _ _ => .inl trivial⟩
  | deleteTokens r =>
    simp only [State.after]
    split
    · next data tokens hr =>
      refine h.next rfl rfl rfl hr ?_ fun sid x hrow => ⟨hrow, fun _ _ _ _ => .inl trivial⟩
      intro tid token hrow
      obtain ⟨hbefore, hkept⟩ := Option.filter_eq_some_iff.mp hrow
      exact ⟨hbefore, fun _ hdeletes => absurd hdeletes (by simpa [Stage.deletesToken] using hkept)⟩
    · exact h
  | readMembers r =>
    rw [State.after]
    refine atStage_elim h fun data hr => h.next rfl rfl rfl hr
      (fun tid token hrow => ⟨hrow, fun _ hdeletes => hdeletes.elim⟩) fun sid x hrow => ⟨hrow, ?_⟩
    intro huser hlive hold _
    rcases hin data hr sid x hrow huser hlive (huser ▸ hold) with hmem |
      ⟨r', data', stage, hne, hr', huser', hreads⟩
    · exact .inl hmem
    · exact .inr ⟨r', data', stage, (Function.update_of_ne hne _ _).trans hr',
        huser'.trans huser.symm, State.deletesSession_of_reads sid hreads⟩
  | deleteSessions r =>
    simp only [State.after]
    split
    · next data digests hr =>
      refine h.next rfl rfl rfl hr (fun tid token hrow => ⟨hrow, fun _ hdeletes => hdeletes.elim⟩) ?_
      intro sid x hrow
      simp only [State.setPhase, State.deleteSessions] at hrow
      split at hrow
      · simp at hrow
      · next hkept => exact ⟨hrow, fun _ _ _ hdeletes => absurd hdeletes hkept⟩
    · exact h
  | deleteMembers r =>
    rw [State.after]
    exact atStage_elim h fun data hr =>
      hmove rfl rfl rfl rfl rfl (hquiet hr fun _ hfalse => hfalse)
  | markUsed r =>
    rw [State.after]
    exact atStage_elim h fun data hr =>
      hmove rfl rfl rfl rfl rfl (hquiet hr fun _ hfalse => hfalse)
  | fail r =>
    simp only [State.after]
    split
    · next data stage hr => exact hmove rfl rfl rfl rfl rfl (hquiet hr (hin data stage hr))
    · exact h
  | restore r expired =>
    rw [State.after]
    exact atStage_elim h fun data hr =>
      hmove rfl rfl rfl rfl rfl (hquiet hr fun _ hfalse => hfalse)
  | crash r => exact hmove rfl rfl rfl rfl rfl hin
  | advance seconds =>
    exact ⟨h.tokens, fun sid x hrow hlive => h.sessions sid x hrow
      (Nat.lt_of_le_of_lt (Nat.le_add_right _ _) hlive)⟩

/-! ## Runs -/

inductive Step (site : Site) : State → Event → State → Prop
  | mk (s : State) (e : Event) : Step site s e (s.after site e)

/-- In a run in which nothing obtained with an older password is stored too late for the
resets, and no reset stops on its way, a user is logged out by a reset everywhere. -/
theorem reset_logs_out (hrun : Run (Step site) InTime State.empty s) : s.LoggedOut := by
  refine (hrun.invariant (I := OnTheWayOut) ?_ .empty).loggedOut
  rintro u e v hu hin ⟨⟩
  exact hu.after hin

/-- The state after some events of user 1, the newest first. -/
def accountRun (es : List Event) : State :=
  endState State.empty (historyOf (State.after Redeem.oneUser) State.empty es)

/-- A login and a web session, a reset of the password, and a login with the new one. -/
def resetAndLogin : List Event :=
  [.store 4 [], .prove 4 1, .markUsed 3, .deleteMembers 3, .deleteSessions 3, .readMembers 3,
    .deleteTokens 3, .selectTokens 3, .commitPassword 3, .check 3 "a@b.c" "12345678" true,
    .issue "a@b.c" "12345678", .expireMembers 2, .addMember 2, .setSession 2, .proveWeb 2 1,
    .store 1 [], .prove 1 1]

theorem reset_logs_out_login : (accountRun resetAndLogin).LoggedOut ∧
    (accountRun resetAndLogin).tokens.toList = [(2, ⟨1, 1, 86400, 2592000⟩)] ∧
    (accountRun resetAndLogin).sessions.toList = [] := by
  refine ⟨reset_logs_out (run_historyOf _ resetAndLogin .mk ?_), by decide +kernel,
    by decide +kernel⟩
  simp only [resetAndLogin, historyOf, Every, InTime, and_true, true_and]
  refine ⟨⟨⟨?first, ?session⟩, ?members⟩, ?second⟩
  case first | second =>
    rintro uid proven hphase
    obtain ⟨rfl, rfl⟩ := Phase.granting.inj hphase
    exact .inl rfl
  case session =>
    rintro uid proven hphase
    obtain ⟨rfl, rfl⟩ := Phase.opening.inj hphase
    exact .inl rfl
  case members =>
    -- The only session is in the list.
    intro data hphase sid x hrow _ _ _
    obtain ⟨rfl, -⟩ := Phase.resetting.inj hphase
    have hlt : sid < 2 := Table.lt_next hrow
    interval_cases sid
    · have hnone : (none : Option WebSession) = some x := hrow
      simp at hnone
    · exact .inl (by decide +kernel)

/-- A login has proven the old password when the reset begins, and stores its token when
the reset is over. -/
def lateLogin : List Event :=
  [.store 1 [], .markUsed 3, .deleteMembers 3, .deleteSessions 3, .readMembers 3,
    .deleteTokens 3, .selectTokens 3, .commitPassword 3, .check 3 "a@b.c" "12345678" true,
    .issue "a@b.c" "12345678", .prove 1 1]

theorem late_login_stays : ∃ s, Run (Step Redeem.oneUser) (fun _ _ => True) State.empty s ∧
    ¬ s.LoggedOut := by
  have hrun : Run (Step Redeem.oneUser) (fun _ _ => True) State.empty (accountRun lateLogin) :=
    (trace_historyOf State.empty lateLogin fun e _ s => .mk s e).toRun
  refine ⟨accountRun lateLogin, hrun, fun hout => ?_⟩
  have hidle : ∀ r, (accountRun lateLogin).phase r = .over ∨ (accountRun lateLogin).phase r = .idle
    | 0 => .inr rfl
    | 1 => .inl rfl
    | 2 => .inr rfl
    | 3 => .inl rfl
    | _ + 4 => .inr rfl
  have hreset : ¬ (accountRun lateLogin).ResetAt 1 fun _ => True := by
    rintro ⟨r, data, stage, hr, -⟩
    rcases hidle r with hover | hover <;> simp [hover] at hr
  have hproven := (hout 1 hreset).1 1 ⟨1, 0, 86400, 2592000⟩ (by decide +kernel) rfl
    (.inl (by decide +kernel))
  exact absurd hproven (by decide +kernel)

end Soms.Auth.Account

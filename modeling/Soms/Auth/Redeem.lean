import Soms.Auth.Account
import Soms.Library.OneTime

/-!
# One-time credentials are redeemed once

An authorization code yields one token, a reset code sets one password and a mailed
code verifies the session of one token, as long as no request finds a code good while
another one that found it good has not yet made it useless.
-/

namespace Soms.Auth

/-! ## Authorization codes -/

namespace Code

/-- The code that a request has read and not yet deleted. -/
def Phase.checks : Phase → Option CodeId
  | .read code _ => some code
  | _ => none

/-- The code that a request has deleted. -/
def Phase.takes : Phase → Option CodeId
  | .deleted code _ => some code
  | _ => none

/-- The event does not read a code that another request has read and not yet deleted. -/
def Alone (s : State) : Event → Prop
  | .readScopes r => ∀ clientId code userId, s.phase r = .readUser clientId code userId →
      (s.hash clientId code).isSome → ∀ r', (s.phase r').checks ≠ some code
  | _ => True

structure Inv (s : State) : Prop where
  sound : OneTime.Sound Phase.checks Phase.takes s.phase (s.tokens.map Prod.fst)
  gone : ∀ c, (∃ r, (s.phase r).takes = some c) ∨ c ∈ s.tokens.map Prod.fst →
    s.codes.row c = none ∧ c < s.codes.next
  known : ∀ r c, (s.phase r).checks = some c → c < s.codes.next

variable {s : State} {r : RequestId} {p : Phase}

theorem Inv.empty : Inv State.empty where
  sound := .initial (fun _ => rfl) fun _ => rfl
  gone := by
    rintro c (⟨r, hr⟩ | hmem)
    · exact absurd hr (by simp [State.empty, Phase.takes])
    · exact absurd hmem (by simp [State.empty])
  known := fun r c hr => absurd hr (by simp [State.empty, Phase.checks])

/-- A request that gives up. -/
theorem Inv.drop (h : Inv s) (hchecks : p.checks = none) (htakes : p.takes = none) :
    Inv (s.setPhase r p) where
  sound := h.sound.drop hchecks htakes
  gone := by
    rintro c (⟨r', hr'⟩ | hmem)
    · exact h.gone c (.inl ⟨r', (OneTime.Sound.other htakes hr').2⟩)
    · exact h.gone c (.inr hmem)
  known := fun r' c hr' => h.known r' c (OneTime.Sound.other hchecks hr').2

theorem Inv.after (h : Inv s) {e : Event} (halone : Alone s e) : Inv (s.after e) := by
  cases e with
  | issue grant =>
    refine ⟨h.sound, fun c hc => ?_, fun r c hr => Nat.lt_succ_of_lt (h.known r c hr)⟩
    obtain ⟨hrow, hlt⟩ := h.gone c hc
    refine ⟨?_, Nat.lt_succ_of_lt hlt⟩
    show (s.codes.insert grant).row c = none
    rw [Table.row_insert, if_neg (Nat.ne_of_lt hlt)]
    exact hrow
  | expire code =>
    refine ⟨h.sound, fun c hc => ?_, h.known⟩
    obtain ⟨hrow, hlt⟩ := h.gone c hc
    refine ⟨?_, hlt⟩
    show (s.codes.delete code).row c = none
    rw [Table.row_delete, hrow, ite_self]
  | readUser r clientId code =>
    simp only [State.after]
    split
    · exact h.drop rfl rfl
    · exact h
  | readScopes r =>
    simp only [State.after]
    split
    · next clientId code userId hphase =>
      split
      · next userId' scopes hscopes =>
        split
        · exact h.drop rfl rfl
        · -- The code is there, so no request has taken it.
          obtain ⟨grant, hgrant, -⟩ := Option.map_eq_some_iff.mp hscopes
          have hfree := halone clientId code _ hphase (by rw [hgrant]; rfl)
          have hrow : s.codes.row code = some grant := (Option.filter_eq_some_iff.mp hgrant).1
          have hthere : ¬ ((∃ r, (s.phase r).takes = some code) ∨
              code ∈ s.tokens.map Prod.fst) := fun hc => by
            simp [(h.gone code hc).1] at hrow
          refine ⟨h.sound.check rfl rfl hfree (fun r' hr' => hthere (.inl ⟨r', hr'⟩))
            fun hmem => hthere (.inr hmem), ?_, ?_⟩
          · rintro c (⟨r', hr'⟩ | hmem)
            · exact h.gone c (.inl ⟨r', (OneTime.Sound.other rfl hr').2⟩)
            · exact h.gone c (.inr hmem)
          · intro r' c hr'
            rcases OneTime.Sound.update_cases hr' with ⟨-, hc⟩ | ⟨-, hr'⟩
            · obtain rfl := Option.some.inj hc
              exact Table.lt_next hrow
            · exact h.known r' c hr'
      · exact h.drop rfl rfl
    · exact h
  | delete r =>
    simp only [State.after]
    split
    · next code grant hphase =>
      have hchecks : (s.phase r).checks = some code := by rw [hphase]; rfl
      refine ⟨h.sound.take hchecks rfl rfl, ?_, fun r' c hr' =>
        h.known r' c (OneTime.Sound.other rfl hr').2⟩
      have hold : ∀ c, s.codes.row c = none → (s.codes.delete code).row c = none := by
        intro c hc
        rw [Table.row_delete, hc, ite_self]
      rintro c (⟨r', hr'⟩ | hmem)
      · rcases OneTime.Sound.update_cases hr' with ⟨-, hc⟩ | ⟨-, hr'⟩
        · obtain rfl := Option.some.inj hc
          exact ⟨if_pos rfl, h.known r code hchecks⟩
        · exact (h.gone c (.inl ⟨r', hr'⟩)).imp_left (hold c)
      · exact (h.gone c (.inr hmem)).imp_left (hold c)
    · exact h
  | store r active =>
    simp only [State.after]
    split
    · next code grant hphase =>
      have htakes : (s.phase r).takes = some code := by rw [hphase]; rfl
      split
      · refine ⟨h.sound.finish htakes rfl rfl, ?_, fun r' c hr' =>
          h.known r' c (OneTime.Sound.other rfl hr').2⟩
        rintro c (⟨r', hr'⟩ | hmem)
        · exact h.gone c (.inl ⟨r', (OneTime.Sound.other rfl hr').2⟩)
        · rcases List.mem_cons.mp hmem with rfl | hmem
          · exact h.gone _ (.inl ⟨r, htakes⟩)
          · exact h.gone c (.inr hmem)
      · exact h.drop rfl rfl
    · exact h
  | crash r => exact h.drop rfl rfl

end Code

/-! ## Mail codes -/

namespace Mail

/-- The row that a request has found unused and not yet marked. -/
def Phase.checks : Phase → Option VerificationId
  | .found _ _ _ id => some id
  | _ => none

/-- The row that a request has marked as used. -/
def Phase.takes : Phase → Option VerificationId
  | .used _ _ _ id => some id
  | .deleted _ _ id => some id
  | _ => none

/-- The event does not find a row unused that another request has found unused and not
yet marked, or that was marked since the request began. -/
def Alone (s : State) : Event → Prop
  | .find r => ∀ uid tid code view id, s.phase r = .looked uid tid code view id →
      (∀ r', (s.phase r').checks ≠ some id) ∧
        ∃ row, s.rows.row id = some row ∧ row.isUsed = false
  | _ => True

structure Inv (s : State) : Prop where
  sound : OneTime.Sound Phase.checks Phase.takes s.phase (s.verified.map Prod.fst)
  marked : ∀ id, (∃ r, (s.phase r).takes = some id) ∨ id ∈ s.verified.map Prod.fst →
    ∃ row, s.rows.row id = some row ∧ row.isUsed = true
  known : ∀ r id, (s.phase r).checks = some id → (s.rows.row id).isSome

variable {s : State} {r : RequestId} {p : Phase}

theorem Inv.empty : Inv State.empty where
  sound := .initial (fun _ => rfl) fun _ => rfl
  marked := by
    rintro id (⟨r, hr⟩ | hmem)
    · exact absurd hr (by simp [State.empty, Phase.takes])
    · exact absurd hmem (by simp [State.empty])
  known := fun r id hr => absurd hr (by simp [State.empty, Phase.checks])

theorem Inv.drop (h : Inv s) (hchecks : p.checks = none) (htakes : p.takes = none) :
    Inv (s.setPhase r p) where
  sound := h.sound.drop hchecks htakes
  marked := by
    rintro id (⟨r', hr'⟩ | hmem)
    · exact h.marked id (.inl ⟨r', (OneTime.Sound.other htakes hr').2⟩)
    · exact h.marked id (.inr hmem)
  known := fun r' id hr' => h.known r' id (OneTime.Sound.other hchecks hr').2

theorem Inv.after (h : Inv s) {e : Event} (halone : Alone s e) : Inv (s.after e) := by
  cases e with
  | send uid code cached =>
    have hnew : Inv { s with rows := s.rows.insert ⟨uid, code, false, s.now + 600⟩ } := by
      refine ⟨h.sound, fun id hid => ?_, fun r id hr => ?_⟩
      · obtain ⟨row, hrow, hused⟩ := h.marked id hid
        exact ⟨row, Table.row_insert_of_some hrow, hused⟩
      · obtain ⟨row, hrow⟩ := Option.isSome_iff_exists.mp (h.known r id hr)
        exact Option.isSome_iff_exists.mpr ⟨row, Table.row_insert_of_some hrow⟩
    simp only [State.after]
    split
    · exact h
    · split
      · exact ⟨hnew.sound, hnew.marked, hnew.known⟩
      · exact hnew
  | expireKey uid code => exact ⟨h.sound, h.marked, h.known⟩
  | begin r uid tid code =>
    simp only [State.after]
    split
    · exact h.drop rfl rfl
    · exact h
  | lookUp r =>
    simp only [State.after]
    split
    · split <;> exact h.drop rfl rfl
    · exact h
  | find r =>
    simp only [State.after]
    split
    · next uid tid code view id hphase =>
      split
      · -- The row is unused, so no request has taken it.
        obtain ⟨hfree, row, hrow, hunused⟩ := halone uid tid code view id hphase
        have hthere : ¬ ((∃ r, (s.phase r).takes = some id) ∨
            id ∈ s.verified.map Prod.fst) := fun hid => by
          obtain ⟨row', hrow', hused⟩ := h.marked id hid
          obtain rfl := Option.some.inj (hrow.symm.trans hrow')
          simp [hunused] at hused
        refine ⟨h.sound.check rfl rfl hfree (fun r' hr' => hthere (.inl ⟨r', hr'⟩))
          fun hmem => hthere (.inr hmem), ?_, ?_⟩
        · rintro id' (⟨r', hr'⟩ | hmem)
          · exact h.marked id' (.inl ⟨r', (OneTime.Sound.other rfl hr').2⟩)
          · exact h.marked id' (.inr hmem)
        · intro r' id' hr'
          rcases OneTime.Sound.update_cases hr' with ⟨-, hid⟩ | ⟨-, hr'⟩
          · obtain rfl := Option.some.inj hid
            exact Option.isSome_iff_exists.mpr ⟨row, hrow⟩
          · exact h.known r' id' hr'
      · exact h.drop rfl rfl
    · exact h
  | use r =>
    simp only [State.after]
    split
    · next uid tid code id hphase =>
      have hchecks : (s.phase r).checks = some id := by rw [hphase]; rfl
      have hold : ∀ id', (∃ row, s.rows.row id' = some row ∧ row.isUsed = true) →
          ∃ row, (s.rows.modify id fun row => { row with isUsed := true }).row id' = some row ∧
            row.isUsed = true := by
        rintro id' ⟨row, hrow, hused⟩
        rw [Table.row_modify]
        split
        · exact ⟨_, by rw [hrow]; rfl, rfl⟩
        · exact ⟨row, hrow, hused⟩
      refine ⟨h.sound.take hchecks rfl rfl, ?_, fun r' id' hr' => ?_⟩
      · rintro id' (⟨r', hr'⟩ | hmem)
        · rcases OneTime.Sound.update_cases hr' with ⟨-, hid⟩ | ⟨-, hr'⟩
          · obtain rfl := Option.some.inj hid
            obtain ⟨row, hrow⟩ := Option.isSome_iff_exists.mp (h.known r id hchecks)
            exact ⟨{ row with isUsed := true }, by
              show (s.rows.modify id _).row id = _
              rw [Table.row_modify, if_pos rfl, hrow]
              rfl, rfl⟩
          · exact hold id' (h.marked id' (.inl ⟨r', hr'⟩))
        · exact hold id' (h.marked id' (.inr hmem))
      · have hsome := h.known r' id' (OneTime.Sound.other rfl hr').2
        show ((s.rows.modify id _).row id').isSome
        rw [Table.row_modify]
        split
        · rw [Option.isSome_map]
          exact hsome
        · exact hsome
    · exact h
  | delete r =>
    simp only [State.after]
    split
    · next uid tid code id hphase =>
      have htakes : (s.phase r).takes = some id := by rw [hphase]; rfl
      refine ⟨h.sound.go (fun _ hnone => by simp [Phase.checks] at hnone)
        fun id' hid' => htakes.trans hid', ?_, fun r' id' hr' =>
        h.known r' id' (OneTime.Sound.other rfl hr').2⟩
      rintro id' (⟨r', hr'⟩ | hmem)
      · rcases OneTime.Sound.update_cases hr' with ⟨-, hid⟩ | ⟨-, hr'⟩
        · exact h.marked id' (.inl ⟨r, htakes.trans hid⟩)
        · exact h.marked id' (.inl ⟨r', hr'⟩)
      · exact h.marked id' (.inr hmem)
    · exact h
  | verify r =>
    simp only [State.after]
    split
    · next uid tid id hphase =>
      have htakes : (s.phase r).takes = some id := by rw [hphase]; rfl
      refine ⟨h.sound.finish htakes rfl rfl, ?_, fun r' id' hr' =>
        h.known r' id' (OneTime.Sound.other rfl hr').2⟩
      rintro id' (⟨r', hr'⟩ | hmem)
      · exact h.marked id' (.inl ⟨r', (OneTime.Sound.other rfl hr').2⟩)
      · rcases List.mem_cons.mp hmem with rfl | hmem
        · exact h.marked _ (.inl ⟨r, htakes⟩)
        · exact h.marked id' (.inr hmem)
    · exact h
  | crash r => exact h.drop rfl rfl
  | advance seconds => exact ⟨h.sound, h.marked, h.known⟩

end Mail

/-! ## Password reset codes -/

namespace Account

/-- The password was committed, and the code is not yet marked as used. -/
def Stage.committed : Stage → Bool
  | .checked => false
  | .failed => false
  | _ => true

/-- The code that a request has checked and not yet set a password with. -/
def Phase.checks : Phase → Option Nat
  | .resetting data stage => if stage.committed then none else some data.number
  | _ => none

/-- The event finds no code unused that another request is resetting the password with,
and no reset stops between the commit of the password and the marking of the code. -/
def Alone (site : Site) (s : State) : Event → Prop
  | .check r email code longEnough => s.phase r = .idle →
      ∀ data, s.checkedReset site email code longEnough = some data →
        ∀ r' data' stage, s.phase r' = .resetting data' stage → data'.number ≠ data.number
  | .fail r => ∀ data stage, s.phase r = .resetting data stage → stage.committed = false
  | .crash r => ∀ data stage, s.phase r = .resetting data stage → stage.committed = false
  | _ => True

/-- The reset data that is stored, or that a request has read. -/
def State.Known (s : State) (data : ResetData) : Prop :=
  (∃ email, s.resets email = some data) ∨ ∃ r stage, s.phase r = .resetting data stage

/-- A request that has committed a password is still to mark the code. -/
def State.Marking (s : State) (n : Nat) : Prop :=
  ∃ r data stage, s.phase r = .resetting data stage ∧ data.number = n ∧ stage.committed = true

structure Inv (s : State) : Prop where
  sound : OneTime.Sound Phase.checks (fun _ => none) s.phase s.changes
  spent : ∀ n ∈ s.changes, n < s.issued
  known : ∀ data, s.Known data → data.number < s.issued
  /-- A code is of one address. -/
  mailed : ∀ data data', s.Known data → s.Known data' → data.number = data'.number →
    data.email = data'.email
  keyed : ∀ email data, s.resets email = some data → data.email = email
  marked : ∀ email data, s.resets email = some data → data.used = false →
    data.number ∈ s.changes → s.Marking data.number

variable {site : Site} {s t : State} {r : RequestId} {p : Phase} {data : ResetData}

theorem Inv.empty : Inv State.empty where
  sound := .initial (fun _ => rfl) fun _ => rfl
  spent := by simp [State.empty]
  known := by simp [State.empty, State.Known]
  mailed := by simp [State.empty, State.Known]
  keyed := by simp [State.empty]
  marked := by simp [State.empty]

/-- The invariant does not look at the rest of the state. -/
theorem Inv.congr (h : Inv s) (hphase : t.phase = s.phase) (hresets : t.resets = s.resets)
    (hissued : t.issued = s.issued) (hchanges : t.changes = s.changes) : Inv t := by
  have hknown : ∀ data, t.Known data ↔ s.Known data := by simp [State.Known, hphase, hresets]
  have hmarking : ∀ n, t.Marking n ↔ s.Marking n := by simp [State.Marking, hphase]
  constructor
  case sound => rw [hphase, hchanges]; exact h.sound
  case spent => rw [hchanges, hissued]; exact h.spent
  case known => simpa only [hknown, hissued] using h.known
  case mailed => simpa only [hknown] using h.mailed
  case keyed => rw [hresets]; exact h.keyed
  case marked => simpa only [hresets, hchanges, hmarking] using h.marked

/-- The phase of a request changes, and what it says about a code stays. -/
theorem Inv.move (h : Inv s) (hphase : t.phase = Function.update s.phase r p)
    (hresets : t.resets = s.resets) (hissued : t.issued = s.issued)
    (hchanges : t.changes = s.changes)
    (hkept : ∀ data stage, p = .resetting data stage → ∃ stage',
      s.phase r = .resetting data stage' ∧ stage'.committed = stage.committed)
    (hleft : ∀ data stage, s.phase r = .resetting data stage → stage.committed = true →
      ∃ stage', p = .resetting data stage' ∧ stage'.committed = true) : Inv t := by
  have hknown : ∀ data, t.Known data → s.Known data := by
    rintro data (⟨email, hdata⟩ | ⟨r', stage, hr'⟩)
    · exact .inl ⟨email, hresets ▸ hdata⟩
    · rw [hphase] at hr'
      rcases OneTime.Sound.update_cases (f := some) (congrArg some hr') with ⟨-, hp⟩ | ⟨-, hr'⟩
      · obtain ⟨stage', hstage', -⟩ := hkept data stage (Option.some.inj hp)
        exact .inr ⟨r, stage', hstage'⟩
      · exact .inr ⟨r', stage, Option.some.inj hr'⟩
  constructor
  case sound =>
    rw [hphase, hchanges]
    refine h.sound.go (fun c hc => ?_) fun _ hnone => hnone
    cases p with
    | resetting data stage =>
      obtain ⟨stage', hstage', hsame⟩ := hkept data stage rfl
      rw [hstage', Phase.checks, hsame]
      exact hc
    | _ => simp [Phase.checks] at hc
  case spent => rw [hchanges, hissued]; exact h.spent
  case known => rw [hissued]; exact fun data hdata => h.known data (hknown data hdata)
  case mailed =>
    exact fun data data' hdata hdata' => h.mailed data data' (hknown data hdata) (hknown data' hdata')
  case keyed => rw [hresets]; exact h.keyed
  case marked =>
    rw [hresets, hchanges]
    intro email data hdata hunused hmem
    obtain ⟨r', data', stage, hr', hnumber, hcommitted⟩ := h.marked email data hdata hunused hmem
    by_cases hr : r' = r
    · subst hr
      obtain ⟨stage', hp, hcommitted'⟩ := hleft data' stage hr' hcommitted
      exact ⟨r', data', stage', by rw [hphase, Function.update_self, hp], hnumber, hcommitted'⟩
    · exact ⟨r', data', stage, by rw [hphase, Function.update_of_ne hr, hr'], hnumber, hcommitted⟩

/-- A request that is not resetting a password. -/
theorem Inv.aside (h : Inv s) (hphase : t.phase = Function.update s.phase r p)
    (hresets : t.resets = s.resets) (hissued : t.issued = s.issued)
    (hchanges : t.changes = s.changes) (hp : ∀ data stage, p ≠ .resetting data stage)
    (hr : ∀ data stage, s.phase r = .resetting data stage → stage.committed = false) : Inv t := by
  refine h.move hphase hresets hissued hchanges (fun data stage hstage => absurd hstage (hp _ _)) ?_
  intro data stage hstage hcommitted
  simp [hr data stage hstage] at hcommitted

/-- A reset that goes on. -/
theorem Inv.next (h : Inv s) {stage stage' : Stage}
    (hphase : t.phase = Function.update s.phase r (.resetting data stage'))
    (hresets : t.resets = s.resets) (hissued : t.issued = s.issued)
    (hchanges : t.changes = s.changes) (hr : s.phase r = .resetting data stage)
    (hsame : stage.committed = stage'.committed) : Inv t := by
  refine h.move hphase hresets hissued hchanges ?_ ?_
  · rintro data' stage'' hp
    obtain ⟨rfl, rfl⟩ := Phase.resetting.inj hp
    exact ⟨stage, hr, hsame⟩
  · rintro data' stage'' hr' hcommitted
    obtain ⟨rfl, rfl⟩ := Phase.resetting.inj (hr.symm.trans hr')
    exact ⟨stage', rfl, hsame ▸ hcommitted⟩

theorem Inv.issue (h : Inv s) {email : Email} {uid : UserId} {code : String} :
    Inv ({ s with issued := s.issued + 1 }.setReset email
      (some ⟨s.issued, uid, email, code, false⟩)) := by
  obtain ⟨t, ht⟩ : ∃ t, t = { s with issued := s.issued + 1 }.setReset email
      (some ⟨s.issued, uid, email, code, false⟩) := ⟨_, rfl⟩
  have hresets : ∀ {e data}, t.resets e = some data →
      (e = email ∧ data = ⟨s.issued, uid, email, code, false⟩) ∨ s.resets e = some data := by
    intro e data hdata
    have hupdate : t.resets = Function.update s.resets email
        (some ⟨s.issued, uid, email, code, false⟩) := by rw [ht]; rfl
    rw [hupdate] at hdata
    rcases OneTime.Sound.update_cases (f := id) hdata with ⟨he, hnew⟩ | ⟨-, hold⟩
    · exact .inl ⟨he, (Option.some.inj hnew).symm⟩
    · exact .inr hold
  have hknown : ∀ {data}, t.Known data →
      data = ⟨s.issued, uid, email, code, false⟩ ∨ s.Known data := by
    rintro data (⟨e, hdata⟩ | ⟨r, stage, hr⟩)
    · exact (hresets hdata).imp And.right fun hold => .inl ⟨e, hold⟩
    · exact .inr (.inr ⟨r, stage, by rw [ht] at hr; exact hr⟩)
  have hphase : t.phase = s.phase := by rw [ht]; rfl
  have hissued : t.issued = s.issued + 1 := by rw [ht]; rfl
  have hchanges : t.changes = s.changes := by rw [ht]; rfl
  rw [← ht]
  constructor
  case sound => rw [hphase, hchanges]; exact h.sound
  case spent => rw [hchanges, hissued]; exact fun n hn => Nat.lt_succ_of_lt (h.spent n hn)
  case known =>
    intro data hdata
    rw [hissued]
    rcases hknown hdata with rfl | hold
    · exact Nat.lt_succ_self _
    · exact Nat.lt_succ_of_lt (h.known data hold)
  case mailed =>
    intro data data' hdata hdata' hnumber
    rcases hknown hdata with rfl | hold <;> rcases hknown hdata' with rfl | hold'
    · rfl
    · exact absurd (h.known data' hold') (hnumber ▸ Nat.lt_irrefl _)
    · exact absurd (h.known data hold) (hnumber ▸ Nat.lt_irrefl _)
    · exact h.mailed data data' hold hold' hnumber
  case keyed =>
    intro e data hdata
    rcases hresets hdata with ⟨rfl, rfl⟩ | hold
    · rfl
    · exact h.keyed e data hold
  case marked =>
    intro e data hdata hunused hmem
    rw [hchanges] at hmem
    rcases hresets hdata with ⟨-, rfl⟩ | hold
    · exact absurd (h.spent _ hmem) (Nat.lt_irrefl _)
    · obtain ⟨r, data', stage, hr, hrest⟩ := h.marked e data hold hunused hmem
      exact ⟨r, data', stage, hphase ▸ hr, hrest⟩

/-- A reset ends and writes the code of its address, unused only if no password was set
with it. -/
theorem Inv.leave (h : Inv s) {stage : Stage} {stored : Option ResetData}
    (hr : s.phase r = .resetting data stage)
    (hstored : ∀ data', stored = some data' → data'.number = data.number ∧
      data'.email = data.email ∧ (data'.used = false → data.number ∉ s.changes)) :
    Inv ((s.setReset data.email stored).setPhase r .over) := by
  obtain ⟨t, ht⟩ : ∃ t, t = (s.setReset data.email stored).setPhase r .over := ⟨_, rfl⟩
  have hdata : s.Known data := .inr ⟨r, stage, hr⟩
  have hphase : t.phase = Function.update s.phase r .over := by rw [ht]; rfl
  have hresets : ∀ {e data'}, t.resets e = some data' →
      (e = data.email ∧ stored = some data') ∨ (e ≠ data.email ∧ s.resets e = some data') := by
    intro e data' hdata'
    have hupdate : t.resets = Function.update s.resets data.email stored := by rw [ht]; rfl
    rw [hupdate] at hdata'
    exact OneTime.Sound.update_cases (f := id) hdata'
  have hphases : ∀ {r' data' stage'}, t.phase r' = .resetting data' stage' →
      s.phase r' = .resetting data' stage' := by
    intro r' data' stage' hr'
    rw [hphase] at hr'
    rcases OneTime.Sound.update_cases (f := some) (congrArg some hr') with ⟨-, hover⟩ | ⟨-, hr'⟩
    · simp at hover
    · exact Option.some.inj hr'
  have hknown : ∀ {data'}, t.Known data' → ∃ old, s.Known old ∧ old.number = data'.number ∧
      old.email = data'.email := by
    rintro data' (⟨e, hdata'⟩ | ⟨r', stage', hr'⟩)
    · rcases hresets hdata' with ⟨-, hnew⟩ | ⟨-, hold⟩
      · obtain ⟨hnumber, hemail, -⟩ := hstored data' hnew
        exact ⟨data, hdata, hnumber.symm, hemail.symm⟩
      · exact ⟨data', .inl ⟨e, hold⟩, rfl, rfl⟩
    · exact ⟨data', .inr ⟨r', stage', hphases hr'⟩, rfl, rfl⟩
  have hissued : t.issued = s.issued := by rw [ht]; rfl
  have hchanges : t.changes = s.changes := by rw [ht]; rfl
  rw [← ht]
  constructor
  case sound => rw [hphase, hchanges]; exact h.sound.drop rfl rfl
  case spent => rw [hchanges, hissued]; exact h.spent
  case known =>
    intro data' hdata'
    obtain ⟨old, hold, hnumber, -⟩ := hknown hdata'
    rw [hissued, ← hnumber]
    exact h.known old hold
  case mailed =>
    intro data₁ data₂ hdata₁ hdata₂ hnumber
    obtain ⟨old₁, hold₁, hnumber₁, hemail₁⟩ := hknown hdata₁
    obtain ⟨old₂, hold₂, hnumber₂, hemail₂⟩ := hknown hdata₂
    rw [← hemail₁, ← hemail₂]
    exact h.mailed old₁ old₂ hold₁ hold₂ (by rw [hnumber₁, hnumber₂, hnumber])
  case keyed =>
    intro e data' hdata'
    rcases hresets hdata' with ⟨rfl, hnew⟩ | ⟨-, hold⟩
    · exact (hstored data' hnew).2.1
    · exact h.keyed e data' hold
  case marked =>
    intro e data' hdata' hunused hmem
    rw [hchanges] at hmem
    rcases hresets hdata' with ⟨-, hnew⟩ | ⟨he, hold⟩
    · obtain ⟨hnumber, -, hunspent⟩ := hstored data' hnew
      exact absurd (hnumber ▸ hmem) (hunspent hunused)
    · -- The code of another address is marked by another request.
      obtain ⟨r', data₂, stage', hr', hnumber, hcommitted⟩ := h.marked e data' hold hunused hmem
      have hne : r' ≠ r := by
        rintro rfl
        obtain ⟨rfl, rfl⟩ := Phase.resetting.inj (hr.symm.trans hr')
        exact he ((h.keyed e data' hold).symm.trans
          (h.mailed data' data (.inl ⟨e, hold⟩) hdata hnumber.symm))
      exact ⟨r', data₂, stage', by rw [hphase, Function.update_of_ne hne, hr'], hnumber, hcommitted⟩

theorem Inv.dropCode (h : Inv s) {email : Email} : Inv (s.setReset email none) := by
  have hresets : ∀ {e data}, (s.setReset email none).resets e = some data →
      s.resets e = some data := by
    intro e data hdata
    exact (OneTime.Sound.other (f := id) rfl hdata).2
  have hknown : ∀ {data}, (s.setReset email none).Known data → s.Known data := by
    rintro data (⟨e, hdata⟩ | hphase)
    · exact .inl ⟨e, hresets hdata⟩
    · exact .inr hphase
  exact
    { sound := h.sound
      spent := h.spent
      known := fun data hdata => h.known data (hknown hdata)
      mailed := fun data data' hdata hdata' => h.mailed data data' (hknown hdata) (hknown hdata')
      keyed := fun e data hdata => h.keyed e data (hresets hdata)
      marked := fun e data hdata => h.marked e data (hresets hdata) }

/-- The checks of a reset pass. -/
theorem Inv.check (h : Inv s) (hidle : s.phase r = .idle) {email : Email}
    (hstored : s.resets email = some data) (hunused : data.used = false)
    (halone : ∀ r' data' stage, s.phase r' = .resetting data' stage →
      data'.number ≠ data.number) : Inv (s.setPhase r (.resetting data .checked)) := by
  have hfree : ∀ r', (s.phase r').checks ≠ some data.number := by
    intro r' hr'
    cases hphase : s.phase r' with
    | resetting data' stage =>
      rw [hphase, Phase.checks] at hr'
      split at hr'
      · simp at hr'
      · exact halone r' data' stage hphase (Option.some.inj hr')
    | _ => simp [hphase, Phase.checks] at hr'
  have hunspent : data.number ∉ s.changes := by
    intro hmem
    obtain ⟨r', data', stage, hr', hnumber, -⟩ := h.marked email data hstored hunused hmem
    exact halone r' data' stage hr' hnumber
  have hknown : ∀ {data'}, (s.setPhase r (.resetting data .checked)).Known data' →
      s.Known data' := by
    rintro data' (hdata' | ⟨r', stage, hr'⟩)
    · exact .inl hdata'
    · rcases OneTime.Sound.update_cases (f := some) (congrArg some hr') with ⟨-, hp⟩ | ⟨-, hr'⟩
      · obtain ⟨rfl, -⟩ := Phase.resetting.inj (Option.some.inj hp)
        exact .inl ⟨email, hstored⟩
      · exact .inr ⟨r', stage, Option.some.inj hr'⟩
  constructor
  case sound => exact h.sound.check rfl rfl hfree (fun _ => by simp) hunspent
  case spent => exact h.spent
  case known => exact fun data' hdata' => h.known data' (hknown hdata')
  case mailed =>
    exact fun data₁ data₂ hdata₁ hdata₂ => h.mailed data₁ data₂ (hknown hdata₁) (hknown hdata₂)
  case keyed => exact h.keyed
  case marked =>
    intro e data' hdata' hunused' hmem
    obtain ⟨r', data₂, stage, hr', hrest⟩ := h.marked e data' hdata' hunused' hmem
    have hne : r' ≠ r := by
      rintro rfl
      simp [hidle] at hr'
    exact ⟨r', data₂, stage, (Function.update_of_ne hne _ _).trans hr', hrest⟩

/-- The new password is committed. -/
theorem Inv.commit (h : Inv s) (hr : s.phase r = .resetting data .checked) {t : State}
    (hphase : t.phase = Function.update s.phase r (.resetting data .changed))
    (hresets : t.resets = s.resets) (hissued : t.issued = s.issued)
    (hchanges : t.changes = data.number :: s.changes) : Inv t := by
  have hdata : s.Known data := .inr ⟨r, _, hr⟩
  have hknown : ∀ {data'}, t.Known data' → s.Known data' := by
    rintro data' (⟨e, hdata'⟩ | ⟨r', stage, hr'⟩)
    · exact .inl ⟨e, hresets ▸ hdata'⟩
    · rw [hphase] at hr'
      rcases OneTime.Sound.update_cases (f := some) (congrArg some hr') with ⟨-, hp⟩ | ⟨-, hr'⟩
      · obtain ⟨rfl, -⟩ := Phase.resetting.inj (Option.some.inj hp)
        exact hdata
      · exact .inr ⟨r', stage, Option.some.inj hr'⟩
  constructor
  case sound =>
    rw [hphase, hchanges]
    exact h.sound.spend (by rw [hr]; rfl) rfl rfl
  case spent =>
    rw [hchanges, hissued]
    intro n hn
    rcases List.mem_cons.mp hn with rfl | hn
    · exact h.known data hdata
    · exact h.spent n hn
  case known => rw [hissued]; exact fun data' hdata' => h.known data' (hknown hdata')
  case mailed =>
    exact fun data₁ data₂ hdata₁ hdata₂ => h.mailed data₁ data₂ (hknown hdata₁) (hknown hdata₂)
  case keyed => rw [hresets]; exact h.keyed
  case marked =>
    rw [hresets, hchanges]
    intro e data' hdata' hunused hmem
    by_cases hnumber : data'.number = data.number
    · exact ⟨r, data, .changed, by rw [hphase, Function.update_self], hnumber.symm, rfl⟩
    · have hold := (List.mem_cons.mp hmem).resolve_left hnumber
      obtain ⟨r', data₂, stage, hr', hsame, hcommitted⟩ := h.marked e data' hdata' hunused hold
      have hne : r' ≠ r := by
        rintro rfl
        obtain ⟨-, rfl⟩ := Phase.resetting.inj (hr.symm.trans hr')
        simp [Stage.committed] at hcommitted
      exact ⟨r', data₂, stage, by rw [hphase, Function.update_of_ne hne, hr'], hsame, hcommitted⟩

theorem atStage_elim {I : State → Prop} {stage : Stage} {f : ResetData → State → State} (h : I s)
    (hstep : ∀ data, s.phase r = .resetting data stage → I (f data s)) :
    I (s.atStage r stage f) := by
  unfold State.atStage
  split
  · next data reached hphase =>
    split
    · next hstage => exact hstep data (hstage ▸ hphase)
    · exact h
  · exact h

theorem Inv.after (h : Inv s) {e : Event} (halone : Alone site s e) : Inv (s.after site e) := by
  have hother : ∀ {r : RequestId} {p : Phase}, s.phase r = p →
      (∀ data stage, p ≠ .resetting data stage) →
      ∀ data stage, s.phase r = .resetting data stage → stage.committed = false :=
    fun hr hp data stage hstage => absurd (hr.symm.trans hstage) (hp data stage)
  cases e with
  | issue email code =>
    simp only [State.after]
    split
    · exact h.issue
    · exact h
  | dropCode email => exact h.dropCode
  | prove r uid =>
    simp only [State.after]
    split
    · next hidle => exact h.aside rfl rfl rfl rfl (by simp) (hother hidle (by simp))
    · exact h
  | find r tid =>
    simp only [State.after]
    split
    · next hidle =>
      split <;> exact h.aside rfl rfl rfl rfl (by simp) (hother hidle (by simp))
    · exact h
  | store r outdated =>
    simp only [State.after]
    split
    · next hphase => exact h.aside rfl rfl rfl rfl (by simp) (hother hphase (by simp))
    · exact h
  | proveWeb r uid =>
    simp only [State.after]
    split
    · next hidle => exact h.aside rfl rfl rfl rfl (by simp) (hother hidle (by simp))
    · exact h
  | setSession r =>
    simp only [State.after]
    split
    · next hphase => exact h.aside rfl rfl rfl rfl (by simp) (hother hphase (by simp))
    · exact h
  | addMember r =>
    simp only [State.after]
    split
    · next hphase => exact h.aside rfl rfl rfl rfl (by simp) (hother hphase (by simp))
    · exact h
  | expireMembers r =>
    simp only [State.after]
    split
    · next hphase => exact h.aside rfl rfl rfl rfl (by simp) (hother hphase (by simp))
    · exact h
  | check r email code longEnough =>
    simp only [State.after]
    split
    · next hidle =>
      split
      · next data hdata =>
        obtain ⟨hstored, hgood⟩ := Option.filter_eq_some_iff.mp hdata
        simp only [Bool.and_eq_true, Bool.not_eq_true'] at hgood
        exact h.check hidle hstored hgood.1.1.1.2 (halone hidle data hdata)
      · exact h.aside rfl rfl rfl rfl (by simp) (hother hidle (by simp))
    · exact h
  | commitPassword r =>
    rw [State.after]
    exact atStage_elim h fun data hr => h.commit hr rfl rfl rfl rfl
  | selectTokens r =>
    rw [State.after]
    exact atStage_elim h fun data hr => h.next rfl rfl rfl rfl hr rfl
  | deleteTokens r =>
    simp only [State.after]
    split
    · next hr => exact h.next rfl rfl rfl rfl hr rfl
    · exact h
  | readMembers r =>
    rw [State.after]
    exact atStage_elim h fun data hr => h.next rfl rfl rfl rfl hr rfl
  | deleteSessions r =>
    simp only [State.after]
    split
    · next hr => exact h.next rfl rfl rfl rfl hr rfl
    · exact h
  | deleteMembers r =>
    rw [State.after]
    exact atStage_elim h fun data hr => h.next rfl rfl rfl rfl hr rfl
  | markUsed r =>
    rw [State.after]
    refine atStage_elim h fun data hr => h.leave hr ?_
    rintro _ ⟨rfl⟩
    exact ⟨rfl, rfl, by simp⟩
  | fail r =>
    simp only [State.after]
    split
    · next data stage hr => exact h.next rfl rfl rfl rfl hr (halone data stage hr)
    · exact h
  | restore r expired =>
    rw [State.after]
    refine atStage_elim h fun data hr => h.leave hr fun data' hdata' => ?_
    have hunspent : data.number ∉ s.changes := h.sound.checked r data.number (by rw [hr]; rfl)
    split at hdata'
    · simp at hdata'
    · obtain rfl := Option.some.inj hdata'
      exact ⟨rfl, rfl, fun _ => hunspent⟩
  | crash r => exact h.aside rfl rfl rfl rfl (by simp) halone
  | advance seconds => exact h.congr rfl rfl rfl rfl

end Account

/-! ## The three together -/

namespace Redeem

structure System where
  codes : Code.State
  account : Account.State
  mail : Mail.State

inductive Event where
  | code (e : Code.Event)
  | account (e : Account.Event)
  | mail (e : Mail.Event)

def System.after (site : Account.Site) (s : System) : Event → System
  | .code e => { s with codes := s.codes.after e }
  | .account e => { s with account := s.account.after site e }
  | .mail e => { s with mail := s.mail.after e }

inductive Step (site : Account.Site) : System → Event → System → Prop
  | mk (s : System) (e : Event) : Step site s e (s.after site e)

/-- The steps of a request that finds a credential good and then makes it useless are not
interleaved with those of another request on the same credential. -/
def Alone (site : Account.Site) (s : System) : Event → Prop
  | .code e => Code.Alone s.codes e
  | .account e => Account.Alone site s.account e
  | .mail e => Mail.Alone s.mail e

/-- Every credential was redeemed at most once. -/
structure AtMostOnce (s : System) : Prop where
  token : (s.codes.tokens.map Prod.fst).Nodup
  password : s.account.changes.Nodup
  session : ∀ id tid tid', (id, tid) ∈ s.mail.verified → (id, tid') ∈ s.mail.verified → tid = tid'

def System.empty : System := ⟨.empty, .empty, .empty⟩

variable {site : Account.Site} {s : System}

/-- In a run in which no step finds a credential good that another request is redeeming,
and no reset stops between the new password and the marking of its code, every
credential is redeemed at most once. -/
theorem redeemed_once (hrun : Run (Step site) (Alone site) System.empty s) : AtMostOnce s := by
  have hinv : Code.Inv s.codes ∧ Account.Inv s.account ∧ Mail.Inv s.mail := by
    refine hrun.invariant (I := fun s => Code.Inv s.codes ∧ Account.Inv s.account ∧ Mail.Inv s.mail)
      ?_ ⟨.empty, .empty, .empty⟩
    rintro u e v ⟨hcodes, haccount, hmail⟩ halone ⟨⟩
    cases e with
    | code e => exact ⟨hcodes.after halone, haccount, hmail⟩
    | account e => exact ⟨hcodes, haccount.after halone, hmail⟩
    | mail e => exact ⟨hcodes, haccount, hmail.after halone⟩
  obtain ⟨hcodes, haccount, hmail⟩ := hinv
  refine ⟨hcodes.sound.nodup, haccount.sound.nodup, fun id tid tid' hmem hmem' => ?_⟩
  exact congrArg Prod.snd (List.inj_on_of_nodup_map hmail.sound.nodup hmem hmem' rfl)

/-- A site with one user. -/
def oneUser : Account.Site where
  toSettings :=
    { enableTotpVerification := true
      enableEmailVerification := true
      enableMultiDeviceLogin := true
      maxTokensPerClient := 10
      accessTokenExpire := 86400
      refreshTokenExpire := 2592000
      verifies := standard.verifies }
  userOf := fun email => if email = "a@b.c" then some 1 else none

/-- The state after some events, the newest first. -/
def redeemRun (es : List Event) : System :=
  endState System.empty (historyOf (System.after oneUser) System.empty es)

/-- One request after another: a token, a new password and a verified session. -/
def inOrder : List Event :=
  [.mail (.verify 3), .mail (.delete 3), .mail (.use 3), .mail (.find 3), .mail (.lookUp 3),
    .mail (.begin 3 1 5 "87654321"), .mail (.send 1 "87654321" true),
    .account (.markUsed 2), .account (.deleteMembers 2), .account (.deleteSessions 2),
    .account (.readMembers 2), .account (.deleteTokens 2), .account (.selectTokens 2),
    .account (.commitPassword 2), .account (.check 2 "a@b.c" "12345678" true),
    .account (.issue "a@b.c" "12345678"),
    .code (.store 1 true), .code (.delete 1), .code (.readScopes 1), .code (.readUser 1 7 1),
    .code (.issue ⟨7, 1, "public"⟩)]

theorem redeemed_once_in_order : AtMostOnce (redeemRun inOrder) ∧
    (redeemRun inOrder).codes.tokens = [(1, ⟨7, 1, "public"⟩)] ∧
    (redeemRun inOrder).account.changes = [0] ∧ (redeemRun inOrder).mail.verified = [(1, 5)] := by
  refine ⟨redeemed_once (run_historyOf _ inOrder .mk ?_), by decide +kernel, by decide +kernel,
    by decide +kernel⟩
  simp only [inOrder, historyOf, Every, Alone, Code.Alone, Account.Alone, Mail.Alone, and_true,
    true_and]
  refine ⟨⟨?code, ?account⟩, ?mail⟩
  case code =>
    intro clientId code userId _ _ r' hr'
    have hidle : Code.Phase.idle.checks = some code :=
      (OneTime.Sound.other (f := Code.Phase.checks) rfl hr').2
    simp [Code.Phase.checks] at hidle
  case account =>
    intro _ data _ r' data' stage hr'
    have hidle : Account.Phase.idle = .resetting data' stage := hr'
    simp at hidle
  case mail =>
    intro uid tid code view id hlooked
    have hphase : Mail.Phase.looked 1 5 "87654321"
        (Table.empty.insert ⟨1, "87654321", false, 600⟩) 1 = .looked uid tid code view id := hlooked
    obtain ⟨rfl, rfl, rfl, rfl, rfl⟩ := Mail.Phase.looked.inj hphase
    refine ⟨fun r' hr' => ?_, ⟨1, "87654321", false, 600⟩, rfl, rfl⟩
    have hbegun := (OneTime.Sound.other (f := Mail.Phase.checks) rfl hr').2
    have hidle : Mail.Phase.idle.checks = some 1 :=
      (OneTime.Sound.other (f := Mail.Phase.checks) rfl hbegun).2
    simp [Mail.Phase.checks] at hidle

/-- Two requests take turns: two tokens, two passwords and two verified sessions. -/
def takingTurns : List Event :=
  [.mail (.verify 6), .mail (.verify 5), .mail (.delete 6), .mail (.delete 5), .mail (.use 6),
    .mail (.use 5), .mail (.find 6), .mail (.find 5), .mail (.lookUp 6), .mail (.lookUp 5),
    .mail (.begin 6 1 6 "87654321"), .mail (.begin 5 1 5 "87654321"),
    .mail (.send 1 "87654321" true),
    .account (.commitPassword 4), .account (.commitPassword 3),
    .account (.check 4 "a@b.c" "12345678" true), .account (.check 3 "a@b.c" "12345678" true),
    .account (.issue "a@b.c" "12345678"),
    .code (.store 2 true), .code (.store 1 true), .code (.delete 2), .code (.delete 1),
    .code (.readScopes 2), .code (.readScopes 1), .code (.readUser 2 7 1),
    .code (.readUser 1 7 1), .code (.issue ⟨7, 1, "public"⟩)]

theorem redeemed_twice : ∃ s, Run (Step oneUser) (fun _ _ => True) System.empty s ∧
    ¬ (s.codes.tokens.map Prod.fst).Nodup ∧ ¬ s.account.changes.Nodup ∧
    ¬ ∀ id tid tid', (id, tid) ∈ s.mail.verified → (id, tid') ∈ s.mail.verified → tid = tid' := by
  have hrun : Run (Step oneUser) (fun _ _ => True) System.empty (redeemRun takingTurns) :=
    (trace_historyOf System.empty takingTurns fun e _ s => .mk s e).toRun
  refine ⟨redeemRun takingTurns, hrun, by decide +kernel, by decide +kernel, fun hone => ?_⟩
  have hverified : (redeemRun takingTurns).mail.verified = [(1, 6), (1, 5)] := by decide +kernel
  rw [hverified] at hone
  exact absurd (hone 1 6 5 (by simp) (by simp)) (by decide)

end Redeem

end Soms.Auth

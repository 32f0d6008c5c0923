import Soms.Somsai.Rounds

/-!
# The revision of a match

What a player saw of a match is still so when an action that names its revision is accepted,
whatever happened in between: a change that keeps the revision is a report of the game server or
a score of a bot.  Rounds and draft actions are only added, and what is used stays used.
-/

namespace Soms.Somsai

open Txn World

/-! ## States that grow -/

namespace MatchState

/-- The part of a state that is only added to. -/
def tally (s : MatchState) : List HistoryEntry × List DraftEntry × PerTeam Nat × Nat :=
  (s.history, s.draftHistory, s.wins, s.playlistItemId)

structure Grows (s t : MatchState) : Prop where
  history : s.history <+: t.history
  drafts : s.draftHistory <+: t.draftHistory
  wins : ∀ team, s.wins.get team ≤ t.wins.get team
  item : s.playlistItemId ≤ t.playlistItemId

namespace Grows

variable {s t u : MatchState}

theorem of_tally (h : t.tally = s.tally) : s.Grows t := by
  simp only [tally, Prod.mk.injEq] at h
  obtain ⟨hhistory, hdrafts, hwins, hitem⟩ := h
  exact {
    history := by rw [hhistory]
    drafts := by rw [hdrafts]
    wins := fun team => by rw [hwins]
    item := by rw [hitem] }

theorem trans (h₁ : s.Grows t) (h₂ : t.Grows u) : s.Grows u where
  history := h₁.history.trans h₂.history
  drafts := h₁.drafts.trans h₂.drafts
  wins team := Nat.le_trans (h₁.wins team) (h₂.wins team)
  item := Nat.le_trans h₁.item h₂.item

end Grows

end MatchState

namespace Match

/-- The row without the reports of the game server and the scores of the bots. -/
def shown (m : Match) : Match :=
  { m with state := { m.state with
      connected := [], serverSeenAt := 0, available := none, offline := [], botScores := [] } }

/-- What a match may turn into in time. -/
structure Later (m m' : Match) : Prop where
  revision : m.revision ≤ m'.revision
  shown : m'.revision = m.revision → m'.shown = m.shown
  ranked : m'.ranked = m.ranked
  seats : m.ranked = true → m'.seats = m.seats
  grows : m.state.Grows m'.state
  final : m.stage.final = true → m' = m
  auto : m.auto → m'.auto
  used : m.auto → ∀ slotId, m'.board.slots slotId = some .available →
    m.board.slots slotId = some .available

namespace Later

variable {m m₁ m₂ : Match}

theorem refl (m : Match) : m.Later m where
  revision := Nat.le_refl _
  shown _ := rfl
  ranked := rfl
  seats _ := rfl
  grows := .of_tally rfl
  final _ := rfl
  auto := id
  used _ _ := id

theorem trans (h₁ : m.Later m₁) (h₂ : m₁.Later m₂) : m.Later m₂ where
  revision := Nat.le_trans h₁.revision h₂.revision
  shown := by
    intro heq
    have hle₁ : m.revision ≤ m₁.revision := h₁.revision
    have hle₂ : m₁.revision ≤ m₂.revision := h₂.revision
    rw [h₂.shown (by omega), h₁.shown (by omega)]
  ranked := h₂.ranked.trans h₁.ranked
  seats := fun hranked => (h₂.seats (h₁.ranked.trans hranked)).trans (h₁.seats hranked)
  grows := h₁.grows.trans h₂.grows
  final := by
    intro hfinal
    have heq := h₁.final hfinal
    subst heq
    exact h₂.final hfinal
  auto := fun hauto => h₂.auto (h₁.auto hauto)
  used := fun hauto slotId hopen => h₁.used hauto slotId (h₂.used (h₁.auto hauto) slotId hopen)

end Later

end Match

/-! ## One change -/

/-- The slots that are open after a step of the board were open before it. -/
theorem Board.Step.used {b b' : Board} (h : Board.Step b b') (slotId : String)
    (hopen : b'.slots slotId = some .available) : b.slots slotId = some .available := by
  have hmark : ∀ (b : Board) (slot : String) (status : SlotStatus), status ≠ .available →
      (b.mark slot status).slots slotId = some .available → b.slots slotId = some .available := by
    intro b slot status hstatus hopen
    have hopen' : Function.update b.slots slot (some status) slotId = some .available := hopen
    by_cases heq : slotId = slot
    · subst heq
      rw [Function.update_self] at hopen'
      exact absurd (Option.some.inj hopen') hstatus
    · rwa [Function.update_of_ne heq] at hopen'
  have hselect : ∀ (b : Board) (slot : String),
      (b.select slot).slots slotId = some .available → b.slots slotId = some .available :=
    fun b slot => hmark b slot .picked (by decide)
  cases h with
  | start => exact hopen
  | ban _ slot => exact hmark b slot .banned (by decide) hopen
  | pick _ slot => exact hselect b slot hopen
  | begin => exact hopen
  | complete => exact hopen
  | finish => exact hopen
  | count _ slot _ winner hafter =>
    have hrecord : (b.record slot winner).slots slotId = some .available →
        b.slots slotId = some .available := hmark b slot .played (by decide)
    cases hafter with
    | decided => exact hrecord hopen
    | closed => exact hrecord hopen
    | replay => exact hrecord (hselect (b.record slot winner) slot hopen)
    | tiebreak => exact hrecord (hselect (b.record slot winner) TB hopen)
    | next => exact hrecord hopen

namespace Match

variable {clock : Prop} {ctx : Ctx} {w : World} {m m' : Match}

/-- What a turn does, if it counts the revision up where it must. -/
theorem Turn.later (h : m.Turn m') (hgrows : m.state.Grows m'.state)
    (hrevision : m.revision < m'.revision ∨ (m'.revision = m.revision ∧ m'.shown = m.shown)) :
    m.Later m' where
  revision := by
    cases hrevision with
    | inl hlt => exact Nat.le_of_lt hlt
    | inr hsame => exact Nat.le_of_eq hsame.1.symm
  shown := by
    intro heq
    cases hrevision with
    | inl hlt => exact absurd heq (Nat.ne_of_gt hlt)
    | inr hsame => exact hsame.2
  ranked := h.ranked
  seats := h.seats
  grows := hgrows
  final := fun hfinal => absurd hfinal (by rw [h.live]; exact Bool.false_ne_true)
  auto := fun hauto => (h.board hauto).1
  used := by
    intro hauto slotId hopen
    cases (h.board hauto).2 with
    | inl heq => rwa [heq] at hopen
    | inr hstep => exact hstep.used slotId hopen

theorem grows_record (ctx : Ctx) {slot : Slot} {winner : Option Team} {totals : PerTeam Nat}
    {players : List PlayerResult} {forfeit : Bool} {reason : String} :
    m.state.Grows (m.record ctx slot winner totals players forfeit reason).state where
  history := List.prefix_append _ _
  drafts := List.prefix_refl _
  wins := by
    intro team
    cases winner with
    | none => exact Nat.le_refl _
    | some scorer =>
      show m.state.wins.get team ≤
        (m.state.wins.set scorer (m.state.wins.get scorer + 1)).get team
      cases team <;> cases scorer <;> simp [PerTeam.get, PerTeam.set]
  item := Nat.le_refl _

theorem grows_select (slotId checksum : String) :
    m.state.Grows (m.select ctx slotId checksum).state where
  history := List.prefix_refl _
  drafts := List.prefix_refl _
  wins _ := Nat.le_refl _
  item := Nat.le_succ _

theorem grows_ban (slotId : String) : m.state.Grows (m.ban ctx slotId).state where
  history := List.prefix_refl _
  drafts := List.prefix_append _ _
  wins _ := Nat.le_refl _
  item := Nat.le_refl _

theorem grows_startDraft (m : Match) (ctx : Ctx) :
    m.state.Grows (m.startDraft ctx).state ∧ (m.startDraft ctx).revision = m.revision + 1 := by
  unfold startDraft
  dsimp only
  split <;> exact ⟨.of_tally rfl, rfl⟩

theorem Resumes.grows {slot : Slot} {winner : Option Team} {forfeit : Bool}
    (h : m.Resumes ctx w slot winner forfeit m') :
    m.state.Grows m'.state ∧ m'.revision = m.revision + 1 := by
  cases h with
  | replay => exact ⟨grows_select slot.id _, rfl⟩
  | tiebreak => exact ⟨grows_select "TB" _, rfl⟩
  | next => exact ⟨.of_tally rfl, rfl⟩

theorem Update.grows (h : m.Update clock ctx w m') : m.state.Grows m'.state ∧
    (m.revision < m'.revision ∨ (m'.revision = m.revision ∧ m'.shown = m.shown)) := by
  have hnext : m.revision < m.revision + 1 := Nat.lt_succ_self _
  cases h with
  | answer uid ready =>
    unfold Match.answer
    dsimp only
    split <;> exact ⟨.of_tally rfl, Or.inl hnext⟩
  | lobby => exact ⟨.of_tally rfl, Or.inl hnext⟩
  | start =>
    obtain ⟨hgrows, hrevision⟩ := m.grows_startDraft ctx
    exact ⟨hgrows, Or.inl (hrevision ▸ hnext)⟩
  | vote => exact ⟨.of_tally rfl, Or.inl hnext⟩
  | @choose _ chosen candidate =>
    let chosenState := { m.state with
      poolSelected := true
      slots := candidate.slots
      bestOf := candidate.bestOf
      bansPerTeam := candidate.bansPerTeam }
    obtain ⟨hgrows, hrevision⟩ :=
      grows_startDraft ({ m with poolId := chosen }.touch ctx chosenState) ctx
    have hchosen : m.state.Grows chosenState := .of_tally rfl
    exact ⟨hchosen.trans hgrows,
      Or.inl (Nat.lt_of_lt_of_eq (Nat.lt_succ_of_lt hnext) hrevision.symm)⟩
  | @ban _ slotId => exact ⟨grows_ban slotId, Or.inl hnext⟩
  | @pick _ slotId _ _ _ checksum => exact ⟨grows_select slotId checksum, Or.inl hnext⟩
  | heard => exact ⟨.of_tally rfl, Or.inr ⟨rfl, rfl⟩⟩
  | begins => exact ⟨.of_tally rfl, Or.inl hnext⟩
  | completes => exact ⟨.of_tally rfl, Or.inl hnext⟩
  | scores => exact ⟨.of_tally rfl, Or.inr ⟨rfl, rfl⟩⟩
  | force => exact ⟨.of_tally rfl, Or.inl hnext⟩
  | count _ _ hresumes =>
    obtain ⟨hgrows, hrevision⟩ := hresumes.grows
    refine ⟨(grows_record ctx).trans hgrows, Or.inl ?_⟩
    rw [hrevision]
    exact Nat.lt_succ_of_lt hnext

end Match

section Rows

variable {clock : Prop} {ctx : Ctx} {k : MatchId} {m : Match} {o : Option Match}

theorem RowChange.later (h : RowChange clock ctx k (some m) o) :
    ∃ m', o = some m' ∧ m.Later m' := by
  have hnext : m.revision < m.revision + 1 := Nat.lt_succ_self _
  cases h with
  | same => exact ⟨m, rfl, .refl m⟩
  | update w hupdate =>
    obtain ⟨hgrows, hrevision⟩ := hupdate.grows
    exact ⟨_, rfl, hupdate.move.turn.later hgrows hrevision⟩
  | ends hlive =>
    exact ⟨_, rfl, (Match.turn_closed hlive).later (.of_tally rfl) (Or.inl hnext)⟩
  | concludes w hslot hcounts hconcludes changes =>
    have hchange : RowChange clock ctx k (some m) _ :=
      .concludes w hslot hcounts hconcludes changes
    obtain ⟨m', hm', hturn⟩ := hchange.turn
    obtain rfl := Option.some.inj hm'
    refine ⟨_, rfl, ?_⟩
    cases hturn with
    | inl heq => rw [heq]; exact .refl m
    | inr hturn =>
      exact hturn.later ((Match.grows_record ctx).trans (.of_tally rfl))
        (Or.inl (Nat.lt_succ_of_lt hnext))
  | seat hranked hstage members team lease =>
    exact ⟨_, rfl, (Match.turn_seat hranked hstage members team lease).later (.of_tally rfl)
      (Or.inl hnext)⟩

theorem RowChanges.later (h : RowChanges clock ctx k (some m) o) :
    ∃ m', o = some m' ∧ m.Later m' := by
  induction h with
  | refl => exact ⟨m, rfl, .refl m⟩
  | tail _ hlast ih =>
    obtain ⟨m₁, rfl, hfirst⟩ := ih
    obtain ⟨m₂, rfl, hsecond⟩ := hlast.later
    exact ⟨m₂, rfl, hfirst.trans hsecond⟩

/-- A match stays in the table, as a later one. -/
theorem run_later {P : World → Event → Prop} {w w' : World} (h : Run Step P w w')
    (hrow : w.matchRows.row k = some m) : ∃ m', w'.matchRows.row k = some m' ∧ m.Later m' := by
  induction h with
  | refl => exact ⟨m, hrow, .refl m⟩
  | tail _ _ hlast ih =>
    obtain ⟨m₁, hrow₁, hfirst⟩ := ih
    obtain ⟨ctx, hrows⟩ := hlast.row k
    rw [hrow₁] at hrows
    obtain ⟨m₂, hrow₂, hsecond⟩ := hrows.later
    exact ⟨m₂, hrow₂, hfirst.trans hsecond⟩

theorem Reaches.auto {P : World → Event → Prop} {w : World} (h : Reaches P w)
    (hrow : w.matchRows.row k = some m) : m.auto :=
  h.row Match.auto (fun _ _ _ _ _ _ _ => ⟨rfl, rfl⟩) (fun _ _ hturn hm => (hturn.board hm).1) hrow

end Rows

/-! ## The promises to the players -/

/-- An accepted action names the revision of the row, unless the match was final. -/
theorem matchAction_revision {ctx : Ctx} {k : MatchId} {uid : UserId} {act : MatchAct}
    {slotId : Option String} {revision : Nat} {poolId : Option Nat} {u : Unit} {w t : World}
    {m : Match} (hrow : w.matchRows.row k = some m)
    (h : matchAction ctx k uid act slotId (some revision) poolId w = (.ok u, t)) :
    revision = m.revision ∨ t.matchRows = w.matchRows := by
  obtain ⟨m', _, hget, h⟩ := bind_ok.mp h
  obtain ⟨hrow', rfl⟩ := getMatch_ok hget
  obtain rfl := Option.some.inj (hrow.symm.trans hrow')
  obtain ⟨_, _, hmember, h⟩ := bind_ok.mp h
  obtain ⟨-, rfl⟩ := refuse_ok.mp hmember
  split at h
  · obtain ⟨_, _, hleave, h⟩ := bind_ok.mp h
    obtain ⟨-, rfl⟩ := refuse_ok.mp hleave
    obtain rfl := write_ok.mp h
    exact Or.inr rfl
  · obtain ⟨_, _, hcurrent, -⟩ := bind_ok.mp h
    obtain ⟨hcurrent, -⟩ := refuse_ok.mp hcurrent
    left
    by_contra hne
    exact hcurrent ⟨rfl, fun heq => hne (Option.some.inj heq)⟩

/-- Whatever happens between the moment at which a player sees a match and the moment at which an
action of that revision is accepted, the match is what was seen but for the reports of the game
server and the scores of bots, or it had ended and its row is not changed. -/
theorem revision_lock {P : World → Event → Prop} {w w' : World} (h : Run Step P w w')
    {k : MatchId} {m : Match} (hrow : w.matchRows.row k = some m) :
    ∃ m', w'.matchRows.row k = some m' ∧ m.revision ≤ m'.revision ∧
      (m'.revision = m.revision → m'.shown = m.shown) ∧
      ∀ ctx uid act slotId poolId t,
        matchAction ctx k uid act slotId (some m.revision) poolId w' = (.ok (), t) →
        m'.shown = m.shown ∨ t.matchRows = w'.matchRows := by
  obtain ⟨m', hrow', hlater⟩ := run_later h hrow
  refine ⟨m', hrow', hlater.revision, hlater.shown, ?_⟩
  intro ctx uid act slotId poolId t haction
  cases matchAction_revision hrow' haction with
  | inl heq => exact Or.inl (hlater.shown heq.symm)
  | inr hsame => exact Or.inr hsame

/-- From any reachable store on, the rounds and the draft of a match are only added to, no win is
taken back, no slot that was banned, picked or played is open again, a ranked match keeps its
teams, and a match that has ended stays as it is. -/
theorem match_grows {P : World → Event → Prop} {w w' : World} (h : Reaches P w)
    (hrun : Run Step P w w') {k : MatchId} {m : Match} (hrow : w.matchRows.row k = some m) :
    ∃ m', w'.matchRows.row k = some m' ∧
      m.state.history <+: m'.state.history ∧
      m.state.draftHistory <+: m'.state.draftHistory ∧
      (∀ team, m.state.wins.get team ≤ m'.state.wins.get team) ∧
      m.state.playlistItemId ≤ m'.state.playlistItemId ∧
      (∀ slotId slot', m'.state.findSlot slotId = some slot' → slot'.status = .available →
        ∃ slot, m.state.findSlot slotId = some slot ∧ slot.status = .available) ∧
      (m.ranked = true → m'.state.teams = m.state.teams) ∧
      (m.stage.final = true → m' = m) := by
  obtain ⟨m', hrow', hlater⟩ := run_later hrun hrow
  refine ⟨m', hrow', hlater.grows.history, hlater.grows.drafts, hlater.grows.wins,
    hlater.grows.item, ?_, ?_, hlater.final⟩
  · intro slotId slot' hslot' hstatus
    have hopen : m'.board.slots slotId = some .available := by
      show (m'.state.findSlot slotId).map (·.status) = _
      rw [hslot', Option.map_some, hstatus]
    exact Option.map_eq_some_iff.mp (hlater.used (h.auto hrow) slotId hopen)
  · intro hranked
    exact congrArg Match.Seats.teams (hlater.seats hranked)

/-- A duel in which one captain has banned a slot. -/
def banStore : World :=
  let act := fun (w : World) uid action => w.after (.steady 0) (.action uid ⟨.one, 0, 0⟩ action)
  let duel := act (act (World.fresh (players 2) (.sample (.division .bronze 0) 550)) 1
    (.directInvite (some 2) (some .duel) none)) 2 (.directAnswer (some 1) true)
  act duel 1 (.play (some 1) .ban (some "NM1") none none)

/-- The game server reports the room of the duel. -/
def pulse : Request := .roomEvent 1
  { event := .pulse, playlistItemId := 0, connected := [1, 2], ready := [], available := none }

theorem reaches_banStore : Reaches anyEvent banStore :=
  (((Reaches.initial (World.initial_fresh _ _)).after _ _ trivial).after _ _ trivial).after _ _
    trivial

/-- A report keeps the revision, and the row but for the report. -/
theorem revision_lock_pulse : ∃ m m', banStore.matchRows.row 1 = some m ∧
    (banStore.after (.steady 9) pulse).matchRows.row 1 = some m' ∧
    m'.state.connected ≠ m.state.connected ∧ m'.shown = m.shown := by
  have hrow : (banStore.matchRows.row 1).map (fun m => (m.revision, m.state.connected)) =
      some (3, []) := by decide +kernel
  have hrow' : ((banStore.after (.steady 9) pulse).matchRows.row 1).map
      (fun m => (m.revision, m.state.connected)) = some (3, [1, 2]) := by decide +kernel
  obtain ⟨m, hm, hfields⟩ := Option.map_eq_some_iff.mp hrow
  obtain ⟨m'', hm'', hfields'⟩ := Option.map_eq_some_iff.mp hrow'
  obtain ⟨hrevision, hconnected⟩ := Prod.mk.inj hfields
  obtain ⟨hrevision', hconnected'⟩ := Prod.mk.inj hfields'
  have hrun : Run Step anyEvent banStore (banStore.after (.steady 9) pulse) :=
    .single trivial (.served banStore (.steady 9) pulse)
  obtain ⟨m', hm', -, hshown, -⟩ := revision_lock hrun hm
  obtain rfl := Option.some.inj (hm''.symm.trans hm')
  refine ⟨m, m'', hm, hm'', ?_, hshown (hrevision'.trans hrevision.symm)⟩
  rw [hconnected, hconnected']
  decide

theorem match_grows_ban : ∃ m m', banStore.matchRows.row 1 = some m ∧
    (banStore.after (.steady 9) pulse).matchRows.row 1 = some m' ∧
    m.state.draftHistory ≠ [] ∧ m.state.draftHistory <+: m'.state.draftHistory := by
  have hrow : (banStore.matchRows.row 1).map (fun m => m.state.draftHistory.length) = some 1 := by
    decide +kernel
  obtain ⟨m, hm, hlength⟩ := Option.map_eq_some_iff.mp hrow
  have hrun : Run Step anyEvent banStore (banStore.after (.steady 9) pulse) :=
    .single trivial (.served banStore (.steady 9) pulse)
  obtain ⟨m', hm', -, hdrafts, -⟩ := match_grows reaches_banStore hrun hm
  exact ⟨m, m', hm, hm', List.ne_nil_of_length_pos (by omega), hdrafts⟩

end Soms.Somsai

import Soms.Somsai.Drafting
import Soms.Somsai.Exclusive

/-!
# The clock

The scheduled `tick` serves all matches in one transaction, so that one match
which raises would stop every other one.  In a reachable store none does, and a
match whose deadline has passed goes on.
-/

namespace Soms.Somsai

open Txn World

/-! ## Orderly matches -/

/-- What `tick_match` relies on in a row. -/
structure Match.Orderly (m : Match) : Prop where
  auto : m.auto
  board : m.board.Inv
  draft : ∃ F, m.draft.Inv F
  deadline : m.stage.final = false → m.state.deadline.isSome = true
  sizes : m.ranked = true → ∀ team, (m.state.teams.get team).length = m.format.size

section Rows

variable {clock : Prop} {ctx : Ctx} {k : MatchId} {w t : World} {m m' : Match}

theorem Match.isSome_deadline_startDraft :
    (m.startDraft ctx).state.deadline.isSome = true := by
  unfold startDraft
  dsimp only
  split <;> rfl

/-- No update takes the deadline away. -/
theorem Match.Update.deadline (h : m.Update clock ctx w m') (hm : m.state.deadline.isSome = true) :
    m'.state.deadline.isSome = true := by
  cases h with
  | answer uid ready =>
    unfold Match.answer
    dsimp only
    split <;> exact hm
  | lobby | vote | heard | scores => exact hm
  | start | choose => exact isSome_deadline_startDraft
  | ban | pick | begins | completes | force => rfl
  | count hslot hcounts hresumes => cases hresumes <;> rfl

theorem Match.Orderly.sizes_of_seats (h : m.Orderly) (hseats : m'.seats = m.seats)
    (hranked : m'.ranked = true) (team : Team) :
    (m'.state.teams.get team).length = m'.format.size := by
  rw [show m'.state.teams = m.state.teams from congrArg Match.Seats.teams hseats,
    show m'.format = m.format from congrArg Match.Seats.format hseats]
  refine h.sizes ?_ team
  rw [← hranked]
  exact (congrArg Match.Seats.ranked hseats).symm

theorem RowChange.opens_orderly (h : RowChange clock ctx k none (some m)) : m.Orderly := by
  cases h with
  | opens setup rating room hpool hranked =>
    obtain ⟨hauto, hboard⟩ := newMatch_board hpool
    exact ⟨hauto, hboard, ⟨_, newMatch_draft hpool⟩, fun _ => rfl, hranked⟩

/-- Every change of a row keeps it orderly. -/
theorem RowChange.orderly (h : RowChange clock ctx k (some m) (some m')) (hm : m.Orderly) :
    m'.Orderly := by
  obtain ⟨F, hdraft⟩ := hm.draft
  have hboard : m'.auto ∧ m'.board.Inv := by
    obtain ⟨_, ⟨⟩, rfl | hturn⟩ := h.turn
    · exact ⟨hm.auto, hm.board⟩
    · obtain ⟨hauto, hsame | hstep⟩ := hturn.board hm.auto
      · exact ⟨hauto, hsame ▸ hm.board⟩
      · exact ⟨hauto, hstep.inv hm.board⟩
  refine ⟨hboard.1, hboard.2, ⟨F, h.draft hm.auto hm.board hdraft⟩, ?_, ?_⟩
  · cases h with
    | same => exact hm.deadline
    | update w hupdate => exact fun _ => hupdate.deadline (hm.deadline hupdate.live)
    | @ends _ _ winner cancelled reason =>
      exact fun hlive => absurd ((final_finalStage cancelled).symm.trans hlive) (by simp)
    | @concludes _ _ slot winner totals players forfeit reason _ _ champion cancelled =>
      exact fun hlive => absurd ((final_finalStage cancelled).symm.trans hlive) (by simp)
    | seat hranked hstage => exact fun _ => hm.deadline (by rw [hstage]; rfl)
  · cases h with
    | same => exact hm.sizes
    | update w hupdate => exact hm.sizes_of_seats hupdate.move.seats
    | ends => exact hm.sizes_of_seats rfl
    | concludes => exact hm.sizes_of_seats rfl
    | seat hcustom =>
      intro hranked
      rw [show m.ranked = true from hranked] at hcustom
      simp at hcustom

end Rows

/-! ## Known players -/

/-- Everybody who queues or plays for ratings has an account. -/
structure World.Known (w : World) : Prop where
  entries : ∀ i e, w.queue.row i = some e → ∀ uid ∈ e.members, (w.account uid).isSome = true
  rosters : ∀ k m, w.matchRows.row k = some m → m.ranked = true → ∀ uid ∈ membersOf m,
    (w.account uid).isSome = true

section Known

variable {clock : Prop} {ctx : Ctx} {w t : World}

/-- Accounts are kept, queue rows keep their members and ranked matches their rosters. -/
theorem World.Known.frame (h : w.Known)
    (haccount : ∀ uid b, w.account uid = some b → t.account uid = some b)
    (hqueue : ∀ i e, t.queue.row i = some e → ∃ j e', w.queue.row j = some e' ∧
      e.members = e'.members)
    (hrows : ∀ k m, t.matchRows.row k = some m → m.ranked = true → ∃ m', w.matchRows.row k = some m' ∧
      m'.ranked = true ∧ membersOf m = membersOf m') : t.Known := by
  have hkept : ∀ uid, (w.account uid).isSome = true → (t.account uid).isSome = true := by
    intro uid hsome
    obtain ⟨b, hb⟩ := Option.isSome_iff_exists.mp hsome
    rw [haccount uid b hb]
    rfl
  refine ⟨fun i e he uid huid => ?_, fun k m hm hranked uid huid => ?_⟩
  · obtain ⟨j, e', he', heq⟩ := hqueue i e he
    exact hkept uid (h.entries j e' he' uid (heq ▸ huid))
  · obtain ⟨m', hm', hranked', heq⟩ := hrows k m hm hranked
    exact hkept uid (h.rosters k m' hm' hranked' uid (heq ▸ huid))

/-- A row that a change did not open was ranked with the same roster before. -/
theorem RowChange.roster {k : MatchId} {m m' : Match} (h : RowChange clock ctx k (some m) (some m'))
    (hranked : m'.ranked = true) : m.ranked = true ∧ membersOf m' = membersOf m := by
  obtain ⟨_, ⟨⟩, rfl | hturn⟩ := h.turn
  · exact ⟨hranked, rfl⟩
  · have hold : m.ranked = true := hturn.ranked ▸ hranked
    have hteams : m'.state.teams = m.state.teams :=
      congrArg Match.Seats.teams (hturn.seats hold)
    exact ⟨hold, by simp only [membersOf, hteams]⟩

theorem Play.queue_account {k : MatchId} (h : Play clock ctx k w t) :
    t.queue = w.queue ∧ t.account = w.account := by
  cases h with
  | quiet hq => exact ⟨congrArg Core.queue hq.core, congrArg Core.account hq.core⟩
  | move => exact ⟨rfl, rfl⟩
  | finish hrow hlive =>
    obtain ⟨_, _, _, hframe⟩ := finishMatch_frame ctx _ _ _ hrow hlive
    rw [hframe]
    exact ⟨rfl, rfl⟩
  | @round m hrow slot winner totals players forfeit reason hslot hcounts champion cancelled why =>
    have hlive : (m.record ctx slot winner totals players forfeit reason).stage.final = false :=
      hcounts.live
    obtain ⟨_, _, _, hframe⟩ := finishMatch_frame ctx champion cancelled why
      (row_putMatch hrow _) hlive
    rw [hframe]
    exact ⟨rfl, rfl⟩

/-- A play opens no match. -/
theorem Play.absent {k j : MatchId} (h : Play clock ctx k w t) (hnone : w.matchRows.row j = none) :
    t.matchRows.row j = none := by
  have hput : ∀ {v : World} {m m' : Match}, v.matchRows.row k = some m → v.matchRows.row j = none →
      (v.putMatch k m').matchRows.row j = none := by
    intro v m m' hrow hnone
    rw [row_putMatch_other fun hj => ?_, hnone]
    rw [hj, hrow] at hnone
    simp at hnone
  cases h with
  | quiet hq => exact hq.row.trans hnone
  | move hrow => exact hput hrow hnone
  | finish hrow hlive =>
    obtain ⟨_, _, _, hframe⟩ := finishMatch_frame ctx _ _ _ hrow hlive
    rw [hframe]
    exact hput hrow hnone
  | @round m hrow slot winner totals players forfeit reason hslot hcounts champion cancelled why =>
    have hlive : (m.record ctx slot winner totals players forfeit reason).stage.final = false :=
      hcounts.live
    obtain ⟨_, _, _, hframe⟩ := finishMatch_frame ctx champion cancelled why
      (row_putMatch hrow _) hlive
    rw [hframe]
    exact hput (row_putMatch hrow _) (hput hrow hnone)

/-- Queue rows that were there before. -/
theorem World.older_entry {i : Nat} {e : QueueEntry} (h : w.queue.row i = some e) :
    ∃ j e', w.queue.row j = some e' ∧ e.members = e'.members :=
  ⟨i, e, h, rfl⟩

/-- Every change keeps the players known. -/
theorem World.Change.known (h : Change clock ctx w t) (hw : w.Known) : t.Known := by
  have hrows : (∀ k m, w.matchRows.row k = none → t.matchRows.row k = some m → m.ranked = false) →
      ∀ k m, t.matchRows.row k = some m → m.ranked = true → ∃ m', w.matchRows.row k = some m' ∧
        m'.ranked = true ∧ membersOf m = membersOf m' := by
    intro hnew k m hm hranked
    have hchange := World.Change.row h k
    rw [hm] at hchange
    cases hold : w.matchRows.row k with
    | none =>
      rw [hnew k m hold hm] at hranked
      simp at hranked
    | some m' =>
      rw [hold] at hchange
      obtain ⟨hranked', hmembers⟩ := hchange.roster hranked
      exact ⟨m', rfl, hranked', hmembers⟩
  -- Queue rows go or stay, and the other tables stay as they are.
  have hqueue : t.account = w.account → t.matchRows = w.matchRows →
      (∀ i e, t.queue.row i = some e → ∃ j e', w.queue.row j = some e' ∧ e.members = e'.members) →
      t.Known := by
    intro haccount hsame hqueue
    refine hw.frame (fun uid b hb => haccount ▸ hb) hqueue (hrows fun k m hnone hm => ?_)
    rw [hsame, hnone] at hm
    simp at hm
  cases h with
  | play h =>
    obtain ⟨hsame, haccount⟩ := h.queue_account
    refine hw.frame (fun uid b hb => haccount ▸ hb) (fun i e he => older_entry (hsame ▸ he))
      (hrows fun k m hnone hm => ?_)
    rw [h.absent hnone] at hm
    simp at hm
  | expire =>
    obtain ⟨_, _, hframe⟩ := releaseReservation_frame ctx.now w _
    rw [hframe] at hqueue ⊢
    exact hqueue rfl rfl fun i e he => older_entry he
  | renew => exact hqueue rfl rfl fun i e he => older_entry he
  | refresh i time =>
    refine hqueue rfl rfl fun j e he => ?_
    rw [Table.row_modify] at he
    split at he
    · obtain ⟨e', he', rfl⟩ := Option.map_eq_some_iff.mp he
      exact ⟨j, e', he', rfl⟩
    · exact older_entry he
  | @drop x hrow =>
    have hrows := row_dropEntry ctx.now w x
    obtain ⟨_, _, hframe⟩ := releaseReservation_frame ctx.now w x.2.reservationId
    have haccount : (w.dropEntry ctx.now x).account = w.account := by
      rw [dropEntry, hframe]
      rfl
    refine hqueue haccount (rows_releaseReservation ctx.now w _) fun i e he => ?_
    rw [hrows] at he
    split at he
    · simp at he
    · exact older_entry he
  | @enqueue u hl entry x hnew hrow hmembers hplayers =>
    obtain ⟨_, hframe⟩ := enqueue_frame ctx.now entry u
    have hu : u.Known := hw.frame (fun uid b hb => account_leases hl uid b hb)
      (fun i e he => older_entry (hl.queue ▸ he)) fun k m hm hranked => ⟨m, hl.rows ▸ hm, hranked, rfl⟩
    rw [hframe]
    refine ⟨fun i e he uid huid => ?_, hu.rosters⟩
    have he : (u.queue.insert entry).row i = some e := he
    rw [Table.row_insert] at he
    split at he
    · obtain rfl := Option.some.inj he
      show (u.account uid).isSome = true
      rw [hplayers uid huid]
      rfl
    · exact hu.entries i e he uid huid
  | @group selected teams anchor pool rating hselected hteams =>
    obtain ⟨_, hframe⟩ := deleteEntries_frame selected
      (w.openMatch ctx (groupSetup selected teams anchor) pool rating)
    have hdelete := row_deleteEntries
      (w.openMatch ctx (groupSetup selected teams anchor) pool rating) selected
    have hcore := core_openMatch ctx (groupSetup selected teams anchor) pool rating w
    have haccount : (w.openMatch ctx (groupSetup selected teams anchor) pool rating).account =
        w.account := congrArg Core.account hcore
    have hsame : (w.openMatch ctx (groupSetup selected teams anchor) pool rating).queue = w.queue :=
      congrArg Core.queue hcore
    rw [hsame] at hdelete
    have hrosters := row_openMatch ctx (groupSetup selected teams anchor) pool rating w
    have haccount' : ∀ uid, (((w.openMatch ctx (groupSetup selected teams anchor) pool
        rating).deleteEntries selected).account uid).isSome = (w.account uid).isSome := by
      intro uid
      rw [hframe, ← haccount]
      rfl
    refine ⟨fun i e he uid huid => ?_, fun k m hm hranked uid huid => ?_⟩
    · rw [hdelete] at he
      split at he
      · simp at he
      · rw [haccount']
        exact hw.entries i e he uid huid
    · rw [rows_deleteEntries, hrosters, Table.row_insert] at hm
      rw [haccount']
      split at hm
      · -- The members of the new match were in the selected queue rows.
        obtain rfl := Option.some.inj hm
        have huid : uid ∈ teams.red ++ teams.blue := huid
        rw [hteams.mem_iff, unitMembers, List.mem_flatMap] at huid
        obtain ⟨e, he, huid⟩ := huid
        obtain ⟨x, hx, rfl⟩ := List.mem_map.mp he
        exact hw.entries x.1 x.2 (hselected.current x hx) uid huid
      · exact hw.rosters k m hm hranked uid huid
  | @ungroup selected hselected =>
    obtain ⟨_, _, hrelease⟩ := releaseAll_frame ctx.now (selected.map fun x => x.2.reservationId) w
    obtain ⟨_, hframe⟩ := deleteEntries_frame selected ((selected.map fun x =>
      x.2.reservationId).foldl (releaseReservation ctx.now) w)
    have hdelete := row_deleteEntries ((selected.map fun x => x.2.reservationId).foldl
      (releaseReservation ctx.now) w) selected
    refine hqueue (by rw [hframe, hrelease]; rfl) (by rw [hframe, hrelease]) fun i e he => ?_
    rw [hdelete, hrelease] at he
    split at he
    · simp at he
    · exact older_entry he
  | @opened u hl setup pool rating hranked hleased hseating hpool =>
    have hcore := core_openMatch ctx setup pool rating u
    refine hw.frame (fun uid b hb => ?_) (fun i e he => ?_) (hrows fun k m hnone hm => ?_)
    · rw [show (u.openMatch ctx setup pool rating).account = u.account from
        congrArg Core.account hcore]
      exact account_leases hl uid b hb
    · rw [show (u.openMatch ctx setup pool rating).queue = u.queue from congrArg Core.queue hcore,
        hl.queue] at he
      exact older_entry he
    · rw [row_openMatch, Table.row_insert, hl.rows, hnone] at hm
      split at hm
      · rw [← Option.some.inj hm]
        exact hranked
      · simp at hm
  | @seat u hl k m hrow hranked hstage members team lease hseated hfree hfits =>
    have hcore := core_pointAt ctx k members (u.putMatch k (m.seat ctx members team lease))
    refine hw.frame (fun uid b hb => ?_) (fun i e he => ?_) (hrows fun j m' hnone hm => ?_)
    · rw [show (World.pointAt ctx k members _).account = u.account from
        congrArg Core.account hcore]
      exact account_leases hl uid b hb
    · rw [show (World.pointAt ctx k members _).queue = u.queue from congrArg Core.queue hcore,
        hl.queue] at he
      exact older_entry he
    · rw [show (World.pointAt ctx k members _).matchRows =
        (u.putMatch k (m.seat ctx members team lease)).matchRows from congrArg Core.matchRows hcore]
        at hm
      by_cases hj : j = k
      · rw [hj, hrow] at hnone
        simp at hnone
      · rw [row_putMatch_other hj, hl.rows, hnone] at hm
        simp at hm

theorem World.Changes.known (h : Changes clock ctx w t) (hw : w.Known) : t.Known := by
  induction h with
  | refl => exact hw
  | tail _ hlast ih => exact hlast.known ih

theorem World.Quiet.known (h : Quiet w t) (hw : w.Known) : t.Known :=
  (Quiet.changes h : Changes True (.steady 0) w t).known hw

theorem Departure.known {request : Request} (h : Departure ctx request w t) (hw : w.Known) :
    t.Known := by
  cases h with
  | forget => exact ⟨hw.entries, hw.rosters⟩
  | claim | release =>
    obtain ⟨_, _, hframe⟩ := releaseReservation_frame ctx.now w _
    rw [hframe]
    exact ⟨hw.entries, hw.rosters⟩

/-- Every event keeps the players known. -/
theorem Step.known {e : Event} (h : Step w e t) (hw : w.Known) : t.Known := by
  cases h with
  | served ctx request =>
    rcases after_served w ctx request with h | ⟨hquiet, -, hdepart, hrest⟩
    · exact h.known hw
    · have hlock : Changes True ctx w _ := lockSomsai_changes ctx w
      exact hrest.known (hdepart.known (hquiet.known (hlock.known hw)))
  | changed o ho =>
    refine hw.frame (fun uid b hb => ?_) (fun i e he => older_entry he)
      fun k m hm hranked => ⟨m, hm, hranked, rfl⟩
    obtain ⟨user, hrow, rfl⟩ := Option.map_eq_some_iff.mp hb
    obtain ⟨user', hrow', hbot⟩ := ho.users_kept uid user hrow
    show (o.users.row uid).map (·.isBot) = _
    rw [hrow', Option.map_some, hbot]

end Known

/-- A store whose matches can all be ticked. -/
structure World.Orderly (w : World) : Prop where
  rows : ∀ k m, w.matchRows.row k = some m → m.Orderly
  known : w.Known

theorem World.Changes.orderly {ctx : Ctx} {w t : World} (h : Changes clock ctx w t) (hw : w.Orderly) :
    t.Orderly where
  rows k := (World.Changes.row h k).keeps (fun _ _ _ _ => RowChange.opens_orderly)
    (fun _ _ _ _ _ => RowChange.orderly) (hw.rows k)
  known := World.Changes.known h hw.known

/-- Every reachable store is orderly. -/
theorem Reaches.orderly {P : World → Event → Prop} {w : World} (h : Reaches P w) : w.Orderly where
  rows k m hrow := h.rows Match.Orderly (fun _ _ _ _ => RowChange.opens_orderly)
    (fun _ _ _ _ _ => RowChange.orderly) hrow
  known := by
    obtain ⟨w₀, h₀, hrun⟩ := h
    have hstart : w₀.Known := ⟨by simp [h₀.queue], by simp [h₀.matchRows]⟩
    have hinv := hrun.invariant (fun s e t hs _ hone => hone.known hs) hstart
    exact hinv

/-! ## Progress -/

/-- The match is over, is in another stage, plays another item, has one more ban,
or may start without everybody's answer. -/
def Match.Advances (m m' : Match) : Prop :=
  m'.stage.final = true ∨ m'.stage ≠ m.stage ∨
    m'.state.playlistItemId = m.state.playlistItemId + 1 ∨
    (∃ ban, m'.state.draftHistory = m.state.draftHistory ++ [ban]) ∨
    (m.state.forceStart = false ∧ m'.state.forceStart = true)

/-- The row of the match after a body that advanced it. -/
def World.Advanced (k : MatchId) (m : Match) (t : World) : Prop :=
  ∃ m', t.matchRows.row k = some m' ∧ m.Advances m'

section Progress

variable {clock : Prop} {ctx : Ctx} {k : MatchId} {w : World} {m : Match}

/-- A match that ends is over. -/
theorem advanced_finish {m₀ : Match} (hrow : w.matchRows.row k = some m)
    (hlive : m.stage.final = false) (winner : Option Team) (cancelled : Bool) (reason : String) :
    (w.finishMatch ctx k winner cancelled reason).Advanced k m₀ := by
  obtain ⟨changes, _, _, hframe⟩ := finishMatch_frame ctx winner cancelled reason hrow hlive
  rw [hframe]
  exact ⟨_, row_putMatch hrow _, .inl (final_finalStage cancelled)⟩

/-- A selection starts the next item or ends the match. -/
theorem selectMap_returns {slotId : String} {slot : Slot} (hrow : w.matchRows.row k = some m)
    (hlive : m.stage.final = false) (hslot : m.state.findSlot slotId = some slot) {m₀ : Match}
    (hitem : m₀.state.playlistItemId = m.state.playlistItemId) :
    Returns (selectMap ctx k slotId) w fun _ t => t.Advanced k m₀ := by
  refine returns_require hrow ?_
  refine returns_require hslot ?_
  refine returns_write ?_
  unfold selectSlot
  split
  · exact advanced_finish hrow hlive _ _ _
  · exact ⟨_, row_putMatch hrow _, .inr (.inr (.inl (congrArg (· + 1) hitem.symm)))⟩

/-- A slot of a pool is found by its id. -/
theorem findSlot_of_mem {state : MatchState} {slot : Slot} (hmem : slot ∈ state.slots)
    (hnodup : (state.slots.map (·.id)).Nodup) : state.findSlot slot.id = some slot := by
  have hfound : (state.findSlot slot.id).isSome = true :=
    List.find?_isSome.mpr ⟨slot, hmem, by simp⟩
  obtain ⟨found, hfound⟩ := Option.isSome_iff_exists.mp hfound
  rw [hfound, List.inj_on_of_nodup_map hnodup (List.mem_of_find?_eq_some hfound) hmem
    (findSlot_id hfound)]

/-- The draft goes on with any available slot, for whoever is captain. -/
theorem draftAction_returns {slot : Slot} (hrow : w.matchRows.row k = some m)
    (hstage : m.stage = .banning ∨ m.stage = .picking) (hslot : slot ∈ m.state.availableSlots)
    (hnodup : (m.state.slots.map (·.id)).Nodup) :
    Returns (draftAction ctx k (m.state.captains.get m.state.turnTeam) m.draftKind slot.id) w
      fun _ t => t.Advanced k m := by
  obtain ⟨hmem, hfree⟩ := List.mem_filter.mp hslot
  have hfree : slot.status = .available := of_decide_eq_true hfree
  have hfind : m.state.findSlot slot.id = some slot := findSlot_of_mem hmem hnodup
  have hphase : m.stage = m.draftKind.stage := by
    unfold Match.draftKind
    rcases hstage with h | h <;> simp [h, DraftKind.stage]
  have hlive : m.stage.final = false := by rcases hstage with h | h <;> rw [h] <;> rfl
  refine returns_require hrow ?_
  refine returns_refuse (fun hne => hne rfl) ?_
  refine returns_refuse (fun hne => hne hphase) ?_
  refine returns_require hfind ?_
  refine returns_refuse (fun hne => hne hfree) ?_
  cases m.draftKind with
  | ban => exact returns_write ⟨_, row_putMatch hrow _, .inr (.inr (.inr (.inl ⟨_, rfl⟩)))⟩
  | pick => exact selectMap_returns hrow hlive hfind rfl

/-- A round that is played can be counted. -/
theorem completeRound_returns {slot : Slot} (hrow : w.matchRows.row k = some m)
    (hround : m.stage.inRound = true) (hboard : m.board.Inv)
    (hslot : m.state.playedSlot = some slot) (winner : Option Team) (totals : PerTeam Nat)
    (players : List PlayerResult) (forfeit : Bool) (reason : String) :
    Returns (completeRound ctx k winner totals players forfeit reason) w
      fun _ t => t.Advanced k m := by
  have hlive := Match.inRound_live hround
  refine returns_require hrow ?_
  refine returns_require hslot ?_
  have hput := row_putMatch hrow (m.record ctx slot winner totals players forfeit reason)
  have hselect : ∀ slotId,
      ((m.record ctx slot winner totals players forfeit reason).state.findSlot slotId).isSome =
        true →
      Returns (selectMap ctx k slotId)
        (w.putMatch k (m.record ctx slot winner totals players forfeit reason))
        fun _ t => t.Advanced k m := by
    intro slotId hfound
    obtain ⟨found, hfound⟩ := Option.isSome_iff_exists.mp hfound
    exact selectMap_returns hput hlive hfound rfl
  refine returns_after (a := ()) rfl ?_
  split
  · exact returns_write (advanced_finish hput hlive _ _ _)
  · split
    · split
      · exact returns_write (advanced_finish hput hlive _ _ _)
      · exact hselect _ (Match.findSlot_record hslot)
    · split
      · refine hselect "TB" ?_
        have htie := (hboard.record (Match.board_inRound hround) (playedSlot_some hslot).1
          winner).tiebreaker
        have hboard' : (m.record ctx slot winner totals players forfeit reason).board =
            m.board.record slot.id winner := Match.board_record hslot
        rw [← hboard'] at htie
        have hslots : (((m.record ctx slot winner totals players forfeit reason).state.findSlot
            TB).map (·.status)).isSome = true := by
          rcases htie with h | h | h <;> exact Option.isSome_of_eq_some h
        rwa [Option.isSome_map] at hslots
      · refine returns_write ?_
        rw [putMatch_putMatch]
        refine ⟨_, row_putMatch hrow _, .inr (.inl fun heq => ?_)⟩
        rw [← show Stage.picking = m.stage from heq] at hround
        simp [Stage.inRound] at hround

theorem settleRound_returns {slot : Slot} {force : Bool} (hrow : w.matchRows.row k = some m)
    (hstage : m.stage = .results) (hboard : m.board.Inv) (hslot : m.state.playedSlot = some slot) :
    Returns (settleRound ctx k force) w fun _ t => ∃ m', t.matchRows.row k = some m' ∧
      (force = true → m.Advances m') := by
  refine returns_require hrow (returns_when (fun _ => ?_) fun hnot => ?_)
  · refine returns_require hslot (returns_after (read_ok.mpr ⟨rfl, rfl⟩) ?_)
    refine returns_when (fun _ => ?_) fun hopen => ?_
    · refine (completeRound_returns hrow (by rw [hstage]; rfl) hboard hslot _ _ _ _ _).mono ?_
      rintro _ t ⟨m', hrow', hadvance⟩
      exact ⟨m', hrow', fun _ => hadvance⟩
    · refine ⟨m, hrow, fun hforce => ?_⟩
      simp [hforce] at hopen
  · simp [hstage] at hnot

theorem registerDodge_returns {now : Time} {key : Int} {uid : UserId}
    (hknown : (w.account uid).isSome = true) :
    Returns (registerDodge now key uid none true) w fun _ _ => True := by
  have huser : ¬ (w.users.row uid).isNone = true := by
    rw [account, Option.isSome_map] at hknown
    rw [Option.isNone_iff_eq_none]
    exact Option.isSome_iff_ne_none.mp hknown
  refine returns_after (read_ok.mpr ⟨rfl, rfl⟩) ?_
  cases w.penaltyAt key with
  | some penalty => exact returns_pure trivial
  | none =>
    refine returns_refuse huser (returns_refuse (by simp) ?_)
    exact ⟨_, _, rfl, trivial⟩

/-- Penalties for players who have accounts. -/
theorem penaliseUnaccepted_returns {uids : List UserId}
    (hknown : ∀ uid ∈ membersOf m, (w.account uid).isSome = true) :
    Returns (penaliseUnaccepted ctx k m uids) w fun _ t => Quiet w t := by
  refine returns_forM (Quiet w) (fun uid _ t ht => ?_) (.refl w)
  refine returns_when (fun hmem => ?_) fun _ => ht
  have haccount : (t.account uid).isSome = true := by
    rw [show t.account = w.account from congrArg Core.account ht.core]
    exact hknown uid (of_decide_eq_true hmem)
  refine (registerDodge_returns haccount).follows (R := Quiet) |>.bind fun _ v hv => ?_
  exact returns_pure (ht.trans hv.2)

/-- The reaction to a deadline that has passed. -/
theorem deadlineExpired_returns (hrow : w.matchRows.row k = some m) (hm : m.Orderly)
    (hknown : m.ranked = true → ∀ uid ∈ membersOf m, (w.account uid).isSome = true)
    (hlive : m.stage.final = false) (hround : m.stage ≠ .results) :
    Returns (deadlineExpired ctx k m) w fun _ t => t.Advanced k m := by
  obtain ⟨F, hdraft⟩ := hm.draft
  have hfinish : ∀ reason, Returns (write (World.finishMatch ctx k none true reason) : Act Unit) w
      fun _ t => t.Advanced k m := fun reason =>
    returns_write (advanced_finish hrow hlive none true reason)
  have hnodup : (m.state.slots.map (·.id)).Nodup := by
    rw [show m.state.slots.map (·.id) = _ from hdraft.slots_eq]
    exact ruleFor_slots_nodup _
  unfold deadlineExpired
  cases hstage : m.stage with
  | waiting =>
    have hpenalise : Returns (when m.ranked (penaliseUnaccepted ctx k m
        ((membersOf m).filter fun uid => uid ∉ m.state.accepted))) w fun _ t => Quiet w t :=
      returns_when (fun hranked => penaliseUnaccepted_returns (hknown hranked)) fun _ => .refl w
    refine hpenalise.bind fun _ t ht => ?_
    exact returns_write (advanced_finish (ht.row.trans hrow) hlive none true _)
  | poolSelect => exact absurd hstage hm.board.noVote
  | banning | picking =>
    dsimp only
    split
    · exact hfinish _
    · next slot rest hslots =>
      refine draftAction_returns hrow (by simp [hstage]) ?_ hnodup
      rw [hslots]
      exact List.mem_cons_self
  | ready =>
    have hplayed : m.stage.inRound = true := by rw [hstage]; rfl
    obtain ⟨-, slot, hslot, -, -⟩ := hdraft.inRound hplayed
    dsimp only
    unfold readyExpired
    dsimp only
    split
    · exact completeRound_returns hrow hplayed hm.board hslot _ _ _ _ _
    · next hnone =>
      refine returns_write ⟨_, row_putMatch hrow _, .inr (.inr (.inr (.inr ⟨?_, rfl⟩)))⟩
      simp only [not_or, Bool.not_eq_true] at hnone
      exact hnone.2
  | playing => exact hfinish _
  | results => exact absurd hstage hround
  | ended | cancelled =>
    rw [hstage] at hlive
    simp [Stage.final] at hlive

theorem chooseDraftSlot_mem {bots : List Bot} {slots : List Slot} {banning : Bool} {slot : Slot}
    (h : chooseDraftSlot ctx k bots slots banning = some slot) : slot ∈ slots := by
  unfold chooseDraftSlot at h
  dsimp only at h
  obtain ⟨x, hx, rfl⟩ := Option.map_eq_some_iff.mp h
  have hmem := (foldl_keeps_or_takes (fun best y => ?_) hx).resolve_left (by simp)
  · obtain ⟨z, hz, rfl⟩ := List.mem_map.mp hmem
    exact List.fst_mem_of_mem_zipIdx hz
  · cases best with
    | none => exact .inr rfl
    | some b =>
      dsimp only
      split <;> split
      · exact .inr rfl
      · exact .inl rfl
      · exact .inr rfl
      · exact .inl rfl

/-- Every match of an orderly store can be ticked, and its deadline moves it on. -/
theorem tickMatch_returns (hw : w.Orderly) (hrow : w.matchRows.row k = some m) :
    Returns (tickMatch ctx k) w fun _ t => ∃ m', t.matchRows.row k = some m' ∧
      (m.stage.final = false → m.expired ctx.now = true → m.Advances m') := by
  have hm := hw.rows k m hrow
  obtain ⟨F, hdraft⟩ := hm.draft
  have hnodup : (m.state.slots.map (·.id)).Nodup := by
    rw [show m.state.slots.map (·.id) = _ from hdraft.slots_eq]
    exact ruleFor_slots_nodup _
  have hadvanced : ∀ t : World, t.Advanced k m → ∃ m', t.matchRows.row k = some m' ∧
      (m.stage.final = false → m.expired ctx.now = true → m.Advances m') := by
    rintro t ⟨m', hrow', hadvance⟩
    exact ⟨m', hrow', fun _ _ => hadvance⟩
  refine returns_require hrow ?_
  split
  · next hfinal =>
    refine returns_pure ⟨m, hrow, fun hlive => ?_⟩
    rw [hfinal] at hlive
    simp at hlive
  · next hnot =>
    have hlive : m.stage.final = false := by simpa using hnot
    split
    · exact returns_write (hadvanced _ (advanced_finish hrow hlive _ _ _))
    · split
      · exact returns_write (hadvanced _ (advanced_finish hrow hlive _ _ _))
      · unfold tickStage
        cases hbot : botChoice ctx k m with
        | some slot =>
          unfold botChoice at hbot
          split at hbot
          · next hturn =>
            have hstage : m.stage = .banning ∨ m.stage = .picking := by
              simp only [Match.botTurn, Bool.and_eq_true, Bool.or_eq_true, decide_eq_true_eq]
                at hturn
              exact hturn.1.1
            refine (draftAction_returns hrow hstage (chooseDraftSlot_mem hbot) hnodup).mono ?_
            exact fun _ t => hadvanced t
          · simp at hbot
        | none =>
          dsimp only
          split
          · next hstage =>
            obtain ⟨-, slot, hslot, -, -⟩ := hdraft.inRound (by
              rw [show m.draft.stage = .results from hstage]; rfl)
            refine (settleRound_returns hrow hstage hm.board hslot).mono ?_
            rintro _ t ⟨m', hrow', hadvance⟩
            exact ⟨m', hrow', fun _ => hadvance⟩
          · next hstage =>
            refine returns_when (fun _ => ?_) fun hopen => ⟨m, hrow, fun _ hexpired => ?_⟩
            · refine (deadlineExpired_returns hrow hm (hw.known.rosters k m hrow) hlive
                hstage).mono ?_
              exact fun _ t => hadvanced t
            · rw [hopen] at hexpired
              simp at hexpired

/-- No change removes a match. -/
theorem RowChanges.stays {o o' : Option Match} (h : RowChanges clock ctx k o o') (ho : o = some m) :
    ∃ m', o' = some m' := by
  induction h with
  | refl => exact ⟨m, ho⟩
  | tail _ hlast ih =>
    obtain ⟨m₁, rfl⟩ := ih
    obtain ⟨m', rfl, -⟩ := hlast.turn
    exact ⟨m', rfl⟩

/-- The loop of `tick` over the matches. -/
theorem tickAll_returns {rows : List (MatchId × Match)} (hw : w.Orderly)
    (hrows : ∀ x ∈ rows, ∃ m, w.matchRows.row x.1 = some m) :
    Returns (rows.forM fun x => tickMatch ctx x.1) w fun _ t => t.Orderly := by
  have hloop := returns_forM (l := rows) (f := fun x => tickMatch ctx x.1)
    (fun t : World => t.Orderly ∧ ∀ x ∈ rows, ∃ m, t.matchRows.row x.1 = some m)
    (fun x hx t ht => ?_) ⟨hw, hrows⟩
  · exact hloop.mono fun _ t ht => ht.1
  · obtain ⟨m, hrow⟩ := ht.2 x hx
    have hticks : Follows (Changes True ctx) (tickMatch ctx x.1) := tickMatch_changes trivial
    refine (tickMatch_returns ht.1 hrow).follows (R := Changes True ctx).mono fun _ v hv => ?_
    have hchanges := hv.2
    refine ⟨hchanges.orderly ht.1, fun y hy => ?_⟩
    obtain ⟨n, hn⟩ := ht.2 y hy
    exact (World.Changes.row hchanges y.1).stays hn

end Progress

/-- In every reachable store each live match has a deadline, every tick of it
returns, and once the deadline has passed the tick moves the match on; the
members whose ratings its end would average are there; and no match stops the
others, since `tick` returns whenever `match_queues` does. -/
theorem tick_progress {P : World → Event → Prop} {w : World} (h : Reaches P w) :
    (∀ k m, w.matchRows.row k = some m → m.stage.final = false →
      m.state.deadline.isSome = true ∧
      (m.ranked = true → ∀ team, m.state.teams.get team ≠ []) ∧
      ∀ ctx, ∃ t m', tickMatch ctx k w = (.ok (), t) ∧ t.matchRows.row k = some m' ∧
        (m.expired ctx.now = true → m.Advances m')) ∧
    ∀ ctx v, matchQueues ctx (w.lockSomsai ctx.now) = (.ok (), v) →
      ∃ t, tick ctx (w.lockSomsai ctx.now) = (.ok (), t) := by
  have hw := h.orderly
  refine ⟨fun k m hrow hlive => ⟨(hw.rows k m hrow).deadline hlive, fun hranked team hempty => ?_,
    fun ctx => ?_⟩, fun ctx v hqueues => ?_⟩
  · have hsize := (hw.rows k m hrow).sizes hranked team
    rw [hempty] at hsize
    cases hformat : m.format <;> simp [hformat, Format.size] at hsize
  · obtain ⟨_, t, hrun, m', hrow', hadvance⟩ : Returns (tickMatch ctx k) w _ :=
      tickMatch_returns hw hrow
    exact ⟨t, m', hrun, hrow', hadvance hlive⟩
  · have hlock : Changes True ctx w _ := lockSomsai_changes ctx w
    have hlocked := hlock.orderly hw
    have hv : v.Orderly :=
      ((inferInstance : Follows (Changes True ctx) (matchQueues ctx)).ok hqueues).orderly hlocked
    obtain ⟨_, t, hrun, -⟩ : Returns
        ((v.matchRows.toList.filter fun x => !x.2.stage.final).forM fun x => tickMatch ctx x.1) v
        fun _ t => t.Orderly :=
      tickAll_returns hv fun x hx => ⟨x.2, Table.mem_toList.mp (List.mem_filter.mp hx).1⟩
    refine ⟨t, bind_ok.mpr ⟨(), v, hqueues, bind_ok.mpr ⟨_, v, read_ok.mpr ⟨rfl, rfl⟩, hrun⟩⟩⟩

/-- In a duel whose pick is overdue the clock picks. -/
theorem tick_progress_aborted : ∃ m t m', abortedStore.matchRows.row 1 = some m ∧
    tickMatch (.steady (seconds 61)) 1 abortedStore = (.ok (), t) ∧
      t.matchRows.row 1 = some m' ∧ m.Advances m' := by
  have hrow : (abortedStore.matchRows.row 1).map (fun m => (m.stage.final, m.expired (seconds 61))) =
      some (false, true) := by
    decide +kernel
  obtain ⟨m, hm, hdue⟩ := Option.map_eq_some_iff.mp hrow
  obtain ⟨hlive, hexpired⟩ := Prod.mk.inj hdue
  obtain ⟨-, -, htick⟩ := (tick_progress reaches_abortedStore).1 1 m hm hlive
  obtain ⟨t, m', hrun, hrow', hadvance⟩ := htick (.steady (seconds 61))
  exact ⟨m, t, m', hm, hrun, hrow', hadvance hexpired⟩

end Soms.Somsai

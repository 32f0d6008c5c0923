import Soms.Somsai.Exclusive

/-!
# Queue and match links

The two exclusivity properties of reachable stores, under the conditions that
keep them, and the runs that break them otherwise: a queued player whose lease a
native claim frees is matched against themself, and a player who leaves a
finished match loses the pointer to the live one.
-/

namespace Soms.Somsai

open Txn World

/-- One action in 1v1 of the first ruleset, at the start of time. -/
def World.acts (w : World) (uid : UserId) (action : Action) : World :=
  w.after (.steady 0) (.action uid ⟨.one, 0, 0⟩ action)

theorem Reaches.acts {P : World → Event → Prop} {w : World} (h : Reaches P w) (uid : UserId)
    (action : Action) (hP : P w (.served (.steady 0) (.action uid ⟨.one, 0, 0⟩ action))) :
    Reaches P (w.acts uid action) :=
  h.after _ _ hP

/-- A fresh server with three players. -/
def threePlayers : World := World.fresh (players 3) (.sample (.division .bronze 0) 550)

theorem reaches_threePlayers {P : World → Event → Prop} : Reaches P threePlayers :=
  .initial (World.initial_fresh _ _)

/-! ## The queue -/

/-- Queue rows, leases and activity rows name each other. -/
structure World.QueueLinked (w : World) : Prop where
  lease : ∀ i e, w.queue.row i = some e → ∃ x,
    w.reservations.row e.reservationId = some x ∧ x.members = e.members
  held : ∀ i e, w.queue.row i = some e → ∀ uid ∈ e.members,
    w.reservationOf uid = some e.reservationId
  once : ∀ i j e e', w.queue.row i = some e → w.queue.row j = some e' →
    ∀ uid, uid ∈ e.members → uid ∈ e'.members → i = j
  teams : ∀ k m, w.matchRows.row k = some m → m.ranked = true →
    m.state.teams.red.Nodup ∧ m.state.teams.blue.Nodup ∧
      m.state.teams.red.Disjoint m.state.teams.blue

/-- Queue exclusivity, along the runs that free no lease of a queue row. -/
theorem queue_exclusive {w : World} (h : Reaches World.KeepsQueue w) : w.QueueLinked := by
  have hinv : w.core.Inv False := h.inv fun v e hqueue => ⟨hqueue, False.elim⟩
  refine ⟨hinv.queued.lease, fun i e he uid hu => ?_, fun i j e e' he he' uid hu hu' => ?_,
    fun k m hrow hranked => ?_⟩
  · obtain ⟨x, hx, hmembers⟩ := hinv.queued.lease i e he
    exact hinv.held.held _ x hx uid (hmembers ▸ hu)
  · exact hinv.queued_once he he' hu hu'
  · exact List.nodup_append'.mp (hinv.queued.ranked k m hrow hranked)

/-- Player 1 queues, and player 2 enters a native room. -/
def queuedStore : World := (threePlayers.acts 1 .queueJoin).after (.steady 0) (.nativeClaim 7 2)

theorem queue_exclusive_queued : queuedStore.QueueLinked ∧
    (queuedStore.queue.row 1).map (·.members) = some [1] := by
  have hidle : (threePlayers.acts 1 .queueJoin).reservationOf 2 = none := by decide +kernel
  refine ⟨queue_exclusive ((reaches_threePlayers.acts 1 _ trivial).after _ _ fun r hclaim => ?_),
    by decide +kernel⟩
  have hheld := hclaim.held
  rw [hidle] at hheld
  simp at hheld

/-- Player 1 queues and then enters a native room. -/
def claimedStore : World := (threePlayers.acts 1 .queueJoin).after (.steady 0) (.nativeClaim 7 1)

/-- Player 1 leaves the native room and queues again; the clock ticks. -/
def rematchedStore : World :=
  ((claimedStore.after (.steady 0) (.nativeRelease 7 1)).acts 1 .queueJoin).after (.steady 0) .tick

theorem reaches_claimedStore : Reaches anyEvent claimedStore :=
  (reaches_threePlayers.acts 1 _ trivial).after _ _ trivial

theorem reaches_rematchedStore : Reaches anyEvent rematchedStore :=
  ((reaches_claimedStore.after _ _ trivial).acts 1 _ trivial).after _ _ trivial

/-- The queue row outlives its lease, and its owner is matched against themself. -/
theorem queue_row_without_lease :
    (Reaches anyEvent claimedStore ∧ ¬ claimedStore.QueueLinked) ∧
      Reaches anyEvent rematchedStore ∧ ∃ m, rematchedStore.matchRows.row 1 = some m ∧
        m.ranked = true ∧ m.state.teams = ⟨[1], [1]⟩ := by
  refine ⟨⟨reaches_claimedStore, fun hlinked => ?_⟩, reaches_rematchedStore, ?_⟩
  · have hrow : (claimedStore.queue.row 1).map
        (fun e => claimedStore.reservations.row e.reservationId) = some none := by
      decide +kernel
    obtain ⟨e, he, hnone⟩ := Option.map_eq_some_iff.mp hrow
    obtain ⟨x, hx, -⟩ := hlinked.lease 1 e he
    rw [hnone] at hx
    simp at hx
  · have hrow : (rematchedStore.matchRows.row 1).map
        (fun m => (m.ranked, m.state.teams)) = some (true, ⟨[1], [1]⟩) := by
      decide +kernel
    obtain ⟨m, hm, hteams⟩ := Option.map_eq_some_iff.mp hrow
    obtain ⟨hranked, hteams⟩ := Prod.mk.inj hteams
    exact ⟨m, hm, hranked, hteams⟩

/-! ## Live matches -/

/-- The human members of live matches point at them and hold their leases. -/
structure World.MatchLinked (w : World) : Prop where
  pointer : ∀ k m, w.matchRows.row k = some m → m.stage.final = false →
    ∀ uid ∈ humansOf m, w.matchOf uid = some k
  leased : ∀ k m, w.matchRows.row k = some m → m.stage.final = false →
    ∀ uid ∈ humansOf m, ∃ r ∈ m.state.reservations, w.reservationOf uid = some r
  once : ∀ k j m n, w.matchRows.row k = some m → m.stage.final = false →
    w.matchRows.row j = some n → n.stage.final = false →
    ∀ uid, uid ∈ membersOf m → uid ∈ membersOf n → k = j

/-- Live-match exclusivity, along the runs that also forget no match while its
owner plays another and free no lease of a live match. -/
theorem match_exclusive {w : World}
    (h : Reaches (fun v e => v.KeepsQueue e ∧ v.KeepsMatches e) w) : w.MatchLinked := by
  have hinv : w.core.Inv True := h.inv fun v e hkeeps => ⟨hkeeps.1, fun _ => hkeeps.2⟩
  have hplaying := hinv.playing trivial
  exact ⟨hplaying.pointer, hplaying.leased, fun k j m n hm hmlive hn hnlive uid hu hu' =>
    hinv.exclusive trivial hm hmlive hn hnlive hu hu'⟩

/-- Players 1 and 2 meet in a duel. -/
def duelStore : World :=
  (threePlayers.acts 1 (.directInvite (some 2) (some .duel) none)).acts 2
    (.directAnswer (some 1) true)

/-- `leave_match` of the match `k`. -/
def leaveOf (k : MatchId) : Action := .play (some k) .leaveMatch none none none

theorem match_exclusive_duel : duelStore.MatchLinked ∧
    (duelStore.matchRows.row 1).map (fun m => (m.stage.final, humansOf m)) =
      some (false, [1, 2]) :=
  ⟨match_exclusive ((reaches_threePlayers.acts 1 _ ⟨trivial, trivial⟩).acts 2 _
    ⟨trivial, trivial⟩), by decide +kernel⟩

/-- Player 1 leaves the duel, meets player 2 in another one, and leaves the
first duel again. -/
def forgottenStore : World :=
  (((duelStore.acts 1 (leaveOf 1)).acts 1 (.directInvite (some 2) (some .duel) none)).acts 2
    (.directAnswer (some 2) true)).acts 1 (leaveOf 1)

/-- Player 1 passes through a native room and meets player 3 in a third duel. -/
def doubledStore : World :=
  (((forgottenStore.after (.steady 0) (.nativeClaim 7 1)).after (.steady 0)
    (.nativeRelease 7 1)).acts 1 (.directInvite (some 3) (some .duel) none)).acts 3
      (.directAnswer (some 3) true)

theorem reaches_forgottenStore : Reaches anyEvent forgottenStore :=
  (((((reaches_threePlayers.acts 1 _ trivial).acts 2 _ trivial).acts 1 _ trivial).acts 1 _
    trivial).acts 2 _ trivial).acts 1 _ trivial

theorem reaches_doubledStore : Reaches anyEvent doubledStore :=
  (((reaches_forgottenStore.after _ _ trivial).after _ _ trivial).acts 1 _ trivial).acts 3 _
    trivial

/-- The player of a live match has no match pointer, and goes on to a second one. -/
theorem live_match_without_pointer :
    (Reaches anyEvent forgottenStore ∧ ¬ forgottenStore.MatchLinked) ∧
      Reaches anyEvent doubledStore ∧ ∃ m n, doubledStore.matchRows.row 2 = some m ∧
        doubledStore.matchRows.row 3 = some n ∧ m.stage.final = false ∧ n.stage.final = false ∧
        1 ∈ membersOf m ∧ 1 ∈ membersOf n := by
  refine ⟨⟨reaches_forgottenStore, fun hlinked => ?_⟩, reaches_doubledStore, ?_⟩
  · have hrow : (forgottenStore.matchRows.row 2).map (fun m => (m.stage.final, humansOf m)) =
        some (false, [1, 2]) := by
      decide +kernel
    have hnone : forgottenStore.matchOf 1 = none := by decide +kernel
    obtain ⟨m, hm, hplays⟩ := Option.map_eq_some_iff.mp hrow
    obtain ⟨hlive, hhumans⟩ := Prod.mk.inj hplays
    have hpointer := hlinked.pointer 2 m hm hlive 1 (by simp [hhumans])
    rw [hnone] at hpointer
    simp at hpointer
  · have hrow : (doubledStore.matchRows.row 2).map (fun m => (m.stage.final, membersOf m)) =
        some (false, [1, 2]) := by
      decide +kernel
    have hrow' : (doubledStore.matchRows.row 3).map (fun m => (m.stage.final, membersOf m)) =
        some (false, [1, 3]) := by
      decide +kernel
    obtain ⟨m, hm, hplays⟩ := Option.map_eq_some_iff.mp hrow
    obtain ⟨n, hn, hplays'⟩ := Option.map_eq_some_iff.mp hrow'
    obtain ⟨hlive, hmembers⟩ := Prod.mk.inj hplays
    obtain ⟨hlive', hmembers'⟩ := Prod.mk.inj hplays'
    exact ⟨m, n, hm, hn, hlive, hlive', by simp [hmembers], by simp [hmembers']⟩

end Soms.Somsai

import Soms.Somsai.Clock
import Soms.Somsai.Frames

/-!
# One match in a tick

`tick` makes matches of the queue and then serves every live match once, so that
what becomes of a match in a tick is what its own turn makes of it.
-/

namespace Soms.Somsai

open Txn World

/-! ## Making matches -/

/-- The row of a match that was just made of queue entries. -/
def Match.Made (ctx : Ctx) (k : MatchId) (m : Match) : Prop :=
  ∃ setup pool rating room, setup.ranked = true ∧ m = newMatch ctx k setup pool rating room

/-- The rows of matches stay, and new ones were made of queue entries. -/
def World.Matches (ctx : Ctx) (w t : World) : Prop :=
  ∀ k, t.matchRows.row k = w.matchRows.row k ∨
    w.matchRows.row k = none ∧ ∃ m, t.matchRows.row k = some m ∧ m.Made ctx k

section Matches

variable {ctx : Ctx} {w t : World}

instance : Std.Refl (Matches ctx) := ⟨fun _ _ => .inl rfl⟩

theorem World.Matches.trans {u : World} (h : Matches ctx w u) (h' : Matches ctx u t) :
    Matches ctx w t := by
  intro k
  rcases h k with hsame | ⟨hnone, m, hm, hmade⟩ <;> rcases h' k with hsame' | ⟨hnone', hnew⟩
  · exact .inl (hsame'.trans hsame)
  · exact .inr ⟨hsame ▸ hnone', hnew⟩
  · exact .inr ⟨hnone, m, hsame'.trans hm, hmade⟩
  · rw [hm] at hnone'
    simp at hnone'

instance : IsTrans World (Matches ctx) := ⟨fun _ _ _ => World.Matches.trans⟩

theorem World.matches_of_rows (h : t.matchRows = w.matchRows) : Matches ctx w t :=
  fun k => .inl (congrFun (congrArg Table.row h) k)

instance {α : Type} {x : Act α} [h : Leaves World.matchRows x] : Follows (Matches ctx) x :=
  h.follows fun _ _ => matches_of_rows

theorem World.rows_dropEntry (now : Time) (w : World) (x : QueueRow) :
    (w.dropEntry now x).matchRows = w.matchRows :=
  rows_releaseReservation now w _

instance {now : Time} {x : QueueRow} : Frame World.matchRows fun w : World => w.dropEntry now x :=
  ⟨fun w => rows_dropEntry now w x⟩

instance {now : Time} {rows : List QueueRow} :
    Frame World.matchRows fun w : World => rows.foldl (dropEntry now) w :=
  ⟨fun w => foldl_leaves World.matchRows (rows_dropEntry now) rows w⟩

instance {selected : List QueueRow} {teams : PerTeam (List UserId)} {anchor : QueueEntry} :
    Follows (Matches ctx) (makeMatch ctx selected teams anchor) where
  ok := by
    intro w _ t h
    obtain ⟨_, v, hmake, h⟩ := bind_ok.mp h
    obtain rfl := write_ok.mp h
    refine World.Matches.trans ?_ (matches_of_rows (rows_deleteEntries selected v))
    rcases recover_ok.mp hmake with hmake | ⟨e, v₁, y, hfail, hhandler, hrelease⟩
    · obtain ⟨_, _, hcreate, hpure⟩ := bind_ok.mp hmake
      obtain ⟨-, rfl⟩ := pure_ok.mp hpure
      obtain ⟨v₁, pool, rating, hquiet, -, -, rfl⟩ := createMatch_ok hcreate
      have hrows : v₁.matchRows = w.matchRows := congrArg Core.matchRows hquiet.core
      intro k
      rw [row_openMatch, Table.row_insert, hrows]
      split
      · next hk =>
        subst hk
        exact .inr ⟨Table.row_next _, _, rfl, _, pool, rating, _, rfl, rfl⟩
      · exact .inl rfl
    · have hquiet : Quiet w v₁ := by
        rcases bind_error.mp hfail with hcreate | ⟨_, _, -, hpure⟩
        · exact createMatch_error hcreate
        · simp at hpure
      refine matches_of_rows (Eq.trans ?_ (congrArg Core.matchRows hquiet.core))
      cases e with
      | other message => simp [releaseSelected] at hhandler
      | http status message =>
        obtain rfl := Option.some.inj hhandler
        obtain rfl := write_ok.mp hrelease
        exact foldl_leaves World.matchRows (rows_releaseReservation ctx.now) _ v₁

instance {fuel : Nat} {entries : List QueueRow} :
    Follows (Matches ctx) (matchGroup ctx fuel entries) := by
  induction fuel generalizing entries with
  | zero => exact follows_pure ()
  | succ fuel ih =>
    cases entries with
    | nil => exact follows_pure ()
    | cons anchor rest =>
      unfold matchGroup
      split
      · exact ih
      · refine @follows_bind World Failure _ _ _ _ _ _ inferInstance fun invalid => ?_
        cases invalid <;> exact follows_bind

instance : Follows (Matches ctx) (matchQueues ctx) := by
  unfold matchQueues matchEntries
  dsimp only
  infer_instance

end Matches

/-! ## The turn of a match -/

section Turn

variable {γ : Type} {clock : Prop} {ctx : Ctx} {k : MatchId} {w t : World} {m : Match}

/-- Whether the room of a match has been silent for too long. -/
def Match.lost (m : Match) (now : Time) : Prop :=
  m.stage ≠ .waiting ∧ m.state.serverSeenAt < now - seconds 90

/-- A live match ends when its room is lost or a member stays away, and else goes by
its stage. -/
theorem tickMatch_ok {u : Unit} (hrow : w.matchRows.row k = some m)
    (hlive : m.stage.final = false) (h : tickMatch ctx k w = (.ok u, t)) :
    (m.lost ctx.now ∧ t = w.finishMatch ctx k none true
      "Connection to the game server was lost. Rating was not changed.") ∨
    (¬ m.lost ctx.now ∧ offlineTeams ctx.now m ≠ [] ∧
      t = w.finishMatch ctx k (soleOpponent (offlineTeams ctx.now m))
        (decide ((offlineTeams ctx.now m).length = 2)) "The reconnection period expired.") ∨
    (¬ m.lost ctx.now ∧ offlineTeams ctx.now m = [] ∧ tickStage ctx k m w = (.ok u, t)) := by
  obtain ⟨m₁, _, hget, h⟩ := bind_ok.mp h
  obtain ⟨hrow₁, rfl⟩ := getMatch_ok hget
  obtain rfl := Option.some.inj (hrow.symm.trans hrow₁)
  rw [if_neg (by simp [hlive])] at h
  split at h
  · next hlost =>
    obtain rfl := write_ok.mp h
    exact .inl ⟨hlost, rfl⟩
  · next hseen =>
    split at h
    · next hoffline =>
      obtain rfl := write_ok.mp h
      exact .inr (.inl ⟨hseen, hoffline, rfl⟩)
    · next honline => exact .inr (.inr ⟨hseen, not_not.mp honline, h⟩)

/-- No bot acts once the round is played. -/
theorem tickStage_results {u : Unit} (hstage : m.stage = .results)
    (h : tickStage ctx k m w = (.ok u, t)) :
    settleRound ctx k (m.expired ctx.now) w = (.ok u, t) := by
  have hbot : botChoice ctx k m = none := by simp [botChoice, Match.botTurn, hstage]
  simpa only [tickStage, hbot, hstage, if_true] using h

/-- In the other stages no round is settled. -/
theorem tickStage_unsettled {u : Unit} (hrow : w.matchRows.row k = some m)
    (hstage : m.stage ≠ .results) (h : tickStage ctx k m w = (.ok u, t)) :
    Plays clock ctx k w t := by
  unfold tickStage at h
  cases hbot : botChoice ctx k m with
  | some slot =>
    simp only [hbot] at h
    exact (inferInstance : Follows (Plays clock ctx k) _).ok h
  | none =>
    simp only [hbot, if_neg hstage] at h
    rcases when_ok.mp h with ⟨hexpired, h⟩ | ⟨-, rfl⟩
    · exact deadlineExpired_plays hrow hexpired h
    · exact .refl

/-- What a tick does to one match, and to a part of the store that only the turn of
this match touches while an invariant holds. -/
theorem tick_ok {u : Unit} (J : World → Prop) (π : World → γ)
    (hJ : ∀ j v u t, J v → tickMatch ctx j v = (.ok u, t) → J t)
    (hπ : ∀ j, j ≠ k → ∀ v u t, J v → tickMatch ctx j v = (.ok u, t) → π t = π v)
    (hstart : ∀ v, matchQueues ctx w = (.ok (), v) → J v) (h : tick ctx w = (.ok u, t)) :
    ∃ v, matchQueues ctx w = (.ok (), v) ∧
      (((∀ m, v.matchRows.row k = some m → m.stage.final = true) ∧
        t.matchRows.row k = v.matchRows.row k ∧ π t = π v) ∨
      ∃ m v₁ v₂, v.matchRows.row k = some m ∧ m.stage.final = false ∧ J v₁ ∧
        v₁.matchRows.row k = some m ∧ π v₁ = π v ∧ tickMatch ctx k v₁ = (.ok (), v₂) ∧
          t.matchRows.row k = v₂.matchRows.row k ∧ π t = π v₂) := by
  obtain ⟨_, v, hqueues, h⟩ := bind_ok.mp h
  obtain ⟨live, _, hread, h⟩ := bind_ok.mp h
  obtain ⟨rfl, rfl⟩ := read_ok.mp hread
  refine ⟨v, hqueues, ?_⟩
  let view : World → Option Match × γ := fun w => (w.matchRows.row k, π w)
  have hother : ∀ j, j ≠ k → ∀ a u b, J a → tickMatch ctx j a = (.ok u, b) → view b = view a := by
    intro j hj a u b ha hrun
    have hplays : Plays True ctx j a b := (tickMatch_plays trivial).ok hrun
    exact Prod.ext (hplays.row_other (Ne.symm hj)) (hπ j hj a u b ha hrun)
  have hkeeps : ∀ x ∈ v.matchRows.toList.filter (fun x => !x.2.stage.final), ∀ a b u, J a →
      tickMatch ctx x.1 a = (.ok u, b) → J b := fun x _ a b u => hJ x.1 a u b
  by_cases hlive : ∃ m, v.matchRows.row k = some m ∧ m.stage.final = false
  · obtain ⟨m, hrow, hlive⟩ := hlive
    have hmem : (k, m) ∈ v.matchRows.toList.filter fun x => !x.2.stage.final :=
      List.mem_filter.mpr ⟨Table.mem_toList.mpr hrow, by simp [hlive]⟩
    have hnodup : (v.matchRows.toList.filter fun x => !x.2.stage.final).Nodup :=
      (List.Nodup.of_map Prod.fst v.matchRows.nodup_toList).filter _
    have hturns : ∀ x ∈ v.matchRows.toList.filter (fun x => !x.2.stage.final), x ≠ (k, m) →
        ∀ a b u, J a → tickMatch ctx x.1 a = (.ok u, b) → view b = view a := by
      intro x hx hne a b u
      refine hother x.1 (fun hk => hne ?_) a u b
      have hx := Table.mem_toList.mp (List.mem_filter.mp hx).1
      rw [hk, hrow] at hx
      exact Prod.ext hk (Option.some.inj hx).symm
    obtain ⟨v₁, v₂, hv₁, hbefore, hrun, hafter⟩ :=
      forM_ok_turn J view hnodup hmem hkeeps hturns (hstart v hqueues) h
    exact .inr ⟨m, v₁, v₂, hrow, hlive, hv₁, (congrArg Prod.fst hbefore).trans hrow,
      congrArg Prod.snd hbefore, hrun, congrArg Prod.fst hafter, congrArg Prod.snd hafter⟩
  · have hturns : ∀ x ∈ v.matchRows.toList.filter (fun x => !x.2.stage.final),
        ∀ a b u, J a → tickMatch ctx x.1 a = (.ok u, b) → view b = view a := by
      intro x hx a b u
      refine hother x.1 (fun hk => hlive ?_) a u b
      obtain ⟨hmem, hnot⟩ := List.mem_filter.mp hx
      exact ⟨x.2, hk ▸ Table.mem_toList.mp hmem, by simpa using hnot⟩
    have hsame := forM_ok_leaves J view hkeeps hturns (hstart v hqueues) h
    refine .inl ⟨fun m hrow => ?_, congrArg Prod.fst hsame, congrArg Prod.snd hsame⟩
    by_contra hfinal
    exact hlive ⟨m, hrow, by simpa using hfinal⟩

/-- What a tick does to one match: the scores are those before it. -/
theorem tick_ok_env {u : Unit} (h : tick ctx (w.lockSomsai ctx.now) = (.ok u, t)) :
    ((∀ m, w.matchRows.row k = some m → m.stage.final = true) ∧
      (t.matchRows.row k = w.matchRows.row k ∨
        ∃ m v₁ v₂, m.Made ctx k ∧ v₁.matchRows.row k = some m ∧
          tickMatch ctx k v₁ = (.ok (), v₂) ∧ t.matchRows.row k = v₂.matchRows.row k)) ∨
    ∃ m v₁ v₂, w.matchRows.row k = some m ∧ m.stage.final = false ∧ v₁.matchRows.row k = some m ∧
      v₁.env = w.env ∧ tickMatch ctx k v₁ = (.ok (), v₂) ∧
        t.matchRows.row k = v₂.matchRows.row k := by
  obtain ⟨v, hqueues, hcases⟩ := tick_ok (fun _ => True) World.env (k := k) (fun _ _ _ _ _ _ => trivial)
    (fun j _ v u t _ hone => (inferInstance : Leaves World.env (tickMatch ctx j)).ok hone)
    (fun _ _ => trivial) h
  have hmatches := (inferInstance : Follows (Matches ctx) (matchQueues ctx)).ok hqueues k
  rw [show (w.lockSomsai ctx.now).matchRows = w.matchRows from rows_lockSomsai ctx.now w]
    at hmatches
  have henv : v.env = w.env := ((inferInstance : Leaves World.env (matchQueues ctx)).ok hqueues).trans
    (leaves_lockSomsai ctx.now w)
  rcases hmatches with hsame | ⟨hnone, m₁, hm₁, hmade⟩
  · rw [hsame] at hcases
    rcases hcases with ⟨hfinal, hrow, -⟩ | ⟨m, v₁, v₂, hrow, hlive, -, hv₁, henv₁, hturn, ht, -⟩
    · exact .inl ⟨hfinal, .inl hrow⟩
    · exact .inr ⟨m, v₁, v₂, hrow, hlive, hv₁, henv₁.trans henv, hturn, ht⟩
  · refine .inl ⟨by simp [hnone], .inr ?_⟩
    rcases hcases with ⟨hfinal, -⟩ | ⟨m, v₁, v₂, hrow, -, -, hv₁, -, hturn, ht, -⟩
    · obtain ⟨setup, pool, rating, room, -, rfl⟩ := hmade
      exact absurd (hfinal _ hm₁) (by simp [newMatch, Stage.final])
    · obtain rfl := Option.some.inj (hm₁.symm.trans hrow)
      exact ⟨m₁, v₁, v₂, hmade, hv₁, hturn, ht⟩

end Turn

end Soms.Somsai

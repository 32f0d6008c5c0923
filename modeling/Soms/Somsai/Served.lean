import Soms.Somsai.Change

/-!
# Served requests

A served request is a sequence of changes, or it is one of the three departures:
a player forgets a finished match, or a lease is freed by a native claim or by
its id.
-/

namespace Soms.Somsai

open Txn World

/-! ## The lock -/

namespace World

theorem quietView_dropPartyLink (p : PartyId) (w : World) (uid : UserId) :
    (w.dropPartyLink p uid).quietView = w.quietView := by
  unfold dropPartyLink
  split
  · rfl
  · next a ha =>
    split
    · have hset : (w.setActivity 0 uid fun a => { a with partyId := none }).quietView =
          w.quietView := quietView_setActivity (fun _ => rfl) fun _ => rfl
      simpa only [setActivity, activityRow, ha, Option.getD_some] using hset
    · rfl

theorem quietView_expireStaleParties (now : Time) (w : World) :
    (w.expireStaleParties now).quietView = w.quietView := by
  unfold expireStaleParties
  refine foldl_leaves quietView (fun v p => ?_) _ _
  unfold expireStaleParty
  split
  · rfl
  · split
    · dsimp only
      split
      · exact foldl_leaves quietView (fun v uid => quietView_dropPartyLink p v uid) _ _
      · exact foldl_leaves quietView (fun v uid => quietView_dropPartyLink p v uid) _ _
    · rfl

/-- Other leases stay as they are. -/
theorem row_releaseReservation (now : Time) (w : World) {r r' : ReservationId} (h : r' ≠ r) :
    (w.releaseReservation now r).reservations.row r' = w.reservations.row r' := by
  unfold releaseReservation
  split
  · rfl
  · next reservation _ =>
    obtain ⟨activity, hfold⟩ := releaseMember_fold now r reservation.members w
    dsimp only
    rw [hfold]
    split <;> simp [h]

theorem expireReservations_changes {clock : Prop} {ctx : Ctx} {w : World} :
    Changes clock ctx w (w.expireReservations ctx.now) := by
  have hfold : ∀ (rows : List (ReservationId × Reservation)) (v : World),
      (∀ x ∈ rows, v.reservations.row x.1 = some x.2) → (rows.map Prod.fst).Nodup →
      Changes clock ctx v (rows.foldl
        (fun w x => if x.2.kind.isRanked then w.releaseReservation ctx.now x.1 else w) v) := by
    intro rows
    induction rows with
    | nil => exact fun v _ _ => .refl
    | cons x rest ih =>
      intro v hrows hnodup
      obtain ⟨hx, hrest⟩ := List.nodup_cons.mp hnodup
      rw [List.foldl_cons]
      split
      · next hkind =>
        refine (Change.expire (hrows x List.mem_cons_self) hkind).changes.trans
          (ih _ (fun y hy => ?_) hrest)
        have hne : y.1 ≠ x.1 := fun heq => hx (heq ▸ List.mem_map_of_mem hy)
        rw [row_releaseReservation ctx.now v hne]
        exact hrows y (List.mem_cons_of_mem x hy)
      · exact ih v (fun y hy => hrows y (List.mem_cons_of_mem x hy)) hrest
  refine hfold _ w (fun x hx => Table.mem_toList.mp (List.mem_filter.mp hx).1) ?_
  exact (List.filter_sublist.map Prod.fst).nodup w.reservations.nodup_toList

theorem quiet_of_view {w t : World} (h : t.quietView = w.quietView) : Quiet w t := by
  simp only [quietView, Prod.mk.injEq] at h
  exact ⟨h.1, fun key => .inl (by rw [h.2])⟩

theorem lockSomsai_changes {clock : Prop} (ctx : Ctx) (w : World) : Changes clock ctx w (w.lockSomsai ctx.now) :=
  (quiet_of_view (quietView_expireStaleParties ctx.now w)).changes.trans
    expireReservations_changes

/-- The tables that neither the lock nor a touch of an activity row changes. -/
def accounts (w : World) : Env × Table User × (UserId → Option NativeRoom) :=
  (w.env, w.users, w.nativeRooms)

theorem accounts_releaseReservation (now : Time) (w : World) (r : ReservationId) :
    (w.releaseReservation now r).accounts = w.accounts := by
  obtain ⟨activity, reservations, h⟩ := releaseReservation_frame now w r
  rw [h]
  rfl

theorem accounts_lockSomsai (now : Time) (w : World) : (w.lockSomsai now).accounts = w.accounts := by
  have hlink : ∀ p (v : World) uid, (v.dropPartyLink p uid).accounts = v.accounts := by
    intro p v uid
    unfold dropPartyLink
    split
    · rfl
    · split <;> rfl
  have hparty : ∀ cutoff (v : World) p, (v.expireStaleParty cutoff p).accounts = v.accounts := by
    intro cutoff v p
    unfold expireStaleParty
    split
    · rfl
    · split
      · dsimp only
        split
        · exact foldl_leaves accounts (hlink p) _ _
        · exact foldl_leaves accounts (hlink p) _ _
      · rfl
  unfold lockSomsai expireReservations
  refine (foldl_leaves accounts (fun v x => ?_) _ _).trans ?_
  · split
    · exact accounts_releaseReservation now v x.1
    · rfl
  · exact foldl_leaves accounts (hparty _) _ w

end World

/-! ## The other bodies -/

section Gateway

set_option synthInstance.maxSize 2000

variable {clock : Prop} {ctx : Ctx} {uid : UserId}

instance : Follows (Changes clock ctx) (globalPresence ctx uid) := by
  unfold globalPresence
  infer_instance

instance {rulesetId : RulesetId} {variantId : Nat} :
    Follows (Changes clock ctx) (publicState ctx uid rulesetId variantId) := by
  unfold publicState
  dsimp only
  infer_instance

instance {mode : Mode} {page : Int} : Follows (Changes clock ctx) (leaderboard uid mode page) := by
  unfold leaderboard
  infer_instance

instance {k : MatchId} : Follows (Changes clock ctx) (somsaiMatch uid k) := by
  unfold somsaiMatch
  infer_instance

instance {roomId : RoomId} : Follows (Changes clock ctx) (internalSomsaiRoom roomId) := by
  unfold internalSomsaiRoom
  infer_instance

theorem tick_changes (hclock : clock) : Follows (Changes clock ctx) (tick ctx) := by
  have hone : ∀ k, Follows (Changes clock ctx) (tickMatch ctx k) := fun _ =>
    tickMatch_changes hclock
  unfold tick
  infer_instance

instance {r : ReservationId} : Follows (Changes clock ctx) (renewReservation ctx.now r) where
  ok := by
    intro w _ t h
    obtain ⟨_, _, hlease, h⟩ := bind_ok.mp h
    obtain ⟨-, rfl⟩ := refuse_ok.mp hlease
    obtain rfl := write_ok.mp h
    exact (Change.renew r (ctx.now + seconds 600)).changes

/-- An action other than a move in a match. -/
theorem dispatch_changes {mode : Mode} {action : Action} {w t : World} {u : Unit}
    (hplay : ∀ k act slotId revision poolId, action ≠ .play k act slotId revision poolId)
    (h : dispatch ctx uid mode action w = (.ok u, t)) : Changes clock ctx w t := by
  cases action with
  | play k act slotId revision poolId => exact absurd rfl (hplay k act slotId revision poolId)
  | party | directInvite | directAnswer | queueJoin | queueLeave | customCreate | customJoin =>
    simp only [dispatch] at h
    exact (inferInstance : Follows (Changes clock ctx) _).ok h

end Gateway

/-! ## Departures -/

/-- Whether `validate_mode` accepts the mode. -/
def Mode.valid (mode : Mode) : Bool :=
  decide (mode.variantId ∈ if mode.rulesetId = 3 then [4, 7] else [0])

/-- Whether `claim_native_room` accepts a user without a reservation. -/
def World.freeToClaim (w : World) (now : Time) (uid : UserId) (roomId : RoomId) : Bool :=
  w.isActive uid && !((w.nativeRooms uid).any fun row =>
    decide (row.roomId ≠ roomId) && decide (now < row.expiresAt))

/-- A change that a request makes on top of the others. -/
inductive Departure (ctx : Ctx) : Request → World → World → Prop
  /-- `leave_match` of a finished match -/
  | forget {w : World} {uid : UserId} {mode : Mode} {k : MatchId} {m : Match}
      {slotId : Option String} {revision poolId : Option Nat} (hmode : mode.valid = true)
      (hactive : w.isActive uid = true) (hrow : w.matchRows.row k = some m)
      (hfinal : m.stage.final = true) (hseat : uid ∈ membersOf m) :
      Departure ctx (.action uid mode (.play (some k) .leaveMatch slotId revision poolId)) w
        (w.setMatch ctx.now uid none)
  /-- A native claim of a user whose match pointer names no live match. -/
  | claim {w : World} {uid : UserId} {roomId : RoomId} {r : ReservationId}
      (hfree : w.freeToClaim ctx.now uid roomId = true) (hheld : w.reservationOf uid = some r)
      (hpointer : ∀ k m, w.matchOf uid = some k → w.matchRows.row k = some m →
        m.stage.final = true) :
      Departure ctx (.nativeClaim roomId uid) w (w.releaseReservation ctx.now r)
  | release {w : World} (r : ReservationId) :
      Departure ctx (.release r) w (w.releaseReservation ctx.now r)

/-- What a served request does: changes, or a departure between changes that
touch neither leases nor accounts before it.  The clock runs in a `tick` alone. -/
inductive Served (ctx : Ctx) (request : Request) (w t : World) : Prop
  | changes (h : Changes (request = .tick) ctx w t)
  | departs {u v : World} (hquiet : Quiet (w.lockSomsai ctx.now) u)
      (haccounts : u.accounts = w.accounts) (hdepart : Departure ctx request u v)
      (hrest : Changes (request = .tick) ctx v t)

theorem validateMode_ok {mode : Mode} {w t : World} {u : Unit}
    (h : validateMode mode.rulesetId mode.variantId w = (.ok u, t)) : mode.valid = true ∧ w = t := by
  obtain ⟨hmode, rfl⟩ := refuse_ok.mp h
  exact ⟨decide_eq_true (not_not.mp hmode), rfl⟩

theorem activeUser_ok {uid : UserId} {w t : World} {u : Unit}
    (h : activeUser uid w = (.ok u, t)) : w.isActive uid = true ∧ w = t := by
  obtain ⟨hactive, rfl⟩ := refuse_ok.mp h
  exact ⟨by simpa using hactive, rfl⟩

theorem claimNativeRoom_ok {now : Time} {uid : UserId} {roomId : RoomId} {w t : World} {u : Unit}
    (h : claimNativeRoom now uid roomId w = (.ok u, t)) : w.freeToClaim now uid roomId = true := by
  obtain ⟨_, _, hcheck, h⟩ := bind_ok.mp h
  obtain ⟨hactive, rfl⟩ := activeUser_ok hcheck
  obtain ⟨_, v, htouch, h⟩ := bind_ok.mp h
  obtain rfl := write_ok.mp htouch
  obtain ⟨_, _, hheld, h⟩ := bind_ok.mp h
  obtain ⟨-, rfl⟩ := refuse_ok.mp hheld
  obtain ⟨_, _, hroom, h⟩ := bind_ok.mp h
  obtain ⟨hfree, -⟩ := refuse_ok.mp hroom
  rw [freeToClaim, hactive, Bool.true_and, Bool.not_eq_true']
  exact Bool.eq_false_iff.mpr hfree

theorem World.isActive_accounts {w t : World} (h : t.accounts = w.accounts) :
    t.isActive = w.isActive := by
  simp only [accounts, Prod.mk.injEq] at h
  funext uid
  simp only [isActive, h.2.1]

theorem World.freeToClaim_accounts {w t : World} (h : t.accounts = w.accounts) (now : Time)
    (uid : UserId) (roomId : RoomId) :
    t.freeToClaim now uid roomId = w.freeToClaim now uid roomId := by
  simp only [freeToClaim, isActive_accounts h, show t.nativeRooms = w.nativeRooms from
    congrArg (fun a => a.2.2) h]

theorem internalNativeClaim_served {ctx : Ctx} {uid : UserId} {roomId : RoomId} {w t : World}
    {u : Unit} (h : internalNativeClaim ctx roomId uid (w.lockSomsai ctx.now) = (.ok u, t)) :
    Served ctx (.nativeClaim roomId uid) w t := by
  obtain ⟨_, v, htouch, h⟩ := bind_ok.mp h
  obtain rfl := write_ok.mp htouch
  have htouched : Quiet (w.lockSomsai ctx.now) ((w.lockSomsai ctx.now).touchActivity ctx.now uid) :=
    quiet_of_view (quietView_setActivity (fun _ => rfl) fun _ => rfl)
  have haccounts : ((w.lockSomsai ctx.now).touchActivity ctx.now uid).accounts = w.accounts :=
    accounts_lockSomsai ctx.now w
  have hlock : Changes (Request.nativeClaim roomId uid = .tick) ctx w _ :=
    (lockSomsai_changes ctx w).trans htouched.changes
  generalize (w.lockSomsai ctx.now).touchActivity ctx.now uid = v at *
  obtain ⟨held, _, hread, h⟩ := bind_ok.mp h
  obtain ⟨hheld, rfl⟩ := read_ok.mp hread
  obtain ⟨pointed, _, hread', h⟩ := bind_ok.mp h
  obtain ⟨hpointed, rfl⟩ := read_ok.mp hread'
  obtain ⟨_, v₁, hdepart, hclaim⟩ := bind_ok.mp h
  have hrest : Changes (Request.nativeClaim roomId uid = .tick) ctx v₁ t :=
    (inferInstance : Follows (Changes _ ctx) _).ok hclaim
  rcases onSome_ok.mp hdepart with ⟨r, rfl, hrun⟩ | ⟨-, rfl⟩
  · have hrelease : v₁ = v.releaseReservation ctx.now r →
        (∀ k m, v.matchOf uid = some k → v.matchRows.row k = some m → m.stage.final = true) →
        Served ctx (.nativeClaim roomId uid) w t := by
      rintro rfl hpointer
      refine .departs htouched haccounts (.claim ?_ hheld hpointer) hrest
      rw [← freeToClaim_accounts (accounts_releaseReservation ctx.now v r)]
      exact claimNativeRoom_ok hclaim
    unfold pointedMatch at hpointed
    unfold departFrom at hrun
    cases hk : v.matchOf uid with
    | none =>
      simp only [hk] at hpointed
      subst hpointed
      refine hrelease (write_ok.mp hrun).symm fun k' m' hk' => ?_
      simp [hk] at hk'
    | some k =>
      cases hrow : v.matchRows.row k with
      | none =>
        simp only [hk, hrow, Option.map_none] at hpointed
        subst hpointed
        refine hrelease (write_ok.mp hrun).symm fun k' m' hk' hrow' => ?_
        obtain rfl := Option.some.inj (hk.symm.trans hk')
        simp [hrow] at hrow'
      | some m =>
        simp only [hk, hrow, Option.map_some] at hpointed
        subst hpointed
        dsimp only at hrun
        split at hrun
        · next hfinal =>
          refine hrelease (write_ok.mp hrun).symm fun k' m' hk' hrow' => ?_
          obtain rfl := Option.some.inj (hk.symm.trans hk')
          obtain rfl := Option.some.inj (hrow.symm.trans hrow')
          exact hfinal
        · next hlive =>
          refine .changes ((hlock.trans ?_).trans hrest)
          rcases when_ok.mp hrun with ⟨-, hleave⟩ | ⟨-, rfl⟩
          · obtain ⟨m', hrow', -, ⟨hfinal, -, -⟩ | ⟨-, hplays⟩⟩ := matchAction_ok hleave
            · rw [hrow] at hrow'
              obtain rfl := Option.some.inj hrow'
              exact absurd hfinal hlive
            · exact hplays.changes
          · exact .refl
  · exact .changes (hlock.trans hrest)

/-- Every request is served by changes or by a departure. -/
theorem after_served (w : World) (ctx : Ctx) (request : Request) :
    Served ctx request w (w.after ctx request) := by
  rcases after_cases w ctx request with ⟨u, h⟩ | hsame
  · generalize w.after ctx request = t at h
    have hlock : Changes (request = .tick) ctx w _ := lockSomsai_changes ctx w
    have hrest : Follows (Changes (request = .tick) ctx) (serve ctx request) →
        Served ctx request w t := fun hfollows => .changes (hlock.trans (hfollows.ok h))
    cases request with
    | nativeClaim roomId uid => exact internalNativeClaim_served h
    | release r =>
      simp only [serve] at h
      obtain rfl := write_ok.mp h
      exact .departs (.refl _) (accounts_lockSomsai ctx.now w) (.release r) .refl
    | action uid mode action =>
      obtain ⟨_, v, haction, hstate⟩ := bind_ok.mp h
      have hshow : Changes (Request.action uid mode action = .tick) ctx v t :=
        (inferInstance : Follows (Changes _ ctx) _).ok hstate
      obtain ⟨_, _, hvalidate, haction⟩ := bind_ok.mp haction
      obtain ⟨hmode, rfl⟩ := validateMode_ok hvalidate
      obtain ⟨_, _, hcheck, haction⟩ := bind_ok.mp haction
      obtain ⟨hactive, rfl⟩ := activeUser_ok hcheck
      cases action with
      | play matchId act slotId revision poolId =>
        obtain ⟨k, _, hreq, haction⟩ := bind_ok.mp haction
        obtain ⟨rfl, rfl⟩ := require_ok.mp hreq
        obtain ⟨m, hrow, hseat, ⟨hfinal, rfl, rfl⟩ | ⟨-, hplays⟩⟩ := matchAction_ok haction
        · exact .departs (.refl _) (accounts_lockSomsai ctx.now w)
            (.forget hmode hactive hrow hfinal hseat) hshow
        · exact .changes ((hlock.trans hplays.changes).trans hshow)
      | party | directInvite | directAnswer | queueJoin | queueLeave | customCreate | customJoin =>
        refine .changes ((hlock.trans (dispatch_changes ?_ haction)).trans hshow)
        simp
    | tick => exact hrest (tick_changes rfl)
    | reserve | partyChat | party | nativeRelease | state | social | leaderboard | view
      | roomEvent | botResults | room | renew =>
      refine hrest ?_
      simp only [serve, nativeReserve]
      infer_instance
  · rw [hsame]
    exact .changes .refl

end Soms.Somsai

import Soms.Somsai.Links
import Soms.Somsai.Ticks

/-!
# Dodge accountability

Who is penalised when a ranked match is cancelled in the ready check.  `decline`,
`queue_leave` and the expired deadline store one penalty for each responsible
member under a key of the match, so that nobody pays twice; `leave_match` and the
claim of another native room cancel the match without any penalty.
-/

namespace Soms.Somsai

open Txn World

/-! ## The penalties of a match -/

/-- The key under which `penalise_unaccepted` stores the penalty of a member. -/
def dodgeKey (k : MatchId) (m : Match) (uid : UserId) : Int :=
  -((k * 100 + (membersOf m).idxOf uid + 1 : Nat) : Int)

/-- Whether a penalty key is one of the match. -/
def keyOfMatch (key : Int) (k : MatchId) : Bool :=
  decide (key < 0) && decide ((-key - 1).toNat / 100 = k)

namespace World

/-- The keys and owners of the penalties for a match. -/
def dodgesOf (k : MatchId) (w : World) : List (Int × UserId) :=
  (w.penalties.map fun p => (p.roomId, p.userId)).filter fun x => keyOfMatch x.1 k

/-- How many penalties the user has for a match. -/
def dodges (w : World) (k : MatchId) (uid : UserId) : Nat := ((w.dodgesOf k).map Prod.snd).count uid

instance {k : MatchId} : Bystander (dodgesOf k) where
  eq w t h := by
    have hpenalties : t.penalties = w.penalties := congrArg (fun r => r.2.1) h
    rw [dodgesOf, hpenalties, dodgesOf]

instance {k : MatchId} : IgnoresParties (dodgesOf k) where
  eq w t _ h := by rw [dodgesOf, h, dodgesOf]

/-- The penalties for a match are one for each of the listed members. -/
structure Charged (k : MatchId) (m : Match) (charged : List UserId) (w : World) : Prop where
  rows : w.dodgesOf k = charged.map fun uid => (dodgeKey k m uid, uid)
  nodup : charged.Nodup
  members : ∀ uid ∈ charged, uid ∈ membersOf m

end World

section Penalties

variable {ctx : Ctx} {k j : MatchId} {w t : World} {m : Match} {charged : List UserId}

theorem World.Charged.dodges (h : w.Charged k m charged) (uid : UserId) :
    w.dodges k uid = if uid ∈ charged then 1 else 0 := by
  have howners : (w.dodgesOf k).map Prod.snd = charged := by
    rw [h.rows, List.map_map]
    exact List.map_id charged
  rw [World.dodges, howners]
  split
  · next hmem => exact List.count_eq_one_of_mem h.nodup hmem
  · next hmem => exact List.count_eq_zero_of_not_mem hmem

/-- The keys of a match are its own: its roster has less than a hundred members. -/
theorem keyOfMatch_dodgeKey {uid : UserId} (hmember : uid ∈ membersOf m)
    (hsize : (membersOf m).length ≤ 100) : keyOfMatch (dodgeKey k m uid) j = decide (k = j) := by
  obtain ⟨i, hi, hkey⟩ : ∃ i < 100, dodgeKey k m uid = -((k * 100 + i + 1 : Nat) : Int) :=
    ⟨_, (List.idxOf_lt_length_of_mem hmember).trans_le hsize, rfl⟩
  rw [hkey, keyOfMatch]
  have hneg : -((k * 100 + i + 1 : Nat) : Int) < 0 := by omega
  have hdiv : (-(-((k * 100 + i + 1 : Nat) : Int)) - 1).toNat / 100 = k := by omega
  rw [decide_eq_true hneg, hdiv, Bool.true_and]

theorem dodgeKey_inj {a b : UserId} (ha : a ∈ membersOf m) (h : dodgeKey k m a = dodgeKey k m b) :
    a = b := by
  have hidx : (membersOf m).idxOf a = (membersOf m).idxOf b := by
    simp only [dodgeKey] at h
    omega
  exact List.idxOf_inj ha |>.mp hidx

/-- A dodge is registered once for each key. -/
theorem registerDodge_ok {now : Time} {key : Int} {uid : UserId} {room : Option Bool}
    {missing : Bool} {status : DodgeStatus}
    (h : registerDodge now key uid room missing w = (.ok status, t)) :
    ((w.penaltyAt key).isSome = true ∧ t = w) ∨
      w.penaltyAt key = none ∧ t = w.addPenalty (now / 1000000 * 1000000) key uid := by
  obtain ⟨existing, _, hread, h⟩ := bind_ok.mp h
  obtain ⟨hexisting, rfl⟩ := read_ok.mp hread
  cases existing with
  | some penalty =>
    obtain ⟨-, rfl⟩ := pure_ok.mp h
    exact .inl ⟨by rw [hexisting]; rfl, rfl⟩
  | none =>
    obtain ⟨_, _, huser, h⟩ := bind_ok.mp h
    obtain ⟨-, rfl⟩ := refuse_ok.mp huser
    obtain ⟨_, _, hroom, h⟩ := bind_ok.mp h
    obtain ⟨-, rfl⟩ := refuse_ok.mp hroom
    obtain ⟨_, _, hnew, h⟩ := bind_ok.mp h
    obtain ⟨-, rfl⟩ := read_ok.mp hnew
    obtain ⟨_, _, hadd, h⟩ := bind_ok.mp h
    obtain ⟨-, rfl⟩ := pure_ok.mp h
    exact .inr ⟨hexisting, (write_ok.mp hadd).symm⟩

theorem dodgesOf_addPenalty {now : Time} {key : Int} {uid : UserId} :
    (w.addPenalty now key uid).dodgesOf k =
      w.dodgesOf k ++ if keyOfMatch key k then [(key, uid)] else [] := by
  simp only [World.dodgesOf, addPenalty, newPenalty, List.map_append, List.filter_append,
    List.map_cons, List.map_nil, List.filter_cons, List.filter_nil]

theorem mem_dodgesOf {p : DodgePenalty} (hp : p ∈ w.penalties) (hkey : keyOfMatch p.roomId k = true) :
    (p.roomId, p.userId) ∈ w.dodgesOf k :=
  List.mem_filter.mpr ⟨List.mem_map_of_mem hp, hkey⟩

/-- A penalty for another match. -/
theorem registerDodge_other {now : Time} {key : Int} {uid : UserId} {room : Option Bool}
    {missing : Bool} {status : DodgeStatus} (hkey : keyOfMatch key k = false)
    (h : registerDodge now key uid room missing w = (.ok status, t)) : t.dodgesOf k = w.dodgesOf k := by
  rcases registerDodge_ok h with ⟨-, rfl⟩ | ⟨-, rfl⟩
  · rfl
  · rw [dodgesOf_addPenalty, hkey, if_neg Bool.false_ne_true, List.append_nil]

/-- A member is charged once. -/
theorem World.Charged.register {now : Time} {uid : UserId} {status : DodgeStatus}
    (hw : w.Charged k m charged) (hsize : (membersOf m).length ≤ 100) (hmember : uid ∈ membersOf m)
    (h : registerDodge now (dodgeKey k m uid) uid none true w = (.ok status, t)) :
    ∃ charged', t.Charged k m charged' ∧ ∀ x, x ∈ charged' ↔ x ∈ charged ∨ x = uid := by
  have hown : keyOfMatch (dodgeKey k m uid) k = true := by
    rw [keyOfMatch_dodgeKey hmember hsize]
    exact decide_eq_true rfl
  rcases registerDodge_ok h with ⟨hsome, rfl⟩ | ⟨hnone, rfl⟩
  · -- The key is taken, and its owner is this member.
    obtain ⟨p, hp⟩ := Option.isSome_iff_exists.mp hsome
    have hkey : p.roomId = dodgeKey k m uid := by simpa using List.find?_some hp
    have hmem := mem_dodgesOf (List.mem_of_find?_eq_some hp) (hkey ▸ hown)
    rw [hw.rows] at hmem
    obtain ⟨x, hx, heq⟩ := List.mem_map.mp hmem
    obtain rfl := dodgeKey_inj (hw.members x hx) ((Prod.mk.inj heq).1.trans hkey)
    refine ⟨charged, hw, fun y => ⟨.inl, ?_⟩⟩
    rintro (hy | rfl)
    · exact hy
    · exact hx
  · have hfresh : uid ∉ charged := by
      intro hmem
      have hrow : (dodgeKey k m uid, uid) ∈ w.dodgesOf k := by
        rw [hw.rows]
        exact List.mem_map_of_mem hmem
      obtain ⟨p, hp, heq⟩ := List.mem_map.mp (List.mem_filter.mp hrow).1
      have hkey := List.find?_eq_none.mp hnone p hp
      exact hkey (decide_eq_true (Prod.mk.inj heq).1)
    refine ⟨charged ++ [uid], ⟨?_, ?_, ?_⟩, by simp⟩
    · rw [dodgesOf_addPenalty, if_pos hown, hw.rows, List.map_append, List.map_singleton]
    · exact hw.nodup.append (List.nodup_singleton uid) (by simpa using hfresh)
    · intro x hx
      rcases List.mem_append.mp hx with hx | hx
      · exact hw.members x hx
      · rw [List.mem_singleton.mp hx]
        exact hmember

/-- The ready check charges the listed members, each once. -/
theorem World.Charged.penalise {uids : List UserId} {u : Unit} (hw : w.Charged k m charged)
    (hsize : (membersOf m).length ≤ 100) (h : penaliseUnaccepted ctx k m uids w = (.ok u, t)) :
    ∃ charged', t.Charged k m charged' ∧
      ∀ x, x ∈ charged' ↔ x ∈ charged ∨ (x ∈ uids ∧ x ∈ membersOf m) := by
  induction uids generalizing w charged with
  | nil =>
    obtain ⟨-, rfl⟩ := pure_ok.mp h
    exact ⟨charged, hw, by simp⟩
  | cons uid rest ih =>
    obtain ⟨_, v, hone, hrest⟩ := bind_ok.mp h
    obtain ⟨charged₁, hv, hmem₁⟩ : ∃ charged', v.Charged k m charged' ∧
        ∀ x, x ∈ charged' ↔ x ∈ charged ∨ (x = uid ∧ x ∈ membersOf m) := by
      rcases when_ok.mp hone with ⟨hmember, hone⟩ | ⟨hnot, rfl⟩
      · have hmember := of_decide_eq_true hmember
        obtain ⟨_, _, hregister, hpure⟩ := bind_ok.mp hone
        obtain ⟨-, rfl⟩ := pure_ok.mp hpure
        obtain ⟨charged₁, hv, hmem₁⟩ := hw.register hsize hmember hregister
        refine ⟨charged₁, hv, fun x => (hmem₁ x).trans (or_congr_right ?_)⟩
        exact ⟨fun hx => ⟨hx, hx ▸ hmember⟩, And.left⟩
      · have hnot := of_decide_eq_false hnot
        refine ⟨charged, hw, fun x => ⟨.inl, ?_⟩⟩
        rintro (hx | ⟨rfl, hmember⟩)
        · exact hx
        · exact absurd hmember hnot
    obtain ⟨charged₂, ht, hmem₂⟩ := ih hv hrest
    refine ⟨charged₂, ht, fun x => ?_⟩
    rw [hmem₂, hmem₁, List.mem_cons, or_assoc, or_and_right]

/-- The ready check of another match. -/
theorem penaliseUnaccepted_other {uids : List UserId} {u : Unit} (hj : j ≠ k)
    (hsize : (membersOf m).length ≤ 100) (h : penaliseUnaccepted ctx j m uids w = (.ok u, t)) :
    t.dodgesOf k = w.dodgesOf k := by
  refine forM_ok_leaves (fun _ => True) (World.dodgesOf k) (fun _ _ _ _ _ _ _ => trivial)
    (fun uid _ v u v' _ hone => ?_) trivial h
  rcases when_ok.mp hone with ⟨hmember, hone⟩ | ⟨-, rfl⟩
  · have hkey : keyOfMatch (dodgeKey j m uid) k = false :=
      (keyOfMatch_dodgeKey (of_decide_eq_true hmember) hsize).trans (decide_eq_false hj)
    obtain ⟨_, _, hregister, hpure⟩ := bind_ok.mp hone
    obtain ⟨-, rfl⟩ := pure_ok.mp hpure
    exact registerDodge_other hkey hregister
  · rfl

end Penalties

/-! ## Who is responsible -/

namespace World

/-- A ranked match that waits for the answers of its members is cancelled. -/
def Dropped (k : MatchId) (w t : World) : Prop :=
  (∃ m, w.matchRows.row k = some m ∧ m.ranked = true ∧ m.stage = .waiting) ∧
    ∃ m, t.matchRows.row k = some m ∧ m.stage = .cancelled

/-- The members who have not accepted the match. -/
def unaccepted (w : World) (k : MatchId) : List UserId :=
  ((w.matchRows.row k).map fun m =>
    (membersOf m).filter fun uid => uid ∉ m.state.accepted).getD []

/-- The users by whom an event drops a match. -/
def responsible (w : World) (k : MatchId) : Event → List UserId
  | .served _ (.action uid _ (.play _ .decline _ _ _)) => [uid]
  | .served _ (.action uid _ (.play _ .leaveMatch _ _ _)) => [uid]
  | .served _ (.action uid _ .queueLeave) => [uid]
  | .served _ (.nativeClaim _ uid) => [uid]
  | .served _ .tick => w.unaccepted k
  | _ => []

/-- The user may leave the ready check of the match by `leave_match`. -/
def LeavesCheck (w : World) (uid : UserId) (mode : Mode) (k : MatchId) (revision : Option Nat) :
    Prop :=
  mode.valid = true ∧ w.isActive uid = true ∧ ∃ m, w.matchRows.row k = some m ∧
    m.ranked = true ∧ m.stage = .waiting ∧ uid ∈ membersOf m ∧
      (revision.isSome = true → revision = some m.revision)

/-- The user may leave the ready check of the match by claiming a native room. -/
def ClaimsOut (w : World) (now : Time) (uid : UserId) (roomId : RoomId) : Prop :=
  w.freeToClaim now uid roomId = true ∧ ∃ k m r, w.matchOf uid = some k ∧
    w.matchRows.row k = some m ∧ m.ranked = true ∧ m.stage = .waiting ∧ m.roomId ≠ roomId ∧
      uid ∈ membersOf m ∧ w.reservationOf uid = some r ∧ r ∈ m.state.reservations

/-- The events that leave no ready check but by the ways that cost a penalty. -/
def KeepsReadyCheck (w : World) : Event → Prop
  | .served _ (.action uid mode (.play (some k) .leaveMatch _ revision _)) =>
    ¬ w.LeavesCheck uid mode k revision
  | .served ctx (.nativeClaim roomId uid) =>
    ¬ (w.lockSomsai ctx.now).ClaimsOut ctx.now uid roomId
  | _ => True

/-- What an event makes of the penalties for a match: nothing, unless it drops the
match and charges the given members, each once. -/
inductive Charges (k : MatchId) (uids : List UserId) (w t : World) : Prop
  | spares (hsame : t.dodgesOf k = w.dodgesOf k) (hkept : uids = [] ∨ ¬ Dropped k w t)
  | drops {m : Match} (hrow : w.matchRows.row k = some m) (hdropped : Dropped k w t)
      (hcharged : w.dodgesOf k = [] → ∃ charged, t.Charged k m charged ∧
        ∀ uid, uid ∈ charged ↔ uid ∈ uids)

/-- What decides who is charged for a match. -/
def checkOf (k : MatchId) (w : World) : Option Match × List (Int × UserId) :=
  (w.matchRows.row k, w.dodgesOf k)

end World

section Charges

variable {ctx : Ctx} {k j : MatchId} {v w t : World} {m : Match} {uid : UserId}
  {uids : List UserId}

theorem World.not_dropped (h : t.matchRows.row k = w.matchRows.row k) : ¬ Dropped k w t := by
  rintro ⟨⟨m, hm, -, hwaiting⟩, m', hm', hcancelled⟩
  rw [h, hm] at hm'
  obtain rfl := Option.some.inj hm'
  rw [hwaiting] at hcancelled
  simp at hcancelled

theorem World.charges_nobody (h : t.checkOf k = w.checkOf k) : Charges k uids w t :=
  .spares (congrArg Prod.snd h) (.inr (not_dropped (congrArg Prod.fst h)))

theorem World.dropped_congr {t' : World} (hpre : v.checkOf k = w.checkOf k)
    (hpost : t'.checkOf k = t.checkOf k) : Dropped k w t' ↔ Dropped k v t := by
  have hrow : v.matchRows.row k = w.matchRows.row k := congrArg Prod.fst hpre
  have hrow' : t'.matchRows.row k = t.matchRows.row k := congrArg Prod.fst hpost
  simp only [Dropped, hrow, hrow']

/-- What leaves the match and its penalties alone may come before and after. -/
theorem World.Charges.frame {t' : World} (h : Charges k uids v t) (hpre : v.checkOf k = w.checkOf k)
    (hpost : t'.checkOf k = t.checkOf k) : Charges k uids w t' := by
  obtain ⟨hrow, hdodges⟩ := Prod.mk.inj hpre
  obtain ⟨hrow', hdodges'⟩ := Prod.mk.inj hpost
  have hdropped := dropped_congr hpre hpost
  cases h with
  | spares hsame hkept =>
    exact .spares (hdodges'.trans (hsame.trans hdodges)) (hkept.imp_right fun hnot h =>
      hnot (hdropped.mp h))
  | drops hm h hcharged =>
    refine .drops (hrow ▸ hm) (hdropped.mpr h) fun hnone => ?_
    obtain ⟨charged, ht, hmem⟩ := hcharged (hdodges.trans hnone)
    exact ⟨charged, ⟨hdodges'.trans ht.rows, ht.nodup, ht.members⟩, hmem⟩

theorem Match.Orderly.roster (h : m.Orderly) (hranked : m.ranked = true) :
    (membersOf m).length ≤ 100 := by
  have hred := h.sizes hranked .red
  have hblue := h.sizes hranked .blue
  simp only [PerTeam.get] at hred hblue
  rw [membersOf, List.length_append, hred, hblue]
  cases m.format <;> simp [Format.size]

theorem World.dodgesOf_finishMatch {winner : Option Team} {cancelled : Bool} {reason : String} :
    (w.finishMatch ctx j winner cancelled reason).dodgesOf k = w.dodgesOf k :=
  (inferInstance : Frame (World.dodgesOf k) (finishMatch ctx j winner cancelled reason)).eq w

/-- Penalties and the end of a waiting match. -/
theorem penalised_charges {reason : String} {u : Unit} (hrow : w.matchRows.row j = some m)
    (hm : m.Orderly) (hranked : m.ranked = true) (hstage : m.stage = .waiting)
    (huids : ∀ x ∈ uids, x ∈ membersOf m)
    (h : (penaliseUnaccepted ctx j m uids >>= fun _ =>
      write (World.finishMatch ctx j none true reason)) w = (.ok u, t)) : Charges k uids w t := by
  obtain ⟨_, v, hpenalise, h⟩ := bind_ok.mp h
  have hquiet : Quiet w v := (inferInstance : Follows Quiet _).ok hpenalise
  have hrow' : v.matchRows.row j = some m := hquiet.row.trans hrow
  have hlive : m.stage.final = false := by rw [hstage]; rfl
  obtain rfl := write_ok.mp h
  by_cases hj : j = k
  · subst hj
    obtain ⟨changes, hend⟩ := row_finishMatch ctx none true reason hrow' hlive
    refine .drops hrow ⟨⟨m, hrow, hranked, hstage⟩, _, hend, rfl⟩ fun hnone => ?_
    have hw : w.Charged j m [] := ⟨hnone, List.nodup_nil, by simp⟩
    obtain ⟨charged, hv, hmem⟩ := hw.penalise (hm.roster hranked) hpenalise
    refine ⟨charged, ⟨dodgesOf_finishMatch.trans hv.rows, hv.nodup, hv.members⟩, fun x => ?_⟩
    rw [hmem]
    exact ⟨fun hx => (hx.resolve_left List.not_mem_nil).1, fun hx => .inr ⟨hx, huids x hx⟩⟩
  · refine charges_nobody (Prod.ext ?_ ?_)
    · obtain ⟨_, _, _, hframe⟩ := finishMatch_frame ctx none true reason hrow' hlive
      have hother : (v.finishMatch ctx j none true reason).matchRows.row k = v.matchRows.row k := by
        rw [hframe]
        exact row_putMatch_other (Ne.symm hj) v _
      exact hother.trans hquiet.row
    · exact dodgesOf_finishMatch.trans
        (penaliseUnaccepted_other hj (hm.roster hranked) hpenalise)

/-! ### Ways out of the ready check -/

theorem decline_charges {slotId : Option String} {revision poolId : Option Nat} {u : Unit}
    (hw : w.Orderly) (h : matchAction ctx j uid .decline slotId revision poolId w = (.ok u, t)) :
    Charges k [uid] w t := by
  obtain ⟨m, _, hget, h⟩ := bind_ok.mp h
  obtain ⟨hrow, rfl⟩ := getMatch_ok hget
  obtain ⟨_, _, hroster, h⟩ := bind_ok.mp h
  obtain ⟨hmember, rfl⟩ := refuse_ok.mp hroster
  split at h
  · obtain ⟨_, _, hover, -⟩ := bind_ok.mp h
    exact absurd (refuse_ok.mp hover).1 (by simp)
  · obtain ⟨_, _, hrevision, h⟩ := bind_ok.mp h
    obtain ⟨-, rfl⟩ := refuse_ok.mp hrevision
    obtain ⟨m', _, hget', h⟩ := bind_ok.mp h
    obtain ⟨hrow', rfl⟩ := getMatch_ok hget'
    obtain rfl := Option.some.inj (hrow.symm.trans hrow')
    obtain ⟨_, _, hphase, h⟩ := bind_ok.mp h
    obtain ⟨hstage, rfl⟩ := refuse_ok.mp hphase
    simp only [not_or, not_not, Bool.not_eq_false] at hstage
    refine penalised_charges hrow (hw.rows j m hrow) hstage.1 hstage.2 (fun x hx => ?_) h
    rw [List.mem_singleton.mp hx]
    exact not_not.mp hmember

/-- `leave_match` drops a match only when its caller, a member, leaves it in time. -/
theorem leaveMatch_dropped {slotId : Option String} {revision poolId : Option Nat} {u : Unit}
    (h : matchAction ctx j uid .leaveMatch slotId revision poolId w = (.ok u, t))
    (hdropped : Dropped k w t) : j = k ∧ ∃ m, w.matchRows.row k = some m ∧ m.ranked = true ∧
      m.stage = .waiting ∧ uid ∈ membersOf m ∧ (revision.isSome = true → revision = some m.revision) ∧
        ∃ winner reason, t = w.finishMatch ctx k winner true reason := by
  obtain ⟨m, _, hget, h⟩ := bind_ok.mp h
  obtain ⟨hrow, rfl⟩ := getMatch_ok hget
  obtain ⟨_, _, hroster, h⟩ := bind_ok.mp h
  obtain ⟨hmember, rfl⟩ := refuse_ok.mp hroster
  split at h
  · obtain ⟨_, _, hover, h⟩ := bind_ok.mp h
    obtain ⟨-, rfl⟩ := refuse_ok.mp hover
    obtain rfl := write_ok.mp h
    exact absurd hdropped (not_dropped rfl)
  · next hlive =>
    have hlive : m.stage.final = false := by simpa using hlive
    obtain ⟨_, _, hrevision, h⟩ := bind_ok.mp h
    obtain ⟨hcurrent, rfl⟩ := refuse_ok.mp hrevision
    obtain rfl := write_ok.mp h
    by_cases hj : j = k
    · subst hj
      obtain ⟨⟨m', hrow', hranked, hstage⟩, -⟩ := hdropped
      obtain rfl := Option.some.inj (hrow.symm.trans hrow')
      rw [decide_eq_true hstage]
      refine ⟨rfl, m, hrow, hranked, hstage, not_not.mp hmember, fun hsome => ?_, _, _, rfl⟩
      by_contra hne
      exact hcurrent ⟨hsome, hne⟩
    · have hplays : Plays True ctx j w _ := (Play.finish hrow hlive (.left (not_not.mp hmember))).plays
      exact absurd hdropped (not_dropped (hplays.row_other (Ne.symm hj)))

theorem leaveWaiting_charges {u : Unit} (hw : w.Orderly)
    (h : leaveWaiting ctx uid w = (.ok u, t)) : Charges k [uid] w t := by
  obtain ⟨found, _, hreq, h⟩ := bind_ok.mp h
  obtain ⟨hfound, rfl⟩ := require_ok.mp hreq
  unfold waitingMatch at hfound
  split at hfound
  · simp at hfound
  · next j hj =>
    obtain ⟨m, hrow, hm⟩ := Option.bind_eq_some_iff.mp hfound
    split at hm
    · next hwaiting =>
      obtain rfl := Option.some.inj hm
      refine penalised_charges hrow (hw.rows j m hrow) hwaiting.1 hwaiting.2.1 (fun x hx => ?_) h
      rw [List.mem_singleton.mp hx]
      exact hwaiting.2.2
    · simp at hm

theorem leaveQueue_charges {u : Unit} (hw : w.Orderly) (h : leaveQueue ctx uid w = (.ok u, t)) :
    Charges k [uid] w t := by
  obtain ⟨_, v, htouch, h⟩ := bind_ok.mp h
  have hquiet : Quiet w v := (inferInstance : Follows Quiet _).ok htouch
  have hv : v.Orderly := (hquiet.changes : Changes True ctx w v).orderly hw
  have hpre : v.checkOf k = w.checkOf k :=
    Prod.ext hquiet.row ((inferInstance : Leaves (World.dodgesOf k) _).ok htouch)
  obtain ⟨held, _, hread, h⟩ := bind_ok.mp h
  obtain ⟨-, rfl⟩ := read_ok.mp hread
  rcases onSome_ok.mp h with ⟨r, -, hrun⟩ | ⟨-, rfl⟩
  · obtain ⟨found, _, hread', hrun⟩ := bind_ok.mp hrun
    obtain ⟨-, rfl⟩ := read_ok.mp hread'
    cases found with
    | none => exact (leaveWaiting_charges hv hrun).frame hpre rfl
    | some x =>
      unfold leaveEntry at hrun
      obtain rfl := write_ok.mp hrun
      refine charges_nobody (Prod.ext ?_ ?_)
      · exact (congrArg (fun rows => rows.row k) (rows_dropEntry ctx.now v x)).trans hquiet.row
      · exact ((inferInstance : Frame (World.dodgesOf k) fun v : World =>
          v.dropEntry ctx.now x).eq v).trans (congrArg Prod.snd hpre)
  · exact charges_nobody hpre

/-- A tick charges a ranked match when its ready check expires, and else drops it
only when a member went offline. -/
theorem tickMatch_check {u : Unit} (hrow : w.matchRows.row j = some m)
    (h : tickMatch ctx j w = (.ok u, t)) :
    (t.dodgesOf k = w.dodgesOf k ∧ (m.ranked = true → m.stage = .waiting → m.state.offline = [] →
        t.matchRows.row j = w.matchRows.row j)) ∨
      m.ranked = true ∧ m.stage = .waiting ∧ m.expired ctx.now = true ∧
        (penaliseUnaccepted ctx j m ((membersOf m).filter fun uid => uid ∉ m.state.accepted) >>=
          fun _ => write (World.finishMatch ctx j none true "Not all players accepted the match."))
            w = (.ok u, t) := by
  by_cases hwaiting : m.stage = .waiting
  · have hlive : m.stage.final = false := by rw [hwaiting]; rfl
    rcases tickMatch_ok hrow hlive h with ⟨hlost, -⟩ | ⟨-, hoffline, rfl⟩ | ⟨-, -, h⟩
    · exact absurd hwaiting hlost.1
    · refine .inl ⟨dodgesOf_finishMatch, fun _ _ hnobody => absurd ?_ hoffline⟩
      simp [offlineTeams, hnobody]
    · have hbot : botChoice ctx j m = none := by simp [botChoice, Match.botTurn, hwaiting]
      simp only [tickStage, hbot, hwaiting, reduceCtorEq, if_false] at h
      rcases when_ok.mp h with ⟨hexpired, h⟩ | ⟨-, rfl⟩
      · simp only [deadlineExpired, hwaiting] at h
        cases hranked : m.ranked with
        | false =>
          obtain ⟨_, _, hskip, h⟩ := bind_ok.mp h
          simp only [hranked] at hskip
          obtain ⟨-, rfl⟩ := pure_ok.mp hskip
          obtain rfl := write_ok.mp h
          exact .inl ⟨dodgesOf_finishMatch, by simp⟩
        | true =>
          simp only [hranked] at h
          exact .inr ⟨rfl, hwaiting, hexpired, h⟩
      · exact .inl ⟨rfl, fun _ _ _ => rfl⟩
  · refine .inl ⟨?_, fun _ h => absurd h hwaiting⟩
    by_cases hlive : m.stage.final = false
    · rcases tickMatch_ok hrow hlive h with ⟨-, rfl⟩ | ⟨-, -, rfl⟩ | ⟨-, -, h⟩
      · exact dodgesOf_finishMatch
      · exact dodgesOf_finishMatch
      · exact (tickStage_leaves hwaiting : Leaves (World.dodgesOf k) _).ok h
    · obtain ⟨m', _, hget, h⟩ := bind_ok.mp h
      obtain ⟨hrow', rfl⟩ := getMatch_ok hget
      obtain rfl := Option.some.inj (hrow.symm.trans hrow')
      rw [if_pos (by simpa using hlive)] at h
      obtain ⟨-, rfl⟩ := pure_ok.mp h
      rfl

/-- The turn of another match. -/
theorem tickMatch_other {u : Unit} (hj : j ≠ k) (hw : w.Orderly)
    (h : tickMatch ctx j w = (.ok u, t)) : t.dodgesOf k = w.dodgesOf k := by
  obtain ⟨m, _, hget, -⟩ := bind_ok.mp h
  obtain ⟨hrow, -⟩ := getMatch_ok hget
  rcases tickMatch_check (k := k) hrow h with ⟨hsame, -⟩ | ⟨hranked, -, -, h⟩
  · exact hsame
  · obtain ⟨_, v, hpenalise, h⟩ := bind_ok.mp h
    obtain rfl := write_ok.mp h
    exact dodgesOf_finishMatch.trans
      (penaliseUnaccepted_other hj ((hw.rows j m hrow).roster hranked) hpenalise)

/-- A match that was just made has time. -/
theorem Match.Made.not_expired (h : m.Made ctx k) : m.expired ctx.now = false := by
  obtain ⟨setup, pool, rating, room, hranked, rfl⟩ := h
  simp [Match.expired, newMatch, newState, hranked, Ctx.deadline, MATCH_ACCEPT_SECONDS, seconds]

theorem tick_charges {u : Unit} (hw : w.Orderly)
    (honline : ∀ m, w.matchRows.row k = some m → m.stage = .waiting → m.state.offline = [])
    (h : tick ctx w = (.ok u, t)) : Charges k (w.unaccepted k) w t := by
  have hturns : ∀ j v u t, v.Orderly → tickMatch ctx j v = (.ok u, t) → t.Orderly := by
    intro j v u t hv hrun
    have hchanges : Changes True ctx v t := (tickMatch_changes trivial).ok hrun
    exact hchanges.orderly hv
  obtain ⟨v, hqueues, hcases⟩ := tick_ok World.Orderly (World.dodgesOf k) (k := k) hturns
    (fun j hj v u t hv hone => tickMatch_other hj hv hone)
    (fun v hqueues => ((inferInstance : Follows (Changes True ctx) _).ok hqueues).orderly hw) h
  have hdodges : v.dodgesOf k = w.dodgesOf k :=
    (inferInstance : Leaves (World.dodgesOf k) (matchQueues ctx)).ok hqueues
  rcases (inferInstance : Follows (Matches ctx) (matchQueues ctx)).ok hqueues k with
    hsame | ⟨hnone, m₁, hm₁, hmade⟩
  · rcases hcases with ⟨-, hrow, ht⟩ | ⟨m, v₁, v₂, hrow, -, hv₁, hrow₁, hbefore, hrun, hrow₂, hafter⟩
    · exact charges_nobody (Prod.ext (hrow.trans hsame) (ht.trans hdodges))
    · have hm : w.matchRows.row k = some m := hsame.symm.trans hrow
      refine Charges.frame (v := v₁) (t := v₂) ?_ (Prod.ext (hrow₁.trans hm.symm) (hbefore.trans hdodges))
        (Prod.ext hrow₂ hafter)
      rcases tickMatch_check (k := k) hrow₁ hrun with ⟨hspared, hkept⟩ | ⟨hranked, hstage, -, hrun⟩
      · refine .spares hspared (.inr fun hdropped => ?_)
        obtain ⟨⟨m', hm', hranked, hstage⟩, -⟩ := id hdropped
        obtain rfl := Option.some.inj (hrow₁.symm.trans hm')
        exact not_dropped (hkept hranked hstage (honline m hm hstage)) hdropped
      · have huids : w.unaccepted k =
            (membersOf m).filter fun uid => uid ∉ m.state.accepted := by
          simp [unaccepted, hm]
        rw [huids]
        exact penalised_charges hrow₁ (hv₁.rows k m hrow₁) hranked hstage
          (fun x hx => (List.mem_filter.mp hx).1) hrun
  · refine .spares ?_ (.inr fun hdropped => ?_)
    · rcases hcases with ⟨-, -, ht⟩ | ⟨m, v₁, v₂, hrow, -, -, hrow₁, hbefore, hrun, -, hafter⟩
      · exact ht.trans hdodges
      · obtain rfl := Option.some.inj (hm₁.symm.trans hrow)
        rcases tickMatch_check (k := k) hrow₁ hrun with ⟨hspared, -⟩ | ⟨-, -, hexpired, -⟩
        · exact hafter.trans (hspared.trans (hbefore.trans hdodges))
        · rw [hmade.not_expired] at hexpired
          simp at hexpired
    · obtain ⟨⟨m, hm, -⟩, -⟩ := hdropped
      rw [hnone] at hm
      simp at hm

/-! ### Native rooms -/

/-- A release of other leases leaves a user's lease alone. -/
theorem reservationOf_releaseAll (now : Time) {rs : List ReservationId} {r : ReservationId}
    (hr : r ∉ rs) (hheld : w.reservationOf uid = some r) :
    (rs.foldl (World.releaseReservation now) w).reservationOf uid = some r := by
  induction rs generalizing w with
  | nil => exact hheld
  | cons r' rest ih =>
    obtain ⟨hne, hrest⟩ := not_or.mp (mt List.mem_cons.mpr hr)
    refine ih hrest ?_
    unfold World.releaseReservation
    split
    · exact hheld
    · next x _ =>
      have hkept : (x.members.foldl (releaseMember now r') w).reservationOf uid = some r := by
        rw [(releaseMembers now r' x.members w uid).1, if_neg, hheld]
        rintro ⟨-, heq⟩
        exact hne (Option.some.inj (hheld.symm.trans heq))
      dsimp only
      split <;> exact hkept

/-- The end of a match points its members at it and frees its own leases alone. -/
theorem pointers_finishMatch (ctx : Ctx) (winner : Option Team) (cancelled : Bool)
    (reason : String) {r : ReservationId} (hrow : w.matchRows.row k = some m) (hlive : m.stage.final = false)
    (hmember : uid ∈ membersOf m) (hr : r ∉ m.state.reservations)
    (hheld : w.reservationOf uid = some r) :
    (w.finishMatch ctx k winner cancelled reason).matchOf uid = some k ∧
      (w.finishMatch ctx k winner cancelled reason).reservationOf uid = some r := by
  unfold World.finishMatch
  simp only [hrow, hlive, Bool.false_eq_true, if_false]
  obtain ⟨_, hsettle⟩ := core_settle ctx w k (m.closed ctx winner cancelled reason) winner cancelled
  generalize w.settle ctx k _ winner cancelled = settled at hsettle ⊢
  have hkept : settled.1.reservationOf uid = some r :=
    (congrFun (congrArg Core.reservationOf hsettle) uid).trans hheld
  obtain ⟨hmatch, hreservation⟩ := setMatches ctx.now (some k) (membersOf m)
    (m.state.reservations.foldl (World.releaseReservation ctx.now) (settled.1.putMatch k
      ((m.closed ctx winner cancelled reason).withRatings winner settled.2))) uid
  exact ⟨hmatch.trans (if_pos hmember),
    hreservation.trans (reservationOf_releaseAll ctx.now hr hkept)⟩

/-- A user with a lease claims no room but that of their live match. -/
theorem claimNativeRoom_held {now : Time} {roomId : RoomId} {u : Unit}
    (h : claimNativeRoom now uid roomId w = (.ok u, t)) {r : ReservationId}
    (hheld : w.reservationOf uid = some r) : w.inMatchOfRoom uid roomId = true := by
  obtain ⟨_, _, hcheck, h⟩ := bind_ok.mp h
  obtain ⟨-, rfl⟩ := activeUser_ok hcheck
  obtain ⟨_, v, htouch, h⟩ := bind_ok.mp h
  have hquiet : Quiet w v := (inferInstance : Follows Quiet _).ok htouch
  obtain ⟨_, _, hbusy, -⟩ := bind_ok.mp h
  have hbusy := (refuse_ok.mp hbusy).1
  have hheld' : v.reservationOf uid = some r :=
    (congrFun (congrArg Core.reservationOf hquiet.core) uid).trans hheld
  have hmatch : v.matchOf uid = w.matchOf uid :=
    congrFun (congrArg Core.matchOf hquiet.core) uid
  have hrows : v.matchRows = w.matchRows := congrArg Core.matchRows hquiet.core
  have hsame : v.inMatchOfRoom uid roomId = w.inMatchOfRoom uid roomId := by
    simp only [inMatchOfRoom, hmatch, hrows]
  rw [hheld', Option.isSome_some, Bool.true_and, hsame, Bool.not_eq_true', Bool.not_eq_false] at hbusy
  exact hbusy

theorem pointedMatch_some {x : MatchId × Match} (h : w.pointedMatch uid = some x) :
    w.matchOf uid = some x.1 ∧ w.matchRows.row x.1 = some x.2 := by
  unfold pointedMatch at h
  split at h
  · simp at h
  · next j hj =>
    obtain ⟨m, hrow, rfl⟩ := Option.map_eq_some_iff.mp h
    exact ⟨hj, hrow⟩

/-- A claim drops a match only when its member claims another room. -/
theorem claim_dropped {roomId : RoomId} {u : Unit}
    (h : internalNativeClaim ctx roomId uid w = (.ok u, t)) (hdropped : Dropped k w t) :
    w.ClaimsOut ctx.now uid roomId := by
  obtain ⟨_, v, htouch, h⟩ := bind_ok.mp h
  have hquiet : Quiet w v := (inferInstance : Follows Quiet _).ok htouch
  have haccounts : v.accounts = w.accounts := by
    obtain rfl := write_ok.mp htouch
    rfl
  obtain ⟨held, _, hread, h⟩ := bind_ok.mp h
  obtain ⟨hheld, rfl⟩ := read_ok.mp hread
  obtain ⟨pointed, _, hread', h⟩ := bind_ok.mp h
  obtain ⟨hpointed, rfl⟩ := read_ok.mp hread'
  obtain ⟨_, v₁, hdepart, hclaim⟩ := bind_ok.mp h
  have hrows : t.matchRows.row k = v₁.matchRows.row k :=
    ((inferInstance : Follows Quiet _).ok hclaim).row
  have hdropped : Dropped k v v₁ := by
    obtain ⟨⟨m, hm, hstage⟩, hend⟩ := hdropped
    exact ⟨⟨m, hquiet.row.trans hm, hstage⟩, hrows ▸ hend⟩
  rcases onSome_ok.mp hdepart with ⟨r, rfl, hrun⟩ | ⟨-, rfl⟩
  · have hrelease : v₁ = v.releaseReservation ctx.now r → False := by
      rintro rfl
      have hsame := rows_releaseReservation ctx.now v r
      exact not_dropped (congrArg (fun rows => rows.row k) hsame) hdropped
    unfold departFrom at hrun
    split at hrun
    · next j m =>
      obtain ⟨hmatch, hrow⟩ := pointedMatch_some hpointed
      split at hrun
      · exact absurd (write_ok.mp hrun).symm hrelease
      · next hlive =>
        rcases when_ok.mp hrun with ⟨hroom, hleave⟩ | ⟨-, rfl⟩
        · obtain ⟨rfl, m', hrow', hranked, hstage, hmember, -, winner, reason, rfl⟩ :=
            leaveMatch_dropped hleave hdropped
          obtain rfl := Option.some.inj (hrow.symm.trans hrow')
          have hlive : m.stage.final = false := by simpa using hlive
          have hlease : r ∈ m.state.reservations := by
            by_contra hr
            obtain ⟨hpointer, hkept⟩ :=
              pointers_finishMatch ctx winner true reason hrow hlive hmember hr hheld
            have hroom := claimNativeRoom_held hclaim hkept
            obtain ⟨changes, hend⟩ := row_finishMatch ctx winner true reason hrow hlive
            simp [inMatchOfRoom, hpointer, hend, Match.withRatings, Match.closed, Match.touch,
              Stage.final] at hroom
          obtain ⟨_, _, _, hframe⟩ := finishMatch_frame ctx winner true reason hrow hlive
          have haccounts' : (v.finishMatch ctx j winner true reason).accounts = v.accounts := by
            rw [hframe]
            rfl
          refine ⟨?_, j, m, r, ?_, ?_, hranked, hstage, of_decide_eq_true hroom, hmember, ?_, hlease⟩
          · rw [← freeToClaim_accounts (haccounts'.trans haccounts)]
            exact claimNativeRoom_ok hclaim
          · exact (congrFun (congrArg Core.matchOf hquiet.core) uid).symm.trans hmatch
          · exact hquiet.row.symm.trans hrow
          · exact (congrFun (congrArg Core.reservationOf hquiet.core) uid).symm.trans hheld
        · exact absurd hdropped (not_dropped rfl)
    · exact absurd (write_ok.mp hrun).symm hrelease
  · exact absurd hdropped (not_dropped rfl)

/-! ### Requests -/

instance {keys : World → List RatingKey} :
    Frame World.matchRows fun w : World => w.ensureRatings (keys w) :=
  ⟨fun w => foldl_leaves World.matchRows (fun v key => by unfold ensureRating; split <;> rfl) _ w⟩

instance {now : Time} : Frame World.matchRows (touchActivity now uid) := ⟨fun _ => rfl⟩

instance {now : Time} : Frame World.matchRows (refreshEntry now uid) where
  eq w := by
    unfold refreshEntry
    split
    · rfl
    · split
      · exact rows_dropEntry now w _
      · rfl

instance : Leaves World.matchRows (activeUser uid) := by unfold activeUser; infer_instance

instance {now : Time} : Leaves World.matchRows (Somsai.getParty now uid) := by
  unfold Somsai.getParty; infer_instance

instance : Leaves World.matchRows (dodgeStatus uid) := by unfold dodgeStatus; infer_instance

instance : Leaves World.matchRows (ownPayload uid) := by
  unfold ownPayload matchPayload getMatch; dsimp only; infer_instance

-- One step of the search for each statement of the body.
set_option synthInstance.maxSize 2000 in
instance {rulesetId : RulesetId} {variantId : Nat} :
    Leaves World.matchRows (publicState ctx uid rulesetId variantId) := by
  unfold publicState validateMode; dsimp only; infer_instance

/-- Showing the state changes no match and stores no penalty. -/
theorem publicState_check {rulesetId : RulesetId} {variantId : Nat} {u : Unit}
    (h : publicState ctx uid rulesetId variantId w = (.ok u, t)) : t.checkOf k = w.checkOf k := by
  have hrows : t.matchRows = w.matchRows := (inferInstance : Leaves World.matchRows _).ok h
  have hdodges : t.dodgesOf k = w.dodgesOf k := (inferInstance : Leaves (World.dodgesOf k) _).ok h
  exact Prod.ext (congrArg (fun rows => rows.row k) hrows) hdodges

theorem lockSomsai_check (now : Time) : (w.lockSomsai now).checkOf k = w.checkOf k := by
  have hdodges : (w.lockSomsai now).dodgesOf k = w.dodgesOf k := leaves_lockSomsai now w
  exact Prod.ext (congrArg (fun rows => rows.row k) (rows_lockSomsai now w)) hdodges

/-- The player actions that store penalties. -/
def Action.penalises : Action → Bool
  | .queueLeave => true
  | .play _ .decline _ _ _ => true
  | _ => false

theorem dispatch_leaves {γ : Type} {π : World → γ} [Bystander π] [IgnoresParties π] {mode : Mode}
    {action : Action} (h : action.penalises = false) : Leaves π (dispatch ctx uid mode action) := by
  cases action with
  | queueLeave => simp [Action.penalises] at h
  | play matchId act slotId revision poolId =>
    have hact : act ≠ .decline := by
      rintro rfl
      simp [Action.penalises] at h
    have hmove : ∀ j, Leaves π (matchAction ctx j uid act slotId revision poolId) := fun _ =>
      matchAction_leaves hact
    unfold dispatch
    infer_instance
  | party | directInvite | directAnswer | queueJoin | customCreate | customJoin =>
    unfold dispatch
    infer_instance

/-- No request but the clock and those actions stores a penalty. -/
theorem serve_leaves {γ : Type} {π : World → γ} [Bystander π] [IgnoresParties π] {request : Request}
    (htick : request ≠ .tick)
    (haction : ∀ uid mode action, request = .action uid mode action → action.penalises = false) :
    Leaves π (serve ctx request) := by
  cases request with
  | tick => exact absurd rfl htick
  | action uid mode action =>
    have hdispatch : Leaves π (dispatch ctx uid mode action) :=
      dispatch_leaves (haction uid mode action rfl)
    unfold serve handleAction
    infer_instance
  | state | social | leaderboard | partyChat | view | roomEvent | botResults | room | nativeClaim
    | nativeRelease | party | reserve | renew | release =>
    simp only [serve, nativeReserve]
    infer_instance

/-- What a request makes of the penalties for a match. -/
theorem after_charges {request : Request} (hw : w.Orderly)
    (honline : ∀ m, w.matchRows.row k = some m → m.stage = .waiting → m.state.offline = [])
    (hP : w.KeepsReadyCheck (.served ctx request)) :
    Charges k (w.responsible k (.served ctx request)) w (w.after ctx request) := by
  rcases after_cases w ctx request with ⟨u, h⟩ | hsame
  · generalize w.after ctx request = t at h
    have hpre : (w.lockSomsai ctx.now).checkOf k = w.checkOf k := lockSomsai_check ctx.now
    have hrow : (w.lockSomsai ctx.now).matchRows.row k = w.matchRows.row k := congrArg Prod.fst hpre
    have hlock : Changes True ctx w _ := lockSomsai_changes ctx w
    have hlocked : (w.lockSomsai ctx.now).Orderly := hlock.orderly hw
    have hspares : request ≠ .tick →
        (∀ uid mode action, request = .action uid mode action → action.penalises = false) →
        t.dodgesOf k = w.dodgesOf k := by
      intro htick haction
      have hleaves : Leaves (World.dodgesOf k) (serve ctx request) := serve_leaves htick haction
      exact (hleaves.ok h).trans (congrArg Prod.snd hpre)
    cases request with
    | tick =>
      have huids : (w.lockSomsai ctx.now).unaccepted k = w.unaccepted k := by
        simp only [unaccepted, hrow]
      have hcharges := tick_charges (k := k) hlocked (fun m hm => honline m (hrow ▸ hm)) h
      rw [huids] at hcharges
      exact hcharges.frame hpre rfl
    | nativeClaim roomId uid =>
      refine .spares (hspares (by simp) (by simp)) (.inr fun hdropped => hP ?_)
      exact claim_dropped h ((dropped_congr hpre rfl).mp hdropped)
    | action uid mode action =>
      obtain ⟨_, v, haction, hstate⟩ := bind_ok.mp h
      have hpost : t.checkOf k = v.checkOf k := publicState_check hstate
      obtain ⟨_, _, hvalidate, haction⟩ := bind_ok.mp haction
      obtain ⟨hmode, rfl⟩ := validateMode_ok hvalidate
      obtain ⟨_, _, hcheck, haction⟩ := bind_ok.mp haction
      obtain ⟨hactive, rfl⟩ := activeUser_ok hcheck
      cases action with
      | queueLeave => exact (leaveQueue_charges hlocked haction).frame hpre hpost
      | play matchId act slotId revision poolId =>
        obtain ⟨j, _, hreq, haction⟩ := bind_ok.mp haction
        obtain ⟨rfl, rfl⟩ := require_ok.mp hreq
        cases act with
        | decline => exact (decline_charges hlocked haction).frame hpre hpost
        | leaveMatch =>
          refine .spares (hspares (by simp) (by rintro _ _ _ ⟨⟩; rfl)) (.inr fun hdropped => hP ?_)
          obtain ⟨rfl, m, hm, hranked, hstage, hmember, hrevision, -⟩ :=
            leaveMatch_dropped haction ((dropped_congr hpre hpost).mp hdropped)
          have husers : (w.lockSomsai ctx.now).users = w.users :=
            congrArg (fun a => a.2.1) (accounts_lockSomsai ctx.now w)
          simp only [isActive, husers] at hactive
          exact ⟨hmode, hactive, m, hrow ▸ hm, hranked, hstage, hmember, hrevision⟩
        | poolVote | ban | pick | customStart | ready | unready =>
          exact .spares (hspares (by simp) (by rintro _ _ _ ⟨⟩; rfl)) (.inl rfl)
      | party | directInvite | directAnswer | queueJoin | customCreate | customJoin =>
        exact .spares (hspares (by simp) (by rintro _ _ _ ⟨⟩; rfl)) (.inl rfl)
    | state | social | leaderboard | partyChat | view | roomEvent | botResults | room | nativeRelease
      | party | reserve | renew | release =>
      exact .spares (hspares (by simp) (by simp)) (.inl rfl)
  · rw [hsame]
    exact charges_nobody rfl

end Charges

/-! ## Runs -/

/-- While a match waits, nobody is offline. -/
def Match.Online (m : Match) : Prop := m.stage = .waiting → m.state.offline = []

section Online

variable {clock : Prop} {ctx : Ctx} {k : MatchId} {w : World} {m m' : Match}

theorem offlineAfter_waiting (hstage : m.stage = .waiting) (hoffline : m.state.offline = [])
    (connected : List UserId) : offlineAfter ctx m connected = [] := by
  have hfold : ∀ l : List UserId, l.foldl
      (fun offline uid =>
        if uid ∈ connected then offline.filter fun entry => entry.1 ≠ uid
        else if m.stage = .waiting ∨ (offline.any fun entry => entry.1 = uid) then offline
        else offline ++ [(uid, ctx.deadline 120)])
      ([] : List (UserId × Time)) = [] := by
    intro l
    induction l with
    | nil => rfl
    | cons uid rest ih => simpa [hstage] using ih
  rw [offlineAfter, hoffline]
  exact hfold _

/-- A heartbeat of a waiting match reports nobody offline. -/
theorem Match.Update.online (h : m.Update clock ctx w m') (hm : m.Online) : m'.Online := by
  intro hwaiting
  obtain ⟨hstage, ⟨uid, ready, rfl⟩ | ⟨_, _, rfl⟩ | ⟨e, rfl⟩⟩ := h.waiting hwaiting
  · unfold Match.answer
    simp only [hstage, if_true]
    exact hm hstage
  · exact hm hstage
  · exact offlineAfter_waiting hstage (hm hstage) e.connected

theorem RowChange.online (h : RowChange clock ctx k (some m) (some m')) (hm : m.Online) :
    m'.Online := by
  cases h with
  | same => exact hm
  | update w hupdate => exact hupdate.online hm
  | @ends _ _ winner cancelled reason =>
    intro hwaiting
    have hfinal := final_finalStage cancelled
    rw [show finalStage cancelled = .waiting from hwaiting] at hfinal
    simp [Stage.final] at hfinal
  | @concludes _ _ slot winner totals players forfeit reason _ _ champion cancelled =>
    intro hwaiting
    have hfinal := final_finalStage cancelled
    rw [show finalStage cancelled = .waiting from hwaiting] at hfinal
    simp [Stage.final] at hfinal
  | seat => exact hm

theorem RowChange.opens_online (h : RowChange clock ctx k none (some m)) : m.Online := by
  cases h with
  | opens => exact fun _ => rfl

/-- In every reachable store the waiting matches have nobody offline. -/
theorem Reaches.online {P : World → Event → Prop} (h : Reaches P w)
    (hrow : w.matchRows.row k = some m) : m.Online :=
  h.rows Match.Online (fun _ _ _ _ => RowChange.opens_online)
    (fun _ _ _ _ _ => RowChange.online) hrow

end Online

/-- What one event makes of the penalties for a match. -/
theorem Step.charges {k : MatchId} {w t : World} {e : Event} (h : Step w e t)
    (hreach : Reaches anyEvent w) (hP : w.KeepsReadyCheck e) : Charges k (w.responsible k e) w t := by
  cases h with
  | served ctx request =>
    exact after_charges hreach.orderly (fun m hm => hreach.online hm) hP
  | changed o ho =>
    refine .spares ?_ (.inl rfl)
    have hnative : (o.penalties.map fun p => (p.roomId, p.userId)).filter
        (fun x => keyOfMatch x.1 k) = [] := by
      refine List.filter_eq_nil_iff.mpr fun x hx => ?_
      obtain ⟨p, hp, rfl⟩ := List.mem_map.mp hx
      have hkey := ho.penalties_native p hp
      simp [keyOfMatch, Int.not_lt.mpr hkey]
    simp only [World.dodgesOf, World.outside, List.map_append, List.filter_append, hnative,
      List.append_nil]

/-- The user dropped the match in its ready check. -/
def Blamed (w₀ : World) (k : MatchId) (uid : UserId) : List (Event × World) → Prop
  | [] => False
  | (e, t) :: h =>
    (Dropped k (endState w₀ h) t ∧ uid ∈ (endState w₀ h).responsible k e) ∨ Blamed w₀ k uid h

/-- Who dropped a match has one penalty for it, and nobody else has one. -/
def World.Accountable (w₀ : World) (k : MatchId) (h : List (Event × World)) (w : World) : Prop :=
  ∀ uid, (Blamed w₀ k uid h → w.dodges k uid = 1) ∧ (¬ Blamed w₀ k uid h → w.dodges k uid = 0)

section Accountable

variable {w₀ w t : World} {k : MatchId} {h : List (Event × World)} {e : Event}

/-- A match that nobody dropped has no penalties. -/
theorem World.Accountable.dodgesOf (hw : World.Accountable w₀ k h w)
    (hnone : ∀ uid, ¬ Blamed w₀ k uid h) : w.dodgesOf k = [] := by
  refine List.eq_nil_iff_forall_not_mem.mpr fun x hx => ?_
  have hzero := (hw x.2).2 (hnone x.2)
  exact List.count_eq_zero.mp hzero (List.mem_map_of_mem hx)

/-- One event keeps the members accountable, while a match whose members are to blame
is over. -/
theorem Step.accountable (hstep : Step w e t) (hreach : Reaches anyEvent w)
    (hP : w.KeepsReadyCheck e) (hend : endState w₀ h = w)
    (hover : ∀ uid, Blamed w₀ k uid h → ∃ m, w.matchRows.row k = some m ∧ m.stage.final = true)
    (hw : World.Accountable w₀ k h w) :
    (∀ uid, Blamed w₀ k uid ((e, t) :: h) → ∃ m, t.matchRows.row k = some m ∧ m.stage.final = true) ∧
      World.Accountable w₀ k ((e, t) :: h) t := by
  have hblamed : ∀ uid, Blamed w₀ k uid ((e, t) :: h) ↔
      (Dropped k w t ∧ uid ∈ w.responsible k e) ∨ Blamed w₀ k uid h := by
    intro uid
    rw [Blamed, hend]
  simp only [World.Accountable, hblamed]
  cases hstep.charges (k := k) hreach hP with
  | spares hsame hkept =>
    have hnobody : ∀ uid, ¬ (Dropped k w t ∧ uid ∈ w.responsible k e) := by
      rintro uid ⟨hdropped, huid⟩
      rcases hkept with hnone | hnot
      · rw [hnone] at huid
        exact List.not_mem_nil huid
      · exact hnot hdropped
    simp only [hnobody, false_or]
    refine ⟨fun uid hold => ?_, fun uid => ?_⟩
    · obtain ⟨m, hrow, hfinal⟩ := hover uid hold
      exact ⟨m, hstep.row_final hrow hfinal, hfinal⟩
    · rw [World.dodges, hsame]
      exact hw uid
  | @drops m hrow hdropped hcharged =>
    have hnobody : ∀ uid, ¬ Blamed w₀ k uid h := by
      intro uid hold
      obtain ⟨m', hrow', hfinal⟩ := hover uid hold
      obtain ⟨⟨m₁, hrow₁, -, hwaiting⟩, -⟩ := hdropped
      rw [Option.some.inj (hrow'.symm.trans hrow₁), hwaiting] at hfinal
      simp [Stage.final] at hfinal
    obtain ⟨charged, ht, hmem⟩ := hcharged (hw.dodgesOf hnobody)
    simp only [hnobody, or_false, hdropped, true_and]
    refine ⟨fun uid _ => ?_, fun uid => ?_⟩
    · obtain ⟨-, m', hrow', hcancelled⟩ := hdropped
      exact ⟨m', hrow', by rw [hcancelled]; rfl⟩
    · rw [ht.dodges uid, ← hmem uid]
      exact ⟨fun huid => if_pos huid, fun huid => if_neg huid⟩

end Accountable

/-- Along the runs in which nobody leaves a ready check without a penalty, exactly
those who drop a ranked match in its ready check get one penalty for it. -/
theorem dodge_accountable {w₀ w : World} {h : List (Event × World)} (h₀ : w₀.Initial)
    (hnative : ∀ p ∈ w₀.penalties, 0 ≤ p.roomId)
    (hrun : Trace Step World.KeepsReadyCheck w₀ h w) (k : MatchId) : World.Accountable w₀ k h w := by
  have hstart : w₀.dodgesOf k = [] := by
    refine List.filter_eq_nil_iff.mpr fun x hx => ?_
    obtain ⟨p, hp, rfl⟩ := List.mem_map.mp hx
    simp [keyOfMatch, Int.not_lt.mpr (hnative p hp)]
  have hinv := hrun.invariant (I := fun h w => Reaches anyEvent w ∧ endState w₀ h = w ∧
      (∀ uid, Blamed w₀ k uid h → ∃ m, w.matchRows.row k = some m ∧ m.stage.final = true) ∧
      World.Accountable w₀ k h w)
    (fun h w e t ⟨hreach, hend, hover, hw⟩ hP hstep =>
      ⟨hreach.step trivial hstep, rfl, hstep.accountable hreach hP hend hover hw⟩)
    ⟨.initial h₀, rfl, fun _ => False.elim, fun uid => ⟨False.elim, fun _ => ?_⟩⟩
  · exact hinv.2.2.2
  · simp [World.dodges, hstart]

/-- Players 1 and 2 queue and are matched. -/
def metStore : World := (threePlayers.acts 1 .queueJoin).acts 2 .queueJoin

/-- The history of a store to which one more request leads after the two players met. -/
def metHistory (ctx : Ctx) (request : Request) : List (Event × World) :=
  let joins := fun uid => Event.served (.steady 0) (.action uid ⟨.one, 0, 0⟩ .queueJoin)
  [(.served ctx request, metStore.after ctx request), (joins 2, metStore),
    (joins 1, threePlayers.acts 1 .queueJoin)]

theorem trace_met {P : World → Event → Prop} (ctx : Ctx) (request : Request)
    (hjoins : ∀ w uid, P w (.served (.steady 0) (.action uid ⟨.one, 0, 0⟩ .queueJoin)))
    (hP : P metStore (.served ctx request)) :
    Trace Step P threePlayers (metHistory ctx request) (metStore.after ctx request) :=
  ((Trace.refl.tail (hjoins _ 1) (.served _ _ _)).tail (hjoins _ 2) (.served _ _ _)).tail hP
    (.served _ _ _)

/-- Whoever may answer for the last event of such a history dropped match 1. -/
theorem blamed_met {ctx : Ctx} {request : Request} {uid : UserId}
    (hrow : (metStore.matchRows.row 1).map (fun m => (m.ranked, m.stage)) = some (true, .waiting))
    (hrow' : ((metStore.after ctx request).matchRows.row 1).map (·.stage) = some .cancelled)
    (huid : uid ∈ metStore.responsible 1 (.served ctx request)) :
    Blamed threePlayers 1 uid (metHistory ctx request) := by
  obtain ⟨m, hm, hwaits⟩ := Option.map_eq_some_iff.mp hrow
  obtain ⟨m', hm', hcancelled⟩ := Option.map_eq_some_iff.mp hrow'
  obtain ⟨hranked, hstage⟩ := Prod.mk.inj hwaits
  exact .inl ⟨⟨⟨m, hm, hranked, hstage⟩, m', hm', hcancelled⟩, huid⟩

/-- Player 1 leaves the match, or enters a native room. -/
def leavesMet : Request := .action 1 ⟨.one, 0, 0⟩ (leaveOf 1)

def claimsMet : Request := .nativeClaim 7 1

/-- Either way player 1 drops the ready check and pays nothing. -/
theorem ready_check_left_free :
    (Trace Step anyEvent threePlayers (metHistory (.steady 0) leavesMet)
        (metStore.after (.steady 0) leavesMet) ∧
      ¬ World.Accountable threePlayers 1 (metHistory (.steady 0) leavesMet)
        (metStore.after (.steady 0) leavesMet)) ∧
    Trace Step anyEvent threePlayers (metHistory (.steady 0) claimsMet)
        (metStore.after (.steady 0) claimsMet) ∧
      ¬ World.Accountable threePlayers 1 (metHistory (.steady 0) claimsMet)
        (metStore.after (.steady 0) claimsMet) := by
  refine ⟨⟨trace_met _ _ (fun _ _ => trivial) trivial, fun hpays => ?_⟩,
    trace_met _ _ (fun _ _ => trivial) trivial, fun hpays => ?_⟩
  · have hone := (hpays 1).1
      (blamed_met (by decide +kernel) (by decide +kernel) (List.mem_singleton_self 1))
    have hzero : (metStore.after (.steady 0) leavesMet).dodges 1 1 = 0 := by decide +kernel
    omega
  · have hone := (hpays 1).1
      (blamed_met (by decide +kernel) (by decide +kernel) (List.mem_singleton_self 1))
    have hzero : (metStore.after (.steady 0) claimsMet).dodges 1 1 = 0 := by decide +kernel
    omega

/-- Player 1 declines and is the only one to pay. -/
theorem dodge_accountable_declined :
    (metStore.acts 1 (.play (some 1) .decline none none none)).dodges 1 1 = 1 ∧
      (metStore.acts 1 (.play (some 1) .decline none none none)).dodges 1 2 = 0 := by
  have hrun := trace_met (P := World.KeepsReadyCheck) (.steady 0)
    (.action 1 ⟨.one, 0, 0⟩ (.play (some 1) .decline none none none)) (fun _ _ => trivial) trivial
  have haccountable := dodge_accountable (World.initial_fresh _ _) (by simp [World.fresh]) hrun 1
  refine ⟨(haccountable 1).1 ?_, (haccountable 2).2 ?_⟩
  · exact blamed_met (by decide +kernel) (by decide +kernel) (List.mem_singleton_self 1)
  · simp [metHistory, Blamed, World.responsible]

end Soms.Somsai

import Soms.Somsai.Months
import Soms.Somsai.System

/-!
# Escalation

Calls of `register_dodge`, one after the other, from a store without penalties.  The order of
`latest_penalty` finds the penalty that came last, although times are whole seconds: of two
penalties in one second the later one has the higher level, or both are permanent.
-/

namespace Soms.Somsai

open Txn World

/-- The arguments of a call and the room that its key names. -/
structure DodgeCall where
  now : Time
  key : Int
  userId : UserId
  room : Option Bool
  allowMissingRoom : Bool
  deriving DecidableEq, Repr

def DodgeCall.body (c : DodgeCall) : Act DodgeStatus :=
  registerDodge c.now c.key c.userId c.room c.allowMissingRoom

/-- The store after the calls, each of them a transaction. -/
def afterDodges (w : World) (calls : List DodgeCall) : World :=
  calls.foldl (fun v c => commit c.body v) w

/-- The user's penalty that was stored last. -/
def World.lastPenalty (w : World) (uid : UserId) : Option DodgePenalty :=
  (w.penalties.filter fun p => p.userId = uid).getLast?

/-- Less than 48 hours have passed since the end of the penalty, or it has none. -/
def DodgePenalty.Within (p : DodgePenalty) (now : Time) : Prop :=
  ∀ e ∈ p.expiresAt, now < e + seconds (48 * 3600)

/-! ## One penalty -/

/-- The second of a time. -/
def wholeSecond (now : Time) : Time := now / 1000000 * 1000000

theorem dvd_wholeSecond (now : Time) : 1000000 ∣ wholeSecond now := Int.dvd_mul_left _ _

theorem wholeSecond_le (now : Time) : wholeSecond now ≤ now :=
  Int.ediv_mul_le now (by decide)

theorem le_wholeSecond {t now : Time} (ht : 1000000 ∣ t) : t ≤ wholeSecond now ↔ t ≤ now := by
  obtain ⟨k, rfl⟩ := ht
  unfold wholeSecond
  rw [Int.mul_comm]
  constructor
  · intro h
    exact h.trans (wholeSecond_le now)
  · intro h
    exact Int.mul_le_mul_of_nonneg_right ((Int.le_ediv_iff_mul_le (by decide)).mpr h) (by decide)

theorem wholeSecond_lt {t now : Time} (ht : 1000000 ∣ t) : wholeSecond now < t ↔ now < t := by
  rw [← not_le, ← not_le, le_wholeSecond ht]

/-- The end of a temporary penalty comes after its start. -/
theorem penaltyEnd_spec {now : Time} (hnow : 1000000 ∣ now) {level : Nat} (hpos : 1 ≤ level)
    (hle : level ≤ 13) : ∃ e, penaltyEnd now level = some e ∧ now < e ∧ 1000000 ∣ e := by
  have hminutes : ∀ n : Int, 0 < n → now < now + seconds (n * 60) ∧
      1000000 ∣ now + seconds (n * 60) := fun n hn =>
    ⟨Int.lt_add_of_pos_right now (by unfold seconds; omega),
      Int.dvd_add hnow (Int.dvd_mul_left _ _)⟩
  have hmonths : ∀ n : Nat, 2 ≤ n → now < addMonths now n ∧ 1000000 ∣ addMonths now n := fun n hn =>
    ⟨lt_addMonths now hn, addMonths_seconds hnow n⟩
  have hlevels : level ≤ 10 ∨ level = 11 ∨ level = 12 ∨ level = 13 := by omega
  rcases hlevels with hlow | rfl | rfl | rfl
  · obtain ⟨i, rfl⟩ : ∃ i, level = i + 1 := ⟨level - 1, by omega⟩
    have hi : i < penaltyMinutes.length := by
      show i < 10
      omega
    have hpenalty : penaltyEnd now (i + 1) = some (now + seconds (penaltyMinutes[i] * 60)) := by
      unfold penaltyEnd
      split <;> first | omega | simp [hi]
    have hsome : 0 < penaltyMinutes[i] := by
      have hall : ∀ n ∈ penaltyMinutes, 0 < n := by decide
      exact hall _ (List.getElem_mem hi)
    exact ⟨_, hpenalty, hminutes _ hsome⟩
  · exact ⟨_, rfl, hmonths 3 (by decide)⟩
  · exact ⟨_, rfl, hmonths 6 (by decide)⟩
  · exact ⟨_, rfl, hmonths 12 (by decide)⟩

/-- A stored penalty. -/
structure DodgePenalty.Proper (p : DodgePenalty) : Prop where
  level_pos : 1 ≤ p.level
  level_le : p.level ≤ 14
  created : 1000000 ∣ p.createdAt
  temporary : p.level ≤ 13 → ∃ e, p.expiresAt = some e ∧ p.createdAt < e ∧ 1000000 ∣ e
  permanent : p.level = 14 → p.expiresAt = none
  banned : p.accountBanned = decide (p.level = 14)

namespace DodgePenalty.Proper

variable {p : DodgePenalty} {now : Time}

theorem expires (h : p.Proper) {e : Time} (he : p.expiresAt = some e) : 1000000 ∣ e := by
  have hle : p.level ≤ 13 := by
    by_contra hmore
    have hlevel : p.level = 14 := by
      have := h.level_le
      omega
    rw [h.permanent hlevel] at he
    simp at he
  obtain ⟨e', he', -, hdvd⟩ := h.temporary hle
  rw [he'] at he
  exact Option.some.inj he ▸ hdvd

theorem within_wholeSecond (h : p.Proper) : p.Within (wholeSecond now) ↔ p.Within now := by
  refine forall₂_congr fun e he => wholeSecond_lt ?_
  exact Int.dvd_add (h.expires he) (Int.dvd_mul_left _ _)

/-- A penalty of the same second is not over. -/
theorem within_created (h : p.Proper) : p.Within p.createdAt := by
  intro e he
  have hlevel : p.level ≤ 13 := by
    by_contra hmore
    rw [h.permanent (by have := h.level_le; omega)] at he
    simp at he
  obtain ⟨e', he', hlt, -⟩ := h.temporary hlevel
  rw [he'] at he
  obtain rfl := Option.some.inj he
  exact hlt.trans (Int.lt_add_of_pos_right _ (by decide))

end DodgePenalty.Proper

/-! ## A new penalty -/

section New

variable {w : World} {now : Time} {uid x : UserId} {key : Int} {p : DodgePenalty}

theorem nextLevel_none (h : w.latestPenalty uid = none) : w.nextLevel now uid = 1 := by
  unfold nextLevel
  rw [h]

theorem nextLevel_within (h : w.latestPenalty uid = some p) (hwithin : p.Within now) :
    w.nextLevel now uid = min 14 (p.level + 1) := by
  unfold nextLevel
  rw [h]
  dsimp only
  split
  · rfl
  · next e he => exact if_pos (hwithin e he)

theorem nextLevel_over (h : w.latestPenalty uid = some p) (hover : ¬ p.Within now) :
    w.nextLevel now uid = 1 := by
  unfold nextLevel
  rw [h]
  dsimp only
  split
  · next hnone =>
    refine absurd (fun e he => ?_) hover
    rw [hnone] at he
    simp at he
  · next e he =>
    refine if_neg fun hlt => hover fun e' he' => ?_
    rw [he] at he'
    obtain rfl := Option.some.inj he'
    exact hlt

theorem nextLevel_bounds (w : World) (now : Time) (uid : UserId) :
    1 ≤ w.nextLevel now uid ∧ w.nextLevel now uid ≤ 14 := by
  cases h : w.latestPenalty uid with
  | none => simp [nextLevel_none h]
  | some p =>
    by_cases hwithin : p.Within now
    · rw [nextLevel_within h hwithin]
      omega
    · simp [nextLevel_over h hwithin]

theorem newPenalty_proper (hnow : 1000000 ∣ now) : (w.newPenalty now key uid).Proper where
  level_pos := (nextLevel_bounds w now uid).1
  level_le := (nextLevel_bounds w now uid).2
  created := hnow
  temporary := penaltyEnd_spec hnow (nextLevel_bounds w now uid).1
  permanent h := by
    show penaltyEnd now (w.nextLevel now uid) = none
    rw [show w.nextLevel now uid = 14 from h]
    rfl
  banned := rfl

theorem mem_of_latestPenalty (h : w.latestPenalty uid = some p) :
    p ∈ w.penalties ∧ p.userId = uid := by
  have hmem := (foldl_keeps_or_takes (fun best q => ?_) h).resolve_left (by simp)
  · simpa using List.mem_filter.mp hmem
  · cases best with
    | none => exact .inr rfl
    | some b =>
      dsimp only
      split
      · exact .inr rfl
      · exact .inl rfl

theorem latestPenalty_addPenalty (w : World) (now : Time) (key : Int) (uid x : UserId) :
    (w.addPenalty now key uid).latestPenalty x =
      if x = uid then
        some (match w.latestPenalty uid with
          | none => w.newPenalty now key uid
          | some b => if (w.newPenalty now key uid).later b then w.newPenalty now key uid else b)
      else w.latestPenalty x := by
  have hfilter : ((w.addPenalty now key uid).penalties.filter fun p => p.userId = x) =
      (w.penalties.filter fun p => p.userId = x) ++
        if x = uid then [w.newPenalty now key uid] else [] := by
    show (w.penalties ++ [w.newPenalty now key uid]).filter _ = _
    rw [List.filter_append, List.filter_singleton]
    have howner : (w.newPenalty now key uid).userId = uid := rfl
    by_cases hx : x = uid
    · simp [howner, hx]
    · simp [howner, hx, Ne.symm hx]
  unfold latestPenalty
  rw [hfilter, List.foldl_append]
  by_cases hx : x = uid
  · subst hx
    rw [if_pos rfl, if_pos rfl, List.foldl_cons, List.foldl_nil]
    generalize List.foldl _ none _ = best
    cases best with
    | none => rfl
    | some b =>
      dsimp only
      split <;> rfl
  · rw [if_neg hx, if_neg hx, List.foldl_nil]

/-- The account of the penalty, and no other, is deactivated at level 14. -/
theorem users_addPenalty {u : UserId} {user : User} (hrow : w.users.row u = some user)
    (now : Time) (key : Int) (uid : UserId) :
    ∃ user', (w.addPenalty now key uid).users.row u = some user' ∧
      (user'.isActive = true ↔ user.isActive = true ∧
        ((w.newPenalty now key uid).userId = u → (w.newPenalty now key uid).level ≠ 14)) := by
  have hbanned : (w.newPenalty now key uid).accountBanned = decide (w.nextLevel now uid = 14) := rfl
  have howner : (w.newPenalty now key uid).userId = uid := rfl
  have hlevel : (w.newPenalty now key uid).level = w.nextLevel now uid := rfl
  simp only [addPenalty, hbanned, howner, hlevel, decide_eq_true_eq]
  by_cases h14 : w.nextLevel now uid = 14
  · rw [if_pos h14]
    by_cases hu : u = uid
    · subst hu
      exact ⟨_, by rw [Table.row_modify, if_pos rfl, hrow]; rfl, by simp [h14]⟩
    · exact ⟨user, by rw [Table.row_modify, if_neg hu, hrow], by simp [Ne.symm hu]⟩
  · rw [if_neg h14]
    exact ⟨user, hrow, by simp [h14]⟩

theorem lastPenalty_addPenalty (w : World) (now : Time) (key : Int) (uid x : UserId) :
    (w.addPenalty now key uid).lastPenalty x =
      if x = uid then some (w.newPenalty now key uid) else w.lastPenalty x := by
  show ((w.penalties ++ [w.newPenalty now key uid]).filter _).getLast? = _
  have howner : (w.newPenalty now key uid).userId = uid := rfl
  rw [List.filter_append, List.filter_singleton]
  by_cases hx : x = uid
  · simp [howner, hx]
  · simp [howner, hx, Ne.symm hx, lastPenalty]

end New

/-! ## One call -/

/-- What a call does. -/
theorem DodgeCall.body_cases (c : DodgeCall) (v : World) :
    (∃ p, v.penaltyAt c.key = some p ∧ c.body v = (.ok (statusFor p), v)) ∨
      v.penaltyAt c.key = none ∧ ((∃ e, c.body v = (.error e, v)) ∨
        c.body v = (.ok (statusFor (v.newPenalty (wholeSecond c.now) c.key c.userId)),
          v.addPenalty (wholeSecond c.now) c.key c.userId)) := by
  unfold body registerDodge
  rw [bind_read]
  cases hkey : v.penaltyAt c.key with
  | some p => exact .inl ⟨p, rfl, rfl⟩
  | none =>
    refine .inr ⟨rfl, ?_⟩
    dsimp only
    rcases hrun : newDodge c.now c.key c.userId c.room c.allowMissingRoom v with ⟨e | status, t⟩
    · left
      simp only [newDodge, bind_error, refuse_error, refuse_ok, read_error, write_error, pure_error,
        and_false, exists_false, or_false] at hrun
      rcases hrun with ⟨-, rfl⟩ | ⟨_, _, ⟨-, rfl⟩, -, rfl⟩ <;> exact ⟨e, rfl⟩
    · right
      obtain ⟨_, _, huser, hrun⟩ := bind_ok.mp hrun
      obtain ⟨-, rfl⟩ := refuse_ok.mp huser
      obtain ⟨_, _, hroom, hrun⟩ := bind_ok.mp hrun
      obtain ⟨-, rfl⟩ := refuse_ok.mp hroom
      obtain ⟨rfl, rfl⟩ := pure_ok.mp hrun
      rfl

/-- A penalty that is stored stays the one of its key. -/
theorem penaltyAt_addPenalty {v : World} {k : Int} {p : DodgePenalty}
    (h : v.penaltyAt k = some p) (now : Time) (key : Int) (uid : UserId) :
    (v.addPenalty now key uid).penaltyAt k = some p := by
  show (v.penalties ++ [v.newPenalty now key uid]).find? _ = _
  rw [List.find?_append, show v.penalties.find? _ = _ from h]
  rfl

theorem penaltyAt_afterDodges {v : World} {k : Int} {p : DodgePenalty}
    (h : v.penaltyAt k = some p) (calls : List DodgeCall) :
    (afterDodges v calls).penaltyAt k = some p := by
  induction calls generalizing v with
  | nil => exact h
  | cons c rest ih =>
    refine ih ?_
    dsimp only
    rcases c.body_cases v with ⟨q, -, hrun⟩ | ⟨-, ⟨e, hrun⟩ | hrun⟩
    · rwa [commit_eq hrun]
    · rwa [commit_error (congrArg Prod.fst hrun)]
    · rw [commit_eq hrun]
      exact penaltyAt_addPenalty h _ _ _

/-- A call that returns leaves a penalty under its key, with the status that it returned. -/
theorem DodgeCall.penaltyAt {c : DodgeCall} {v t : World} {status : DodgeStatus}
    (h : c.body v = (.ok status, t)) : ∃ p, t.penaltyAt c.key = some p ∧ statusFor p = status := by
  rcases c.body_cases v with ⟨p, hp, hrun⟩ | ⟨hnone, ⟨e, hrun⟩ | hrun⟩ <;> rw [hrun] at h
  · obtain ⟨hstatus, rfl⟩ := Prod.mk.inj h
    exact ⟨p, hp, Except.ok.inj hstatus⟩
  · simp at h
  · obtain ⟨hstatus, rfl⟩ := Prod.mk.inj h
    refine ⟨_, ?_, Except.ok.inj hstatus⟩
    show (v.penalties ++ [_]).find? _ = _
    rw [List.find?_append, show v.penalties.find? _ = _ from hnone]
    simp [newPenalty]

/-! ## The calls -/

/-- The penalties after calls until `now`, and the accounts that they leave active. -/
structure Ledger (w v : World) (now : Time) : Prop where
  proper : ∀ p ∈ v.penalties, p.Proper ∧ p.createdAt ≤ now
  latest : ∀ uid, (v.latestPenalty uid).map (fun p => (p.level, p.expiresAt)) =
    (v.lastPenalty uid).map fun p => (p.level, p.expiresAt)
  users : ∀ u user, w.users.row u = some user → ∃ user', v.users.row u = some user' ∧
    (user'.isActive = true ↔
      user.isActive = true ∧ ∀ p ∈ v.penalties, p.userId = u → p.level ≠ 14)

section Ledger

variable {w v : World} {now now' : Time}

theorem ledger_empty (h : w.penalties = []) (now : Time) : Ledger w w now where
  proper := by simp [h]
  latest uid := by simp [latestPenalty, lastPenalty, h]
  users u user hrow := ⟨user, hrow, by simp [h]⟩

theorem Ledger.mono (h : Ledger w v now) (hle : now ≤ now') : Ledger w v now' where
  proper p hp := ⟨(h.proper p hp).1, (h.proper p hp).2.trans hle⟩
  latest := h.latest
  users := h.users

/-- The last penalty counts, whichever one the order finds. -/
theorem Ledger.latest_eq (h : Ledger w v now) {uid : UserId} {p : DodgePenalty}
    (hlast : v.lastPenalty uid = some p) : ∃ b, v.latestPenalty uid = some b ∧ b.Proper ∧
      b.createdAt ≤ now ∧ b.level = p.level ∧ b.expiresAt = p.expiresAt := by
  have heq := h.latest uid
  rw [hlast] at heq
  obtain ⟨b, hb, heq⟩ := Option.map_eq_some_iff.mp heq
  obtain ⟨hproper, hcreated⟩ := h.proper b (mem_of_latestPenalty hb).1
  exact ⟨b, hb, hproper, hcreated, congrArg Prod.fst heq, congrArg Prod.snd heq⟩

/-- A new penalty is the one that the order finds, or as good as it. -/
theorem Ledger.latest_new (h : Ledger w v now) (hle : now ≤ now') (key : Int) (uid : UserId)
    {b : DodgePenalty} (hb : v.latestPenalty uid = some b)
    (hnot : (v.newPenalty (wholeSecond now') key uid).later b = false) :
    b.level = (v.newPenalty (wholeSecond now') key uid).level ∧
      b.expiresAt = (v.newPenalty (wholeSecond now') key uid).expiresAt := by
  obtain ⟨hproper, hcreated⟩ := h.proper b (mem_of_latestPenalty hb).1
  have hnew : (v.newPenalty (wholeSecond now') key uid).Proper :=
    newPenalty_proper (dvd_wholeSecond now')
  have hbefore : b.createdAt ≤ wholeSecond now' :=
    (le_wholeSecond hproper.created).mpr (hcreated.trans hle)
  simp only [DodgePenalty.later, Bool.or_eq_false_iff, decide_eq_false_iff_not, not_lt,
    Bool.and_eq_false_iff] at hnot
  have hsame : b.createdAt = wholeSecond now' := le_antisymm hbefore hnot.1
  have hwithin : b.Within (wholeSecond now') := hsame ▸ hproper.within_created
  have hlevel : (v.newPenalty (wholeSecond now') key uid).level = min 14 (b.level + 1) :=
    nextLevel_within hb hwithin
  have hmore : (v.newPenalty (wholeSecond now') key uid).level ≤ b.level :=
    (hnot.2.resolve_left fun hne => hne hsame.symm).1
  have hbound := hproper.level_le
  have hb14 : b.level = 14 := by omega
  have hnew14 : (v.newPenalty (wholeSecond now') key uid).level = 14 := by omega
  exact ⟨hb14.trans hnew14.symm, (hproper.permanent hb14).trans (hnew.permanent hnew14).symm⟩

theorem Ledger.add (h : Ledger w v now) (hle : now ≤ now') (key : Int) (uid : UserId) :
    Ledger w (v.addPenalty (wholeSecond now') key uid) now' where
  proper p hp := by
    rcases List.mem_append.mp hp with hp | hp
    · exact ⟨(h.proper p hp).1, (h.proper p hp).2.trans hle⟩
    · obtain rfl := List.mem_singleton.mp hp
      exact ⟨newPenalty_proper (dvd_wholeSecond now'), wholeSecond_le now'⟩
  latest x := by
    rw [latestPenalty_addPenalty, lastPenalty_addPenalty]
    by_cases hx : x = uid
    · rw [if_pos hx, if_pos hx, Option.map_some, Option.map_some]
      cases hb : v.latestPenalty uid with
      | none => rfl
      | some b =>
        dsimp only
        split
        · rfl
        · next hnot =>
          obtain ⟨hlevel, hexpires⟩ := h.latest_new hle key uid hb (by simpa using hnot)
          rw [hlevel, hexpires]
    · rw [if_neg hx, if_neg hx]
      exact h.latest x
  users u user hrow := by
    obtain ⟨user', hrow', hactive⟩ := h.users u user hrow
    have hpenalties : ∀ q, q ∈ (v.addPenalty (wholeSecond now') key uid).penalties ↔
        q ∈ v.penalties ∨ q = v.newPenalty (wholeSecond now') key uid := fun q => by
      show q ∈ v.penalties ++ [_] ↔ _
      rw [List.mem_append, List.mem_singleton]
    obtain ⟨user'', hrow'', hactive'⟩ := users_addPenalty hrow' (wholeSecond now') key uid
    refine ⟨user'', hrow'', ?_⟩
    rw [hactive', hactive]
    simp only [hpenalties, or_imp, forall_and, forall_eq, and_assoc]

theorem Ledger.commit (h : Ledger w v now) (c : DodgeCall) (hle : now ≤ c.now) :
    Ledger w (Txn.commit c.body v) c.now := by
  rcases c.body_cases v with ⟨p, -, hrun⟩ | ⟨-, ⟨e, hrun⟩ | hrun⟩
  · rw [commit_eq hrun]
    exact h.mono hle
  · rw [commit_error (congrArg Prod.fst hrun)]
    exact h.mono hle
  · rw [commit_eq hrun]
    exact h.add hle c.key c.userId

/-- Calls in the order of their times keep the ledger. -/
theorem ledger_afterDodges (hempty : w.penalties = []) {calls : List DodgeCall}
    (htimes : calls.Pairwise fun a b => a.now ≤ b.now) (hnow : ∀ c ∈ calls, c.now ≤ now) :
    Ledger w (afterDodges w calls) now := by
  induction calls using List.reverseRecOn generalizing now with
  | nil => exact ledger_empty hempty now
  | append_singleton calls c ih =>
    rw [List.pairwise_append] at htimes
    have hbefore : ∀ b ∈ calls, b.now ≤ c.now := fun b hb =>
      htimes.2.2 b hb c (List.mem_singleton_self c)
    have hlast := (ih htimes.1 hbefore).commit c le_rfl
    rw [afterDodges, List.foldl_append]
    exact hlast.mono (hnow c (by simp))

end Ledger

/-! ## Escalation -/

/-- What a call with a new key does. -/
structure Escalates (v t : World) (c : DodgeCall) (status : DodgeStatus) : Prop where
  stored : ∃ p, t.penalties = v.penalties ++ [p] ∧ p.roomId = c.key ∧ p.userId = c.userId ∧
    p.createdAt = wholeSecond c.now ∧ statusFor p = status
  first : v.lastPenalty c.userId = none → status.level = 1
  raised : ∀ p, v.lastPenalty c.userId = some p →
    (status.level = min 14 (p.level + 1) ↔ p.Within c.now) ∧ (¬ p.Within c.now → status.level = 1)
  level : 1 ≤ status.level ∧ status.level ≤ 14
  temporary : status.level ≤ 13 → ∃ e, status.expiresAt = some e ∧ c.now < e
  banned : status.accountBanned = true ↔ status.level = 14
  account : ∀ u user, v.users.row u = some user → ∃ user', t.users.row u = some user' ∧
    (user'.isActive = true ↔ user.isActive = true ∧ (c.userId = u → status.level ≠ 14))

theorem Ledger.escalates {w v : World} {now : Time} (h : Ledger w v now) (c : DodgeCall) :
    Escalates v (v.addPenalty (wholeSecond c.now) c.key c.userId) c
      (statusFor (v.newPenalty (wholeSecond c.now) c.key c.userId)) where
  stored := ⟨_, rfl, rfl, rfl, rfl, rfl⟩
  first hnone := by
    refine nextLevel_none ?_
    have hlatest := h.latest c.userId
    rw [hnone] at hlatest
    simpa using hlatest
  raised p hlast := by
    obtain ⟨b, hb, hproper, -, hlevel, hexpires⟩ := h.latest_eq hlast
    have hwithin : b.Within (wholeSecond c.now) ↔ p.Within c.now := by
      rw [hproper.within_wholeSecond]
      unfold DodgePenalty.Within
      rw [hexpires]
    have hpos := hproper.level_pos
    have hnext : ∀ n, (statusFor (v.newPenalty (wholeSecond c.now) c.key c.userId)).level = n ↔
        v.nextLevel (wholeSecond c.now) c.userId = n := fun n => Iff.rfl
    rw [← hwithin, ← hlevel, hnext, hnext]
    by_cases hin : b.Within (wholeSecond c.now)
    · rw [nextLevel_within hb hin]
      exact ⟨iff_of_true rfl hin, fun hnot => absurd hin hnot⟩
    · rw [nextLevel_over hb hin]
      exact ⟨iff_of_false (by omega) hin, fun _ => rfl⟩
  level := nextLevel_bounds v (wholeSecond c.now) c.userId
  temporary hlow := by
    obtain ⟨e, he, hlt, hdvd⟩ := penaltyEnd_spec (dvd_wholeSecond c.now)
      (nextLevel_bounds v (wholeSecond c.now) c.userId).1 hlow
    exact ⟨e, he, (wholeSecond_lt hdvd).mp hlt⟩
  banned := decide_eq_true_iff
  account u user hrow := users_addPenalty hrow (wholeSecond c.now) c.key c.userId

/-- **Dodges escalate.**  After any calls in the order of their times, a call with a key that was
registered returns the status of the penalty it got then and changes nothing; one with a new key
goes up a level or starts again; and the accounts that are deactivated are those of the users who
got to level 14. -/
theorem registerDodge_escalates (w : World) (hempty : w.penalties = []) (calls : List DodgeCall)
    (c : DodgeCall) (htimes : (calls ++ [c]).Pairwise fun a b => a.now ≤ b.now) :
    (∀ before original after status t, calls = before ++ original :: after →
      original.key = c.key → original.body (afterDodges w before) = (.ok status, t) →
        c.body (afterDodges w calls) = (.ok status, afterDodges w calls)) ∧
    ((afterDodges w calls).penaltyAt c.key = none → ∀ status t,
      c.body (afterDodges w calls) = (.ok status, t) →
        Escalates (afterDodges w calls) t c status) ∧
    (∀ e t, c.body (afterDodges w calls) = (.error e, t) → t = afterDodges w calls) ∧
    ∀ u user, w.users.row u = some user →
      ∃ user', (afterDodges w calls).users.row u = some user' ∧ (user'.isActive = true ↔
        user.isActive = true ∧
          ∀ p ∈ (afterDodges w calls).penalties, p.userId = u → p.level ≠ 14) := by
  have hbefore : ∀ b ∈ calls, b.now ≤ c.now := fun b hb =>
    (List.pairwise_append.mp htimes).2.2 b hb c (List.mem_singleton_self c)
  have hledger := ledger_afterDodges hempty (List.pairwise_append.mp htimes).1 hbefore
  refine ⟨?_, fun hnew status t hrun => ?_, fun e t hrun => ?_, hledger.users⟩
  · rintro before original after status t rfl hkey hrun
    obtain ⟨p, hp, rfl⟩ := original.penaltyAt hrun
    have hstored : (afterDodges w (before ++ original :: after)).penaltyAt c.key = some p := by
      rw [afterDodges, List.foldl_append, List.foldl_cons]
      refine penaltyAt_afterDodges ?_ after
      rw [← hkey, show List.foldl _ w before = afterDodges w before from rfl, commit_eq hrun]
      exact hp
    rcases c.body_cases (afterDodges w (before ++ original :: after)) with
      ⟨q, hq, hresult⟩ | ⟨hnone, -⟩
    · rw [hstored] at hq
      rw [hresult, Option.some.inj hq]
    · rw [hstored] at hnone
      simp at hnone
  · rcases c.body_cases (afterDodges w calls) with ⟨q, hq, -⟩ | ⟨-, ⟨e, hresult⟩ | hresult⟩
    · rw [hnew] at hq
      simp at hq
    · rw [hresult] at hrun
      simp at hrun
    · rw [hresult] at hrun
      obtain ⟨hstatus, rfl⟩ := Prod.mk.inj hrun
      rw [← Except.ok.inj hstatus]
      exact hledger.escalates c
  · rcases c.body_cases (afterDodges w calls) with ⟨q, -, hresult⟩ | ⟨-, ⟨e', hresult⟩ | hresult⟩
    · rw [hresult] at hrun
      simp at hrun
    · rw [hresult] at hrun
      exact (Prod.mk.inj hrun).2.symm
    · rw [hresult] at hrun
      simp at hrun

/-- One player. -/
def onePlayer : World := World.fresh (players 1) (.sample (.division .bronze 0) 550)

/-- A missed ready check, and another one ten minutes later. -/
def missedTwice : DodgeCall × DodgeCall :=
  (⟨0, -101, 1, none, true⟩, ⟨seconds 600, -201, 1, none, true⟩)

theorem registerDodge_escalates_twice : ∃ t,
    missedTwice.2.body (afterDodges onePlayer [missedTwice.1]) =
      (.ok { userId := 1, level := 2, expiresAt := some (seconds 1500) }, t) ∧
    Escalates (afterDodges onePlayer [missedTwice.1]) t missedTwice.2
      { userId := 1, level := 2, expiresAt := some (seconds 1500) } := by
  have hrun : (missedTwice.2.body (afterDodges onePlayer [missedTwice.1])).1 =
      .ok { userId := 1, level := 2, expiresAt := some (seconds 1500) } := by decide +kernel
  refine ⟨_, Prod.ext hrun rfl, ?_⟩
  exact (registerDodge_escalates onePlayer rfl [missedTwice.1] missedTwice.2 (by decide)).2.1
    (by decide +kernel) _ _ (Prod.ext hrun rfl)

end Soms.Somsai

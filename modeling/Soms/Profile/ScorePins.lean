import Mathlib.Data.List.Sort
import Mathlib.Data.Prod.Lex
import Soms.Library.Run
import Soms.Library.Table
import Soms.Library.Txn
import Soms.Scores.Data

/-!
# Score pins

`service/score_pin_service.py` and the requests of `router/v2/score.py`.  A request numbers the
pins of the user in the mode of the score from 1 on before it looks at them, and a request that is
refused writes nothing.
-/

namespace Soms.Profile

open Txn
open Soms.Scores (GameMode)

abbrev UserId := Nat
abbrev ScoreId := Nat

structure Score where
  userId : UserId
  gamemode : GameMode
  passed : Bool
  /-- Zero for a score that is not pinned.  A constraint of the table keeps it from being less. -/
  pinnedOrder : Nat := 0
  deriving DecidableEq, Repr

structure State where
  users : List UserId
  scores : Table Score

/-- A `RequestError` with the text of its details. -/
inductive Failure where
  | scoreNotFound (error : Option String)
  | scoreNotPinned
  | invalidRequest (error : String)
  deriving DecidableEq, Repr

/-- The pins of a user in a mode as pairs of order and id, in the order of the query. -/
def pinned (scores : Table Score) (uid : UserId) (mode : GameMode) : List (Lex (Nat × ScoreId)) :=
  (scores.toList.filterMap fun x =>
    if x.2.userId = uid ∧ x.2.gamemode = mode ∧ 0 < x.2.pinnedOrder then
      some (toLex (x.2.pinnedOrder, x.1))
    else none).insertionSort (· ≤ ·)

def pinnedIds (scores : Table Score) (uid : UserId) (mode : GameMode) : List ScoreId :=
  (pinned scores uid mode).map fun x => (ofLex x).2

def pinnedOrders (scores : Table Score) (uid : UserId) (mode : GameMode) : List Nat :=
  (pinned scores uid mode).map fun x => (ofLex x).1

/-- Store the orders of some scores, one after another. -/
def assign (orders : List (ScoreId × Nat)) (scores : Table Score) : Table Score :=
  orders.foldl (fun t x => t.modify x.1 fun score => { score with pinnedOrder := x.2 }) scores

def State.assign (orders : List (ScoreId × Nat)) (s : State) : State :=
  { s with scores := Profile.assign orders s.scores }

/-- The order of a stored score. -/
def orderOf (scores : Table Score) (k : ScoreId) : Nat := (scores.row k).elim 0 (·.pinnedOrder)

structure LockedScorePinState where
  score : Option Score
  pinnedScores : List ScoreId
  orderNormalised : Bool

/-- `lock_score_pin_state` -/
def lockScorePinState (uid : UserId) (sid : ScoreId) : Txn State Failure LockedScorePinState := do
  let owned ← read fun s =>
    if uid ∈ s.users then (s.scores.row sid).filter fun score => decide (score.userId = uid)
    else none
  match owned with
  | none => pure { score := none, pinnedScores := [], orderNormalised := false }
  | some score => do
    let pins ← read fun s => pinnedIds s.scores uid score.gamemode
    let orders ← read fun s => pinnedOrders s.scores uid score.gamemode
    write (State.assign (pins.zipIdx 1))
    let score ← read fun s => s.scores.row sid
    pure { score := score, pinnedScores := pins,
           orderNormalised := decide (orders ≠ List.range' 1 pins.length) }

/-- The failures of `reordered_score_pin_ids`. -/
inductive ReorderError where
  | notPinned
  | referenceNotPinned
  | itself
  deriving DecidableEq, Repr

/-- The text of a failure. -/
def ReorderError.text : ReorderError → String
  | .notPinned => "Score is not pinned"
  | .referenceNotPinned => "Reference score is not pinned"
  | .itself => "A score cannot be reordered relative to itself"

/-- `reordered_score_pin_ids` -/
def reorderedScorePinIds (orderedIds : List ScoreId) (sid : ScoreId)
    (beforeScoreId afterScoreId : Option ScoreId) : Except ReorderError (List ScoreId) :=
  if sid ∉ orderedIds then .error .notPinned
  else
    match beforeScoreId.or afterScoreId with
    | none => .error .referenceNotPinned
    | some reference =>
      if reference ∉ orderedIds then .error .referenceNotPinned
      else if reference = sid then .error .itself
      else
        let reordered := orderedIds.filter fun item => decide (item ≠ sid)
        let index := reordered.idxOf reference
        .ok (reordered.insertIdx (if beforeScoreId.isSome then index else index + 1) sid)

/-! ## The requests -/

/-- `pin_score` -/
def pinScore (uid : UserId) (sid : ScoreId) : Txn State Failure Unit := do
  let state ← lockScorePinState uid sid
  let score ← require (fun _ => state.score) (.scoreNotFound none)
  if score.passed = false then raise (.scoreNotFound none)
  else if 0 < score.pinnedOrder then pure ()
  else write (State.assign [(sid, state.pinnedScores.length + 1)])

/-- The order that `unpin_score` gives to a pinned score. -/
def unpinnedOrder (sid : ScoreId) (removedOrder : Nat) (scores : Table Score) (k : ScoreId) : Nat :=
  if k = sid then 0
  else if removedOrder < orderOf scores k then orderOf scores k - 1
  else orderOf scores k

/-- `unpin_score` -/
def unpinScore (uid : UserId) (sid : ScoreId) : Txn State Failure Unit := do
  let state ← lockScorePinState uid sid
  let score ← require (fun _ => state.score) (.scoreNotFound none)
  if score.pinnedOrder = 0 then pure ()
  else do
    write fun s => s.assign (state.pinnedScores.map fun k =>
      (k, unpinnedOrder sid score.pinnedOrder s.scores k))
    write (State.assign [(sid, 0)])

/-- `reorder_score_pin` -/
def reorderScorePin (uid : UserId) (sid : ScoreId) (afterScoreId beforeScoreId : Option ScoreId) :
    Txn State Failure Unit := do
  refuse (fun _ => afterScoreId.isNone = beforeScoreId.isNone)
    (.invalidRequest "Either after_score_id or before_score_id must be provided (but not both)")
  let state ← lockScorePinState uid sid
  let score ← require (fun _ => state.score) (.scoreNotFound none)
  if score.pinnedOrder = 0 then raise .scoreNotPinned
  else
    match reorderedScorePinIds state.pinnedScores sid beforeScoreId afterScoreId with
    | .error .referenceNotPinned =>
      raise (.scoreNotFound (some
        (if afterScoreId.any (· ≠ 0) then "After score not found" else "Before score not found")))
    | .error e => raise (.invalidRequest e.text)
    | .ok ids =>
      -- Otherwise the orders are already these.
      if state.orderNormalised = true ∨ ids ≠ state.pinnedScores then
        write (State.assign (ids.zipIdx 1))
      else pure ()

inductive Request where
  | pin (uid : UserId) (sid : ScoreId)
  | unpin (uid : UserId) (sid : ScoreId)
  | reorder (uid : UserId) (sid : ScoreId) (afterScoreId beforeScoreId : Option ScoreId)
  deriving DecidableEq, Repr

def serve : Request → Txn State Failure Unit
  | .pin uid sid => pinScore uid sid
  | .unpin uid sid => unpinScore uid sid
  | .reorder uid sid afterScoreId beforeScoreId => reorderScorePin uid sid afterScoreId beforeScoreId

/-- A request with whether it was served; one that was not leaves no trace. -/
inductive Step : State → Request × Bool → State → Prop
  | served {s t : State} {r : Request} : serve r s = (.ok (), t) → Step s (r, true) t
  | refused {s t : State} {r : Request} {e : Failure} : serve r s = (.error e, t) → Step s (r, false) s

/-! ## Stored orders -/

variable {t u : Table Score} {uid uid' : UserId} {mode mode' : GameMode} {ids : List ScoreId}
  {orders : List (ScoreId × Nat)} {k sid : ScoreId}

/-- What `assign` makes of an order. -/
def assigned (orders : List (ScoreId × Nat)) (k : ScoreId) (old : Nat) : Nat :=
  orders.foldl (fun order x => if k = x.1 then x.2 else order) old

theorem row_assign (orders : List (ScoreId × Nat)) (t : Table Score) (k : ScoreId) :
    (assign orders t).row k =
      (t.row k).map fun score =>
        { score with pinnedOrder := assigned orders k score.pinnedOrder } := by
  induction orders generalizing t with
  | nil => simp [assign, assigned]
  | cons x rest ih =>
    show (assign rest (t.modify x.1 _)).row k = _
    rw [ih, Table.row_modify]
    by_cases hk : k = x.1
    · rw [if_pos hk, Option.map_map]
      simp [assigned, hk, Function.comp_def]
    · rw [if_neg hk]
      simp [assigned, hk]

theorem assigned_of_not_mem (h : k ∉ orders.map Prod.fst) (old : Nat) :
    assigned orders k old = old := by
  induction orders generalizing old with
  | nil => rfl
  | cons x rest ih =>
    rw [List.map_cons, List.mem_cons, not_or] at h
    show assigned rest k (if k = x.1 then x.2 else old) = old
    rw [if_neg h.1, ih h.2]

theorem assigned_of_mem (hkeys : (orders.map Prod.fst).Nodup) {order : Nat}
    (h : (k, order) ∈ orders) (old : Nat) : assigned orders k old = order := by
  induction orders generalizing old with
  | nil => simp at h
  | cons x rest ih =>
    rw [List.map_cons, List.nodup_cons] at hkeys
    show assigned rest k (if k = x.1 then x.2 else old) = order
    rcases List.mem_cons.mp h with rfl | h
    · rw [if_pos rfl, assigned_of_not_mem hkeys.1]
    · exact ih hkeys.2 h _

/-! ## The query -/

/-- The score belongs to the user and the mode. -/
def Score.of (score : Score) (uid : UserId) (mode : GameMode) : Prop :=
  score.userId = uid ∧ score.gamemode = mode

theorem mem_pinned {order : Nat} : toLex (order, k) ∈ pinned t uid mode ↔
    ∃ score, t.row k = some score ∧ score.of uid mode ∧ 0 < score.pinnedOrder ∧
      score.pinnedOrder = order := by
  rw [pinned, List.mem_insertionSort, List.mem_filterMap]
  constructor
  · rintro ⟨⟨i, score⟩, hx, h⟩
    split at h
    · next hsel =>
      obtain ⟨rfl, rfl⟩ := Prod.mk.inj (Option.some.inj h)
      exact ⟨score, Table.mem_toList.mp hx, ⟨hsel.1, hsel.2.1⟩, hsel.2.2, rfl⟩
    · cases h
  · rintro ⟨score, hrow, hof, hpos, rfl⟩
    exact ⟨(k, score), Table.mem_toList.mpr hrow, if_pos ⟨hof.1, hof.2, hpos⟩⟩

theorem mem_pinnedIds : k ∈ pinnedIds t uid mode ↔
    ∃ score, t.row k = some score ∧ score.of uid mode ∧ 0 < score.pinnedOrder := by
  rw [pinnedIds, List.mem_map]
  constructor
  · rintro ⟨x, hx, rfl⟩
    obtain ⟨score, hrow, hof, hpos, -⟩ := mem_pinned.mp hx
    exact ⟨score, hrow, hof, hpos⟩
  · rintro ⟨score, hrow, hof, hpos⟩
    exact ⟨toLex (score.pinnedOrder, k), mem_pinned.mpr ⟨score, hrow, hof, hpos, rfl⟩, rfl⟩

theorem nodup_pinnedIds : (pinnedIds t uid mode).Nodup := by
  refine ((List.perm_insertionSort _ _).map fun x : Lex (Nat × ScoreId) =>
    (ofLex x).2).nodup_iff.mpr ?_
  rw [List.Nodup, List.pairwise_map, List.pairwise_filterMap]
  refine (List.pairwise_map.mp (Table.nodup_toList t)).imp fun {x y} hne a ha b hb => ?_
  split at ha
  · split at hb
    · obtain rfl := Option.some.inj ha
      obtain rfl := Option.some.inj hb
      exact hne
    · cases hb
  · cases ha

theorem sorted_pinned : (pinned t uid mode).Pairwise (· ≤ ·) := List.pairwise_insertionSort _ _

/-- A sorted list without duplicates and with the same members is the answer of the query. -/
theorem pinned_eq {l : List (Lex (Nat × ScoreId))} (hsorted : l.Pairwise (· ≤ ·)) (hnodup : l.Nodup)
    (hmem : ∀ order k, toLex (order, k) ∈ l ↔ toLex (order, k) ∈ pinned t uid mode) :
    pinned t uid mode = l := by
  have hp : (pinned t uid mode).Nodup := List.Nodup.of_map _ nodup_pinnedIds
  refine List.Perm.eq_of_pairwise' sorted_pinned hsorted ?_
  exact (List.perm_ext_iff_of_nodup hp hnodup).mpr fun x =>
    (hmem (ofLex x).1 (ofLex x).2).symm

/-- The pins of a user in a mode are the listed scores, numbered from 1 on. -/
structure Numbered (t : Table Score) (uid : UserId) (mode : GameMode) (ids : List ScoreId) :
    Prop where
  rows : ∀ i k, ids[i]? = some k →
    ∃ score, t.row k = some score ∧ score.of uid mode ∧ score.pinnedOrder = i + 1
  only : ∀ k score, t.row k = some score → score.of uid mode → k ∉ ids → score.pinnedOrder = 0

namespace Numbered

theorem order_eq (h : Numbered t uid mode ids) {i : Nat} (hi : ids[i]? = some k) :
    orderOf t k = i + 1 := by
  obtain ⟨score, hrow, -, horder⟩ := h.rows i k hi
  rw [orderOf, hrow, Option.elim_some, horder]

theorem nodup (h : Numbered t uid mode ids) : ids.Nodup := by
  refine List.nodup_iff_getElem?_ne_getElem?.mpr fun i j hij hj heq => ?_
  have hi : ids[i]? = some ids[j] := heq.trans (List.getElem?_eq_getElem hj)
  have := (h.order_eq hi).symm.trans (h.order_eq (List.getElem?_eq_getElem hj))
  omega

theorem mem_zipIdx {x : ScoreId × Nat} :
    x ∈ ids.zipIdx 1 ↔ ∃ i, ids[i]? = some x.1 ∧ x.2 = i + 1 := by
  rw [List.mem_zipIdx_iff_le_and_getElem?_sub]
  constructor
  · rintro ⟨hle, h⟩
    exact ⟨x.2 - 1, h, by omega⟩
  · rintro ⟨i, hi, hx⟩
    rw [hx]
    exact ⟨by omega, by simpa using hi⟩

theorem pinned_eq_map (h : Numbered t uid mode ids) :
    pinned t uid mode = (ids.zipIdx 1).map fun x => toLex (x.2, x.1) := by
  have horders : ((ids.zipIdx 1).map Prod.snd).Pairwise (· < ·) := by
    rw [List.zipIdx_map_snd]
    exact List.pairwise_lt_range'
  refine pinned_eq ?_ ?_ fun order k => ?_
  · refine List.pairwise_map.mpr ((List.pairwise_map.mp horders).imp fun {x y} hlt => ?_)
    exact Prod.Lex.toLex_le_toLex.mpr (.inl hlt)
  · refine List.pairwise_map.mpr ((List.pairwise_map.mp horders).imp fun {x y} hlt heq => ?_)
    exact absurd (congrArg (fun z => (ofLex z).1) heq) (Nat.ne_of_lt hlt)
  · rw [mem_pinned]
    constructor
    · intro hmem
      obtain ⟨x, hx, heq⟩ := List.mem_map.mp hmem
      obtain ⟨i, hi, hx⟩ := mem_zipIdx.mp hx
      obtain ⟨rfl, rfl⟩ := Prod.mk.inj (toLex.injective heq)
      obtain ⟨score, hrow, hof, horder⟩ := h.rows i _ hi
      exact ⟨score, hrow, hof, by omega, by omega⟩
    · rintro ⟨score, hrow, hof, hpos, rfl⟩
      have hk : k ∈ ids := by
        by_contra hnot
        have := h.only k score hrow hof hnot
        omega
      obtain ⟨i, hi⟩ := List.mem_iff_getElem?.mp hk
      obtain ⟨score', hrow', -, horder⟩ := h.rows i k hi
      obtain rfl := Option.some.inj (hrow.symm.trans hrow')
      exact List.mem_map.mpr ⟨(k, i + 1), mem_zipIdx.mpr ⟨i, hi, rfl⟩, by rw [horder]⟩

theorem pinnedIds_eq (h : Numbered t uid mode ids) : pinnedIds t uid mode = ids := by
  rw [pinnedIds, h.pinned_eq_map, List.map_map]
  exact List.zipIdx_map_fst 1 ids

theorem pinnedOrders_eq (h : Numbered t uid mode ids) :
    pinnedOrders t uid mode = List.range' 1 ids.length := by
  rw [pinnedOrders, h.pinned_eq_map, List.map_map]
  exact List.zipIdx_map_snd 1 ids

/-- The listed scores get their places and the others zero. -/
theorem assign (hids : ∀ i k, ids[i]? = some k → ∃ score, t.row k = some score ∧
      score.of uid mode ∧ assigned orders k score.pinnedOrder = i + 1)
    (hout : ∀ k score, t.row k = some score → score.of uid mode → k ∉ ids →
      assigned orders k score.pinnedOrder = 0) :
    Numbered (assign orders t) uid mode ids where
  rows i k hi := by
    obtain ⟨score, hrow, hof, horder⟩ := hids i k hi
    exact ⟨{ score with pinnedOrder := assigned orders k score.pinnedOrder },
      by rw [row_assign, hrow, Option.map_some], hof, horder⟩
  only k score hrow hof hk := by
    rw [row_assign] at hrow
    obtain ⟨old, hold, rfl⟩ := Option.map_eq_some_iff.mp hrow
    exact hout k old hold hof hk

end Numbered

/-! ## What the requests store -/

/-- The score is stored and belongs to the user and the mode. -/
def Within (t : Table Score) (uid : UserId) (mode : GameMode) (k : ScoreId) : Prop :=
  ∃ score, t.row k = some score ∧ score.of uid mode

theorem within_of_mem (h : k ∈ pinnedIds t uid mode) : Within t uid mode k := by
  obtain ⟨score, hrow, hof, -⟩ := mem_pinnedIds.mp h
  exact ⟨score, hrow, hof⟩

theorem within_assign : Within (assign orders t) uid mode k ↔ Within t uid mode k := by
  unfold Within
  rw [row_assign]
  cases t.row k with
  | none => simp
  | some score => simp [Score.of]

theorem Numbered.within (h : Numbered t uid mode ids) (hk : k ∈ ids) : Within t uid mode k := by
  obtain ⟨i, hi⟩ := List.mem_iff_getElem?.mp hk
  obtain ⟨score, hrow, hof, -⟩ := h.rows i k hi
  exact ⟨score, hrow, hof⟩

/-- The pins of the others do not change. -/
theorem pinned_assign_other (hwithin : ∀ k ∈ orders.map Prod.fst, Within t uid mode k)
    (hother : ¬ (uid' = uid ∧ mode' = mode)) :
    pinned (assign orders t) uid' mode' = pinned t uid' mode' := by
  have hsame : ∀ {k score}, t.row k = some score → score.of uid' mode' →
      assigned orders k score.pinnedOrder = score.pinnedOrder := by
    intro k score hrow hof
    refine assigned_of_not_mem (fun hk => ?_) _
    obtain ⟨score', hrow', hof'⟩ := hwithin k hk
    obtain rfl := Option.some.inj (hrow.symm.trans hrow')
    exact hother ⟨hof.1.symm.trans hof'.1, hof.2.symm.trans hof'.2⟩
  refine pinned_eq sorted_pinned (List.Nodup.of_map _ nodup_pinnedIds) fun order k => ?_
  rw [mem_pinned, mem_pinned, row_assign]
  constructor
  · rintro ⟨score, hrow, hof, hpos, horder⟩
    refine ⟨{ score with pinnedOrder := assigned orders k score.pinnedOrder },
      by rw [hrow, Option.map_some], hof, ?_⟩
    show 0 < assigned orders k score.pinnedOrder ∧ assigned orders k score.pinnedOrder = order
    rw [hsame hrow hof]
    exact ⟨hpos, horder⟩
  · rintro ⟨score', hrow', hof, hpos, horder⟩
    obtain ⟨score, hrow, rfl⟩ := Option.map_eq_some_iff.mp hrow'
    have heq : assigned orders k score.pinnedOrder = score.pinnedOrder := hsame hrow hof
    rw [heq] at hpos horder
    exact ⟨score, hrow, hof, hpos, horder⟩

/-- Numbering a list that has all pins of the user in the mode. -/
theorem numbered_zipIdx (hnodup : ids.Nodup) (hwithin : ∀ k ∈ ids, Within t uid mode k)
    (hall : ∀ k ∈ pinnedIds t uid mode, k ∈ ids) :
    Numbered (assign (ids.zipIdx 1) t) uid mode ids := by
  have hkeys : (ids.zipIdx 1).map Prod.fst = ids := List.zipIdx_map_fst 1 ids
  refine Numbered.assign (fun i k hi => ?_) fun k score hrow hof hk => ?_
  · obtain ⟨score, hrow, hof⟩ := hwithin k (List.mem_of_getElem? hi)
    refine ⟨score, hrow, hof, assigned_of_mem (hkeys.symm ▸ hnodup) ?_ _⟩
    exact Numbered.mem_zipIdx.mpr ⟨i, hi, rfl⟩
  · rw [assigned_of_not_mem (hkeys.symm ▸ hk)]
    by_contra hne
    exact hk (hall k (mem_pinnedIds.mpr ⟨score, hrow, hof, Nat.pos_of_ne_zero hne⟩))

/-- A score that is not pinned gets the next number. -/
theorem Numbered.pin (h : Numbered t uid mode ids) (hsid : sid ∉ ids)
    (hwithin : Within t uid mode sid) :
    Numbered (Profile.assign [(sid, ids.length + 1)] t) uid mode (ids ++ [sid]) := by
  have hassigned : ∀ k old, assigned [(sid, ids.length + 1)] k old =
      if k = sid then ids.length + 1 else old := fun _ _ => rfl
  refine Numbered.assign (fun i k hi => ?_) fun k score hrow hof hk => ?_
  · rw [List.getElem?_append] at hi
    split at hi
    · obtain ⟨score, hrow, hof, horder⟩ := h.rows i k hi
      have hne : k ≠ sid := fun heq => hsid (heq ▸ List.mem_of_getElem? hi)
      exact ⟨score, hrow, hof, by rw [hassigned, if_neg hne, horder]⟩
    · next hlen =>
      obtain ⟨hlt, hget⟩ := List.getElem?_eq_some_iff.mp hi
      have hzero : i - ids.length < 1 := hlt
      obtain rfl : sid = k := by simpa using hget
      obtain ⟨score, hrow, hof⟩ := hwithin
      refine ⟨score, hrow, hof, ?_⟩
      rw [hassigned, if_pos rfl]
      omega
  · rw [List.mem_append, List.mem_singleton, not_or] at hk
    rw [hassigned, if_neg hk.2, h.only k score hrow hof hk.1]

/-- The pins without one of them. -/
def rest (sid : ScoreId) (ids : List ScoreId) : List ScoreId :=
  ids.filter fun item => decide (item ≠ sid)

theorem rest_split {l₁ l₂ : List ScoreId} (h : (l₁ ++ sid :: l₂).Nodup) :
    rest sid (l₁ ++ sid :: l₂) = l₁ ++ l₂ := by
  have hnot : sid ∉ l₁ ++ l₂ := (List.nodup_middle.mp h).notMem
  rw [rest, List.filter_append, List.filter_cons_of_neg (by simp), ← List.filter_append,
    List.filter_eq_self]
  intro k hk
  rw [decide_eq_true_iff]
  exact fun heq => hnot (heq ▸ hk)

/-- The scores after the one that is taken out move up. -/
theorem Numbered.unpin (h : Numbered t uid mode ids) {p : Nat} (hp : ids[p]? = some sid) :
    Numbered (Profile.assign (ids.map fun k => (k, unpinnedOrder sid (p + 1) t k)) t) uid mode
      (rest sid ids) := by
  have hkeys : (ids.map fun k => (k, unpinnedOrder sid (p + 1) t k)).map Prod.fst = ids := by
    rw [List.map_map]
    exact List.map_id ids
  have hmem : ∀ {i k}, ids[i]? = some k → ∃ score, t.row k = some score ∧ score.of uid mode ∧
      assigned (ids.map fun k => (k, unpinnedOrder sid (p + 1) t k)) k score.pinnedOrder =
        if k = sid then 0 else if p < i then i else i + 1 := by
    intro i k hi
    obtain ⟨score, hrow, hof, -⟩ := h.rows i k hi
    refine ⟨score, hrow, hof, ?_⟩
    rw [assigned_of_mem (hkeys.symm ▸ h.nodup)
      (List.mem_map_of_mem (f := fun k => (k, unpinnedOrder sid (p + 1) t k))
        (List.mem_of_getElem? hi)), unpinnedOrder, h.order_eq hi]
    simp only [Nat.add_lt_add_iff_right, Nat.add_sub_cancel]
  obtain ⟨hlt, hget⟩ := List.getElem?_eq_some_iff.mp hp
  have hsplit : ids = ids.take p ++ sid :: ids.drop (p + 1) := by
    rw [← hget, List.cons_getElem_drop_succ, List.take_append_drop]
  have hrest : rest sid ids = ids.take p ++ ids.drop (p + 1) := by
    conv_lhs => rw [hsplit]
    exact rest_split (hsplit ▸ h.nodup)
  have hnot : ∀ {k}, k ∈ rest sid ids → k ≠ sid := fun hk =>
    of_decide_eq_true (List.mem_filter.mp hk).2
  refine Numbered.assign (fun i k hi => ?_) fun k score hrow hof hk => ?_
  · have hne := hnot (List.mem_of_getElem? hi)
    rw [hrest, List.getElem?_append, List.length_take_of_le hlt.le] at hi
    split at hi
    · next hip =>
      rw [List.getElem?_take_of_lt hip] at hi
      obtain ⟨score, hrow, hof, horder⟩ := hmem hi
      rw [if_neg hne, if_neg (Nat.not_lt_of_ge hip.le)] at horder
      exact ⟨score, hrow, hof, horder⟩
    · next hip =>
      rw [List.getElem?_drop] at hi
      obtain ⟨score, hrow, hof, horder⟩ := hmem hi
      rw [if_neg hne, if_pos (by omega)] at horder
      exact ⟨score, hrow, hof, by omega⟩
  · by_cases hids : k ∈ ids
    · have hsid : k = sid := by
        by_contra hne
        exact hk (List.mem_filter.mpr ⟨hids, decide_eq_true hne⟩)
      obtain ⟨i, hi⟩ := List.mem_iff_getElem?.mp hids
      obtain ⟨score', hrow', -, horder⟩ := hmem hi
      obtain rfl := Option.some.inj (hrow.symm.trans hrow')
      rw [horder, if_pos hsid]
    · rw [assigned_of_not_mem (hkeys.symm ▸ hids), h.only k score hrow hof hids]

/-- Writing zero again to a score that is not pinned. -/
theorem Numbered.zero (h : Numbered t uid mode ids) (hsid : sid ∉ ids) :
    Numbered (Profile.assign [(sid, 0)] t) uid mode ids := by
  have hassigned : ∀ k old, assigned [(sid, 0)] k old = if k = sid then 0 else old :=
    fun _ _ => rfl
  refine Numbered.assign (fun i k hi => ?_) fun k score hrow hof hk => ?_
  · obtain ⟨score, hrow, hof, horder⟩ := h.rows i k hi
    have hne : k ≠ sid := fun heq => hsid (heq ▸ List.mem_of_getElem? hi)
    exact ⟨score, hrow, hof, by rw [hassigned, if_neg hne, horder]⟩
  · rw [hassigned]
    split
    · rfl
    · exact h.only k score hrow hof hk

/-! ## Reordering a list -/

theorem insertIdx_length {α : Type} (l₁ l₂ : List α) (a : α) :
    (l₁ ++ l₂).insertIdx l₁.length a = l₁ ++ a :: l₂ := by
  induction l₁ with
  | nil => rfl
  | cons x l₁ ih => rw [List.cons_append, List.length_cons, List.insertIdx_succ_cons, ih]; rfl

theorem perm_cons_rest (hnodup : ids.Nodup) (hsid : sid ∈ ids) :
    (sid :: rest sid ids).Perm ids := by
  obtain ⟨l₁, l₂, rfl⟩ := List.append_of_mem hsid
  rw [rest_split hnodup]
  exact List.perm_middle.symm

/-- The moved score stands right before or right after the reference, the others as before. -/
def Moved (sid : ScoreId) (afterScoreId beforeScoreId : Option ScoreId)
    (before after : List ScoreId) : Prop :=
  sid ∈ before ∧ rest sid after = rest sid before ∧
    ∃ l₁ l₂ reference, (beforeScoreId = some reference ∧ after = l₁ ++ sid :: reference :: l₂) ∨
      (beforeScoreId = none ∧ afterScoreId = some reference ∧
        after = l₁ ++ reference :: sid :: l₂)

theorem reorderedScorePinIds_ok {afterScoreId beforeScoreId : Option ScoreId}
    {ids' : List ScoreId} (hnodup : ids.Nodup)
    (h : reorderedScorePinIds ids sid beforeScoreId afterScoreId = .ok ids') :
    ids'.Perm ids ∧ Moved sid afterScoreId beforeScoreId ids ids' := by
  unfold reorderedScorePinIds at h
  split at h
  · cases h
  · next hsid =>
    rw [not_not] at hsid
    split at h
    · cases h
    · next reference href =>
      split at h
      · cases h
      · next hmem =>
        rw [not_not] at hmem
        split at h
        · cases h
        · next hne =>
          have hin : reference ∈ rest sid ids :=
            List.mem_filter.mpr ⟨hmem, decide_eq_true hne⟩
          obtain ⟨l₁, l₂, hsplit, hfirst⟩ := List.eq_append_cons_of_mem hin
          have hindex : (rest sid ids).idxOf reference = l₁.length := by
            rw [hsplit, List.idxOf_append_of_notMem hfirst, List.idxOf_cons_self, Nat.add_zero]
          have hperm : (sid :: rest sid ids).Perm ids := perm_cons_rest hnodup hsid
          have hresult := Except.ok.inj h
          change (rest sid ids).insertIdx
            (if beforeScoreId.isSome then (rest sid ids).idxOf reference
              else (rest sid ids).idxOf reference + 1) sid = ids' at hresult
          rw [hindex] at hresult
          cases beforeScoreId with
          | some b =>
            obtain rfl : b = reference := Option.some.inj href
            rw [if_pos Option.isSome_some, hsplit, insertIdx_length] at hresult
            have hl : ids'.Perm (sid :: rest sid ids) := by
              rw [← hresult, hsplit]
              exact List.perm_middle
            refine ⟨hl.trans hperm, hsid, ?_, l₁, l₂, b, .inl ⟨rfl, hresult.symm⟩⟩
            have hnodup' := (hl.trans hperm).nodup_iff.mpr hnodup
            rw [← hresult] at hnodup' ⊢
            rw [rest_split hnodup', hsplit]
          | none =>
            rw [if_neg (by simp), hsplit] at hresult
            have happ : l₁ ++ reference :: l₂ = (l₁ ++ [reference]) ++ l₂ := by simp
            rw [happ, show l₁.length + 1 = (l₁ ++ [reference]).length by simp, insertIdx_length]
              at hresult
            have hl : ids'.Perm (sid :: rest sid ids) := by
              rw [← hresult, hsplit, happ]
              exact List.perm_middle
            refine ⟨hl.trans hperm, hsid, ?_, l₁, l₂, reference, .inr ⟨rfl, href, ?_⟩⟩
            · have hnodup' := (hl.trans hperm).nodup_iff.mpr hnodup
              rw [← hresult] at hnodup' ⊢
              rw [rest_split hnodup', hsplit, happ]
            · rw [← hresult]
              simp

/-! ## What a request does -/

def Request.userId : Request → UserId
  | .pin uid _ | .unpin uid _ | .reorder uid _ _ _ => uid

def Request.scoreId : Request → ScoreId
  | .pin _ sid | .unpin _ sid | .reorder _ sid _ _ => sid

/-- What a request makes of the pins of the mode. -/
def Request.Moves : Request → List ScoreId → List ScoreId → Prop
  | .pin _ sid, before, after => after = if sid ∈ before then before else before ++ [sid]
  | .unpin _ sid, before, after => after = rest sid before
  | .reorder _ sid afterScoreId beforeScoreId, before, after =>
    Moved sid afterScoreId beforeScoreId before after

/-- A request that is served numbers the pins of its user in the mode of its score, changes their
order as it should and leaves the other pins alone. -/
structure Served (r : Request) (s t : Table Score) (mode : GameMode) : Prop where
  within : Within s r.userId mode r.scoreId
  within_after : Within t r.userId mode r.scoreId
  numbered : ∃ ids, Numbered t r.userId mode ids ∧ r.Moves (pinnedIds s r.userId mode) ids
  others : ∀ uid' mode', ¬ (uid' = r.userId ∧ mode' = mode) →
    pinned t uid' mode' = pinned s uid' mode'

/-- The store after the pins of the user in the mode were numbered. -/
def State.normalised (s : State) (uid : UserId) (mode : GameMode) : State :=
  s.assign ((pinnedIds s.scores uid mode).zipIdx 1)

variable {s v : State} {st : LockedScorePinState}

theorem lockScorePinState_ok {w : State} (h : lockScorePinState uid sid s = (.ok st, w)) :
    (st.score = none) ∨ ∃ mode, Within s.scores uid mode sid ∧ w = s.normalised uid mode ∧
      st.score = w.scores.row sid ∧ st.pinnedScores = pinnedIds s.scores uid mode := by
  obtain ⟨owned, _, hread, h⟩ := bind_ok.mp h
  obtain ⟨howned, rfl⟩ := read_ok.mp hread
  cases owned with
  | none =>
    obtain ⟨rfl, -⟩ := pure_ok.mp h
    exact .inl rfl
  | some score =>
    have hscore : s.scores.row sid = some score ∧ score.userId = uid := by
      split at howned
      · simpa [Option.filter_eq_some_iff] using howned
      · cases howned
    obtain ⟨pins, _, hread, h⟩ := bind_ok.mp h
    obtain ⟨rfl, rfl⟩ := read_ok.mp hread
    obtain ⟨orders, _, hread, h⟩ := bind_ok.mp h
    obtain ⟨rfl, rfl⟩ := read_ok.mp hread
    obtain ⟨_, _, hwrite, h⟩ := bind_ok.mp h
    obtain rfl := write_ok.mp hwrite
    obtain ⟨row, _, hread, h⟩ := bind_ok.mp h
    obtain ⟨rfl, rfl⟩ := read_ok.mp hread
    obtain ⟨rfl, rfl⟩ := pure_ok.mp h
    exact .inr ⟨score.gamemode, ⟨score, hscore.1, hscore.2, rfl⟩, rfl, rfl, rfl⟩

theorem numbered_normalised (s : State) (uid : UserId) (mode : GameMode) :
    Numbered (s.normalised uid mode).scores uid mode (pinnedIds s.scores uid mode) :=
  numbered_zipIdx nodup_pinnedIds (fun _ hk => within_of_mem hk) fun _ hk => hk

theorem within_normalised : Within (s.normalised uid mode).scores uid' mode' k ↔
    Within s.scores uid' mode' k := within_assign

theorem pinned_normalised (hother : ¬ (uid' = uid ∧ mode' = mode)) :
    pinned (s.normalised uid mode).scores uid' mode' = pinned s.scores uid' mode' := by
  refine pinned_assign_other (fun k hk => within_of_mem ?_) hother
  rwa [List.zipIdx_map_fst] at hk

/-- A request that stores further orders of pins after the numbering. -/
theorem Served.of_assign {r : Request} (hwithin : Within s.scores r.userId mode r.scoreId)
    (horders : ∀ k ∈ orders.map Prod.fst, Within s.scores r.userId mode k)
    (hnumbered : Numbered ((s.normalised r.userId mode).assign orders).scores r.userId mode ids)
    (hmoves : r.Moves (pinnedIds s.scores r.userId mode) ids) :
    Served r s.scores ((s.normalised r.userId mode).assign orders).scores mode where
  within := hwithin
  within_after := within_assign.mpr (within_normalised.mpr hwithin)
  numbered := ⟨ids, hnumbered, hmoves⟩
  others uid' mode' hother := by
    refine Eq.trans ?_ (pinned_normalised hother)
    exact pinned_assign_other (fun k hk => within_normalised.mpr (horders k hk)) hother

/-- A request that stores nothing after the numbering. -/
theorem Served.of_normalised {r : Request} (hwithin : Within s.scores r.userId mode r.scoreId)
    (hmoves : r.Moves (pinnedIds s.scores r.userId mode) (pinnedIds s.scores r.userId mode)) :
    Served r s.scores (s.normalised r.userId mode).scores mode where
  within := hwithin
  within_after := within_normalised.mpr hwithin
  numbered := ⟨_, numbered_normalised s r.userId mode, hmoves⟩
  others _ _ hother := pinned_normalised hother

/-- A score with an order is pinned, at the place of its order. -/
theorem Numbered.getElem?_of_pos {score : Score} (h : Numbered t uid mode ids)
    (hwithin : Within t uid mode sid) (hrow : t.row sid = some score)
    (hpos : score.pinnedOrder ≠ 0) : ids[score.pinnedOrder - 1]? = some sid := by
  obtain ⟨score', hrow', hof⟩ := hwithin
  obtain rfl := Option.some.inj (hrow.symm.trans hrow')
  have hmem : sid ∈ ids := by
    by_contra hnot
    exact hpos (h.only sid score hrow hof hnot)
  obtain ⟨i, hi⟩ := List.mem_iff_getElem?.mp hmem
  obtain ⟨score', hrow', -, horder⟩ := h.rows i sid hi
  obtain rfl := Option.some.inj (hrow.symm.trans hrow')
  rw [horder, Nat.add_sub_cancel]
  exact hi

/-- A score without an order is not pinned. -/
theorem Numbered.not_mem_of_zero {score : Score} (h : Numbered t uid mode ids)
    (hrow : t.row sid = some score) (hzero : score.pinnedOrder = 0) : sid ∉ ids := by
  intro hmem
  obtain ⟨i, hi⟩ := List.mem_iff_getElem?.mp hmem
  obtain ⟨score', hrow', -, horder⟩ := h.rows i sid hi
  obtain rfl := Option.some.inj (hrow.symm.trans hrow')
  omega

theorem rest_of_not_mem (h : sid ∉ ids) : rest sid ids = ids := by
  rw [rest, List.filter_eq_self]
  exact fun k hk => decide_eq_true fun heq => h (heq ▸ hk)

/-- A request that looks at a locked score. -/
theorem locked_ok {f : LockedScorePinState → Score → Txn State Failure Unit} {x : Unit}
    (h : (lockScorePinState uid sid >>= fun state =>
      require (fun _ => state.score) (.scoreNotFound none) >>= f state) s = (.ok x, v)) :
    ∃ mode score st, Within s.scores uid mode sid ∧
      (s.normalised uid mode).scores.row sid = some score ∧
      st.pinnedScores = pinnedIds s.scores uid mode ∧
      f st score (s.normalised uid mode) = (.ok x, v) := by
  obtain ⟨st, w, hlock, h⟩ := bind_ok.mp h
  obtain ⟨score, _, hrequire, h⟩ := bind_ok.mp h
  obtain ⟨hscore, rfl⟩ := require_ok.mp hrequire
  rcases lockScorePinState_ok hlock with hnone | ⟨mode, hwithin, rfl, hrow, hpins⟩
  · rw [hnone] at hscore
    cases hscore
  · exact ⟨mode, score, st, hwithin, hrow.symm.trans hscore, hpins, h⟩

theorem pinScore_served {x : Unit} (h : pinScore uid sid s = (.ok x, v)) :
    ∃ mode, Served (.pin uid sid) s.scores v.scores mode := by
  obtain ⟨mode, score, st, hwithin, hrow, hpins, h⟩ := locked_ok h
  have hnum := numbered_normalised s uid mode
  refine ⟨mode, ?_⟩
  split at h
  · simp [raise] at h
  · split at h
    · next hpos =>
      obtain ⟨-, rfl⟩ := pure_ok.mp h
      have hmem := List.mem_of_getElem?
        (hnum.getElem?_of_pos (within_normalised.mpr hwithin) hrow (by omega))
      exact Served.of_normalised hwithin (if_pos hmem).symm
    · next hzero =>
      obtain rfl := write_ok.mp h
      have hnot := hnum.not_mem_of_zero hrow (by omega)
      rw [hpins]
      refine Served.of_assign hwithin (fun k hk => ?_)
        (hnum.pin hnot (within_normalised.mpr hwithin)) (if_neg hnot).symm
      obtain rfl := List.mem_singleton.mp hk
      exact hwithin

theorem assign_append (a b : List (ScoreId × Nat)) (w : State) :
    (w.assign a).assign b = w.assign (a ++ b) := by
  simp only [State.assign, Profile.assign, List.foldl_append]

theorem unpinScore_served {x : Unit} (h : unpinScore uid sid s = (.ok x, v)) :
    ∃ mode, Served (.unpin uid sid) s.scores v.scores mode := by
  obtain ⟨mode, score, st, hwithin, hrow, hpins, h⟩ := locked_ok h
  have hnum := numbered_normalised s uid mode
  refine ⟨mode, ?_⟩
  split at h
  · next hzero =>
    obtain ⟨-, rfl⟩ := pure_ok.mp h
    have hnot := hnum.not_mem_of_zero hrow hzero
    exact Served.of_normalised hwithin (rest_of_not_mem hnot).symm
  · next hpos =>
    obtain ⟨_, _, hwrite, h⟩ := bind_ok.mp h
    obtain rfl := write_ok.mp hwrite
    obtain rfl := write_ok.mp h
    have hget := hnum.getElem?_of_pos (within_normalised.mpr hwithin) hrow hpos
    have hunpinned := hnum.unpin hget
    rw [Nat.sub_add_cancel (Nat.one_le_iff_ne_zero.mpr hpos)] at hunpinned
    have hagain := hunpinned.zero fun hmem : sid ∈ _ =>
      of_decide_eq_true (List.mem_filter.mp hmem).2 rfl
    rw [hpins, assign_append]
    refine Served.of_assign hwithin (fun k hk => ?_) ?_ rfl
    · rw [List.map_append, List.map_map, List.mem_append] at hk
      rcases hk with hk | hk
      · have hk' : k ∈ (pinnedIds s.scores uid mode).map id := hk
        rw [List.map_id] at hk'
        exact within_of_mem hk'
      · obtain rfl := List.mem_singleton.mp hk
        exact hwithin
    · rw [← assign_append]
      exact hagain

theorem reorderScorePin_served {afterScoreId beforeScoreId : Option ScoreId} {x : Unit}
    (h : reorderScorePin uid sid afterScoreId beforeScoreId s = (.ok x, v)) :
    ∃ mode, Served (.reorder uid sid afterScoreId beforeScoreId) s.scores v.scores mode := by
  obtain ⟨_, _, hrefuse, h⟩ := bind_ok.mp h
  obtain ⟨-, rfl⟩ := refuse_ok.mp hrefuse
  obtain ⟨mode, score, st, hwithin, hrow, hpins, h⟩ := locked_ok h
  have hnum := numbered_normalised s uid mode
  refine ⟨mode, ?_⟩
  split at h
  · simp [raise] at h
  · cases hids : reorderedScorePinIds st.pinnedScores sid beforeScoreId afterScoreId with
    | error e =>
      rw [hids] at h
      cases e with
      | notPinned => simp [raise] at h
      | referenceNotPinned => simp [raise] at h
      | itself => simp [raise] at h
    | ok ids =>
      rw [hids] at h
      rw [hpins] at hids h
      dsimp only at h
      obtain ⟨hperm, hmoved⟩ := reorderedScorePinIds_ok nodup_pinnedIds hids
      split at h
      · obtain rfl := write_ok.mp h
        refine Served.of_assign hwithin (fun k hk => ?_) ?_ hmoved
        · rw [List.zipIdx_map_fst] at hk
          exact within_of_mem (hperm.mem_iff.mp hk)
        · refine numbered_zipIdx (hperm.nodup_iff.mpr nodup_pinnedIds) (fun k hk => ?_)
            fun k hk => ?_
          · exact within_normalised.mpr (within_of_mem (hperm.mem_iff.mp hk))
          · have hk' := hnum.pinnedIds_eq ▸ hk
            exact hperm.mem_iff.mpr hk'
      · next hsame =>
        obtain ⟨-, rfl⟩ := pure_ok.mp h
        rw [not_or, not_not] at hsame
        exact Served.of_normalised hwithin (hsame.2 ▸ hmoved)

/-- A request that is served does what it should. -/
theorem serve_ok {r : Request} {x : Unit} (h : serve r s = (.ok x, v)) :
    ∃ mode, Served r s.scores v.scores mode := by
  cases r with
  | pin uid sid => exact pinScore_served h
  | unpin uid sid => exact unpinScore_served h
  | reorder uid sid afterScoreId beforeScoreId => exact reorderScorePin_served h

/-! ## Runs of requests -/

/-- The orders of the pins are 1 to n. -/
def Compact (t : Table Score) (uid : UserId) (mode : GameMode) : Prop :=
  pinnedOrders t uid mode = List.range' 1 (pinnedIds t uid mode).length

instance (t : Table Score) (uid : UserId) (mode : GameMode) : Decidable (Compact t uid mode) :=
  inferInstanceAs (Decidable (_ = _))

/-- A request of the user on a score of the mode was served. -/
def Touched (uid : UserId) (mode : GameMode) (h : List ((Request × Bool) × State)) : Prop :=
  ∃ x ∈ h, x.1.2 = true ∧ x.1.1.userId = uid ∧ Within x.2.scores uid mode x.1.1.scoreId

theorem Served.compact {r : Request} (h : Served r t u mode) : Compact u r.userId mode := by
  obtain ⟨ids, hnum, -⟩ := h.numbered
  rw [Compact, hnum.pinnedOrders_eq, hnum.pinnedIds_eq]

theorem Served.moves {r : Request} (h : Served r t u mode) :
    r.Moves (pinnedIds t r.userId mode) (pinnedIds u r.userId mode) := by
  obtain ⟨ids, hnum, hmoves⟩ := h.numbered
  rwa [hnum.pinnedIds_eq]

theorem Within.mode_unique (h : Within t uid mode k) (h' : Within t uid mode' k) : mode = mode' := by
  obtain ⟨score, hrow, hof⟩ := h
  obtain ⟨score', hrow', hof'⟩ := h'
  obtain rfl := Option.some.inj (hrow.symm.trans hrow')
  exact hof.2.symm.trans hof'.2

theorem Step.compact {x : Request × Bool} (hstep : Step s x v) (h : Compact s.scores uid mode) :
    Compact v.scores uid mode := by
  cases hstep with
  | refused _ => exact h
  | @served _ r hserve =>
    obtain ⟨mode', hserved⟩ := serve_ok hserve
    by_cases hsame : uid = r.userId ∧ mode = mode'
    · rw [hsame.1, hsame.2]
      exact hserved.compact
    · have hpinned := hserved.others uid mode hsame
      rw [Compact, pinnedOrders, pinnedIds] at h ⊢
      rwa [hpinned]

/-- After a request on a score of the mode was served, the orders of the pins are 1 to n.  Each
request that is served moves the pins of its mode as it should and no others, and each that is not
changes nothing. -/
theorem score_pins_stay_compact {s₀ : State} {h : List ((Request × Bool) × State)}
    (hrun : Trace Step (fun _ _ => True) s₀ h s) :
    (∀ uid mode, Touched uid mode h → Compact s.scores uid mode) ∧
    (∀ r v, Step s (r, false) v → v = s) ∧
    ∀ r v, Step s (r, true) v → ∃ mode, Within s.scores r.userId mode r.scoreId ∧
      r.Moves (pinnedIds s.scores r.userId mode) (pinnedIds v.scores r.userId mode) ∧
      ∀ uid' mode', ¬ (uid' = r.userId ∧ mode' = mode) →
        pinned v.scores uid' mode' = pinned s.scores uid' mode' := by
  refine ⟨fun uid mode => ?_, fun r v hstep => ?_, fun r v hstep => ?_⟩
  · refine hrun.invariant (I := fun h s => Touched uid mode h → Compact s.scores uid mode) ?_ ?_
    · rintro past s ⟨r, ok⟩ t ih - hstep ⟨x, hx, hok, huser, hwithin⟩
      rcases List.mem_cons.mp hx with rfl | hx
      · cases hstep with
        | refused _ => cases hok
        | served hserve =>
          obtain ⟨mode', hserved⟩ := serve_ok hserve
          subst huser
          rw [hwithin.mode_unique hserved.within_after]
          exact hserved.compact
      · exact hstep.compact (ih ⟨x, hx, hok, huser, hwithin⟩)
    · rintro ⟨x, hx, -⟩
      cases hx
  · cases hstep with
    | refused _ => rfl
  · cases hstep with
    | served hserve =>
      obtain ⟨mode, hserved⟩ := serve_ok hserve
      exact ⟨mode, hserved.within, hserved.moves, hserved.others⟩

/-- Whether a request is served. -/
def outcome (r : Request) (s : State) : Bool :=
  match (serve r s).1 with
  | .ok _ => true
  | .error _ => false

theorem step_outcome (r : Request) (s : State) : Step s (r, outcome r s) (commit (serve r) s) := by
  unfold outcome commit
  cases h : serve r s with
  | mk result v =>
    cases result with
    | ok _ => exact .served h
    | error e => exact .refused h

/-- Two pins with a gap between them, a score that was passed and one that was not. -/
def gapped : State where
  users := [7]
  scores := (((Table.empty.insert ⟨7, .osu, true, 1⟩).insert ⟨7, .osu, true, 3⟩).insert
    ⟨7, .osu, true, 0⟩).insert ⟨7, .osu, false, 0⟩

/-- A third score is pinned, and the gap is closed. -/
theorem score_pins_stay_compact_pin : Compact (commit (serve (.pin 7 3)) gapped).scores 7 .osu :=
  (score_pins_stay_compact
    (Trace.refl.tail trivial (step_outcome (.pin 7 3) gapped))).1 7 .osu
      ⟨_, List.mem_cons_self, by decide +kernel, rfl, ⟨7, .osu, true, 3⟩, by decide +kernel, rfl,
        rfl⟩

/-- A refused request leaves the gap. -/
theorem refused_keeps_gap : ∃ s₀ h s, Trace Step (fun _ _ => True) s₀ h s ∧ h ≠ [] ∧
    ¬ Compact s.scores 7 .osu :=
  ⟨gapped, _, _, Trace.refl.tail trivial (step_outcome (.pin 7 4) gapped), List.cons_ne_nil _ _,
    by decide +kernel⟩

end Soms.Profile

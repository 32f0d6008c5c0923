import Soms.Activity.Announcements
import Soms.Library.Chain

/-!
# The chain of first places

The announcements that were made, followed by those that wait, lead from no holder to the
current one.  A run of deliveries keeps to this order while the first that waits is the first to
be posted, and the announcements that a room replaces are the last that wait.
-/

namespace Soms.Activity

open Soms.Scores (UserId ScoreId BestRow placeBestRow replaceRow)

def SomsActivity.content (a : SomsActivity) : Announcement := ⟨a.board, a.actorId, a.previousId⟩

/-- Staged and without a message. -/
def SomsActivity.waits (a : SomsActivity) : Bool := !a.delivered && a.chatMessageId.isNone

namespace State

/-- The rows of a board that wait, the oldest first. -/
def waiting (s : State) (b : Board) : List (ActivityId × SomsActivity) :=
  s.activities.toList.filter fun x => x.2.waits && x.2.board == b

/-- The announcements of a board, in the order of their messages. -/
def announced (s : State) (b : Board) : List Announcement :=
  (s.messages.map ChatMessage.content).filter fun c => c.board == b

/-- The announcements that were made and those that wait. -/
def story (s : State) (b : Board) : List Announcement :=
  s.announced b ++ (s.waiting b).map fun x => x.2.content

end State

/-- The messages that were made for a row. -/
def State.messageIds (s : State) (i : ActivityId) : List MessageId :=
  (s.messages.filter fun m => m.activityId == i).map ChatMessage.messageId

/-- Each announcement names the player of the one before it, and a delivered one has one
message. -/
structure Announced (s : State) : Prop where
  chained : ∀ b, (s.announced b).IsChain fun x y => y.previousId = some x.actorId
  once : ∀ i a, s.activities.row i = some a → s.messageIds i = a.chatMessageId.toList
  posted : ∀ i a, s.activities.row i = some a → a.delivered = true → a.announcement.isSome = true →
    a.chatMessageId.isSome = true

/-- The score is above all rows of its board. -/
def State.Tops (s : State) (sid : ScoreId) (sc : Score) : Prop :=
  ∀ x ∈ s.best sc.board, x.2.totalScore < sc.totalScore ∨
    x.2.totalScore = sc.totalScore ∧ x.2.scoreId < sid

/-- A score with a better display score than the user's best has a better total score.  What waits
behind an announcement of the room of a score that takes the first place is of that room as well,
and what is posted is the first that waits. -/
def InOrder (s : State) : Event → Prop
  | .process sid => ∀ sc, s.scores.row sid = some sc → sc.processed = false →
      (∀ row, State.highest (s.userRows sc.board sc.userId) = some row →
        s.displayOf (some row) < sc.displayScore → row.totalScore < sc.totalScore) ∧
      (sc.room.isSome = true → s.Tops sid sc →
        (s.waiting sc.board).Pairwise fun x y => x.2.room = sc.room → y.2.room = sc.room)
  | .next w locked => ∀ lastSeen i a, s.workers w = .scanning lastSeen →
      s.candidate lastSeen locked = some (i, a) → s.announcementReady a = true →
      a.chatMessageId = none → (s.waiting a.board).head? = some (i, a)
  | _ => True

/-- What the rows, the messages and the leaderboards have to do with the scores and with each
other. -/
structure Sound (s : State) : Prop where
  best : ∀ b, ∀ x ∈ s.best b, ∃ sc, s.scores.row x.2.scoreId = some sc ∧ sc.processed = true ∧
    sc.totalScore = x.2.totalScore ∧ sc.userId = x.1
  keys : ∀ i a, s.activities.row i = some a →
    ∃ sc, s.scores.row a.scoreId = some sc ∧ sc.processed = true
  texts : ∀ i a, s.activities.row i = some a → a.delivered = false →
    a.announcement = some a.content
  once : ∀ i a, s.activities.row i = some a → s.messageIds i = a.chatMessageId.toList
  fresh : ∀ m ∈ s.messages, m.activityId < s.activities.next
  posted : ∀ i a, s.activities.row i = some a → a.delivered = true → a.announcement.isSome = true →
    a.chatMessageId.isSome = true
  marking : ∀ w i, s.workers w = .posted i → ∃ a, s.activities.row i = some a ∧
    a.chatMessageId.isSome = true

/-- The story of every board leads to the player who holds the first place. -/
structure Linked (s : State) : Prop extends Sound s where
  story : ∀ b, Leads Announcement.previousId Announcement.actorId none (s.story b)
    ((s.currentWinner b).map Prod.snd)

variable {s t : State} {b : Board} {sid : ScoreId} {sc : Score}

theorem Linked.announced (h : Linked s) : Announced s where
  chained b := by
    obtain ⟨m, hm, -⟩ := leads_append.mp (h.story b)
    exact hm.isChain
  once := h.once
  posted := h.posted

/-! ## The leaderboard -/

theorem pick_eq_none {α : Type} {better : α → α → Prop} [DecidableRel better] {rows : List α} :
    pick better rows = none ↔ rows = [] := by
  cases rows with
  | nil => simp [pick]
  | cons x xs =>
    simp only [pick, List.foldr_cons, reduceCtorEq, iff_false]
    split
    · simp
    · split <;> simp

section Cons

variable {α : Type} {better : α → α → Prop} [DecidableRel better] {r y : α} {rest : List α}

theorem pick_cons_none (h : pick better rest = none) : pick better (r :: rest) = some r := by
  rw [pick_eq_none.mp h]
  rfl

theorem pick_cons_some (h : pick better rest = some y) :
    pick better (r :: rest) = if better r y then some r else some y := by
  unfold pick at h ⊢
  rw [List.foldr_cons, h]

end Cons

/-- The row that is picked is as good as all rows, for every notion of this that the
comparisons respect. -/
theorem pick_spec {α : Type} {better : α → α → Prop} [DecidableRel better] {G : α → α → Prop}
    (hrefl : ∀ x, G x x) (hyes : ∀ x y z, better x y → G y z → G x z)
    (hno : ∀ x y, ¬ better x y → G y x) {rows : List α} {x : α}
    (h : pick better rows = some x) : x ∈ rows ∧ ∀ y ∈ rows, G x y := by
  induction rows generalizing x with
  | nil => simp [pick] at h
  | cons r rest ih =>
    cases hrest : pick better rest with
    | none =>
      rw [pick_cons_none hrest] at h
      obtain rfl := Option.some.inj h
      obtain rfl := pick_eq_none.mp hrest
      exact ⟨List.mem_singleton_self r, fun y hy => (List.mem_singleton.mp hy) ▸ hrefl r⟩
    | some z =>
      rw [pick_cons_some hrest] at h
      obtain ⟨hz, hmax⟩ := ih hrest
      split at h
      · next hbetter =>
        obtain rfl := Option.some.inj h
        refine ⟨List.mem_cons_self, fun y hy => ?_⟩
        rcases List.mem_cons.mp hy with rfl | hy
        · exact hrefl y
        · exact hyes _ _ _ hbetter (hmax y hy)
      · next hnot =>
        obtain rfl := Option.some.inj h
        refine ⟨List.mem_cons_of_mem _ hz, fun y hy => ?_⟩
        rcases List.mem_cons.mp hy with rfl | hy
        · exact hno _ _ hnot
        · exact hmax y hy

theorem Below.trans {x y z : BestRow} (hxy : Below x y) (hyz : Below y z) : Below x z := by
  rcases hxy with hxy | ⟨hxy, hid⟩ <;> rcases hyz with hyz | ⟨hyz, hid'⟩
  · exact .inl (Nat.lt_trans hxy hyz)
  · exact .inl (hyz ▸ hxy)
  · exact .inl (hxy ▸ hyz)
  · exact .inr ⟨hxy.trans hyz, Nat.lt_trans hid hid'⟩

theorem top_spec {rows : List (UserId × BestRow)} {x : UserId × BestRow} (h : top rows = some x) :
    x ∈ rows ∧ ∀ y ∈ rows, ¬ Below x.2 y.2 :=
  pick_spec (G := fun x y : UserId × BestRow => ¬ Below x.2 y.2) (fun x => by simp [Below])
    (fun _ _ _ hbetter hgood hxz => hgood (Below.trans hbetter hxz)) (fun _ _ hnot => hnot) h

theorem highest_spec {rows : List BestRow} {x : BestRow} (h : State.highest rows = some x) :
    x ∈ rows ∧ ∀ y ∈ rows, y.totalScore ≤ x.totalScore :=
  pick_spec (G := fun x y : BestRow => y.totalScore ≤ x.totalScore) (fun _ => Nat.le_refl _)
    (fun _ _ _ hbetter hgood => hgood.trans hbetter)
    (fun _ _ hnot => Nat.le_of_lt (Nat.lt_of_not_le hnot)) h

/-- A row of the new score. -/
def IsNew (new row : BestRow) : Prop := row.scoreId = new.scoreId ∧ row.totalScore = new.totalScore

/-- The rows come from the old ones and the new score, and what went is below the new score. -/
structure Placed (new : BestRow) (old rows : List BestRow) : Prop where
  from_old : ∀ y ∈ rows, y ∈ old ∨ IsNew new y
  gone : ∀ y ∈ old, y ∈ rows ∨ y.totalScore < new.totalScore ∧ ∃ z ∈ rows, IsNew new z

theorem placed_replaceRow {new : BestRow} {rows : List BestRow} {x : BestRow} (hx : x ∈ rows)
    (hids : ∀ y ∈ rows, y.scoreId = x.scoreId → y.totalScore = x.totalScore)
    (hlt : x.totalScore < new.totalScore) : Placed new rows (replaceRow x.scoreId new rows) where
  from_old y hy := by
    obtain ⟨z, hz, rfl⟩ := List.mem_map.mp hy
    split
    · exact .inr ⟨rfl, rfl⟩
    · exact .inl hz
  gone y hy := by
    by_cases hid : y.scoreId = x.scoreId
    · refine .inr ⟨(hids y hy hid).symm ▸ hlt, _, List.mem_map.mpr ⟨x, hx, rfl⟩, ?_⟩
      rw [if_pos rfl]
      exact ⟨rfl, rfl⟩
    · exact .inl (List.mem_map.mpr ⟨y, hy, if_neg hid⟩)

/-- The four cases of `placeBestRow`. -/
theorem placed_placeBestRow {new : BestRow} {rows : List BestRow} {p : BestRow → Bool}
    {difference : Int}
    (hids : ∀ x ∈ rows, ∀ y ∈ rows, x.scoreId = y.scoreId → x.totalScore = y.totalScore)
    (hbetter : ∀ x, State.highest rows = some x → 0 < difference → x.totalScore < new.totalScore) :
    Placed new rows (placeBestRow new difference (State.highest rows)
      (State.highest (rows.filter p)) rows) := by
  have hsame : Placed new rows rows := ⟨fun y hy => .inl hy, fun y hy => .inl hy⟩
  have hadded : Placed new rows (rows ++ [new]) := by
    refine ⟨fun y hy => ?_, fun y hy => .inl (List.mem_append_left _ hy)⟩
    rcases List.mem_append.mp hy with hy | hy
    · exact .inl hy
    · obtain rfl := List.mem_singleton.mp hy
      exact .inr ⟨rfl, rfl⟩
  unfold placeBestRow
  split
  · next best mod hbest hmod =>
    obtain ⟨hbestMem, hmax⟩ := highest_spec hbest
    have hmodMem : mod ∈ rows := (List.mem_filter.mp (highest_spec hmod).1).1
    by_cases hone : best.scoreId = mod.scoreId
    · rw [if_pos hone]
      split
      · next hpos =>
        exact placed_replaceRow hbestMem (fun y hy => hids y hy best hbestMem)
          (hbetter best hbest hpos)
      · exact hsame
    · rw [if_neg hone]
      by_cases hpos : 0 < difference
      · have hlt := hbetter best hbest hpos
        have hmodLt : mod.totalScore < new.totalScore :=
          Nat.lt_of_le_of_lt (hmax mod hmodMem) hlt
        simp only [if_pos hpos, if_pos hmodLt]
        have hmodKept : mod ∈ rows.filter fun row => row.scoreId ≠ best.scoreId :=
          List.mem_filter.mpr ⟨hmodMem, by simpa using Ne.symm hone⟩
        have hreplaced := placed_replaceRow hmodKept
          (fun y hy => hids y (List.mem_filter.mp hy).1 mod hmodMem) hmodLt
        refine ⟨fun y hy => (hreplaced.from_old y hy).imp (fun h => (List.mem_filter.mp h).1) id,
          fun y hy => ?_⟩
        by_cases hid : y.scoreId = best.scoreId
        · obtain ⟨z, hz, hnew⟩ : ∃ z ∈ replaceRow mod.scoreId new
              (rows.filter fun row => row.scoreId ≠ best.scoreId), IsNew new z :=
            ⟨_, List.mem_map.mpr ⟨mod, hmodKept, rfl⟩, by rw [if_pos rfl]; exact ⟨rfl, rfl⟩⟩
          exact .inr ⟨(hids y hy best hbestMem hid).symm ▸ hlt, z, hz, hnew⟩
        · exact hreplaced.gone y (List.mem_filter.mpr ⟨hy, by simpa using hid⟩)
      · simp only [if_neg hpos]
        split
        · next hmodLt =>
          exact placed_replaceRow hmodMem (fun y hy => hids y hy mod hmodMem) hmodLt
        · exact hsame
  · exact hadded

/-- A score with a better display score than the user's best has a better total score. -/
def State.Consistent (s : State) (sc : Score) : Prop :=
  ∀ row, State.highest (s.userRows sc.board sc.userId) = some row →
    s.displayOf (some row) < sc.displayScore → row.totalScore < sc.totalScore

/-- A row of the score on its board. -/
def State.HasNew (s : State) (sid : ScoreId) (sc : Score) (x : UserId × BestRow) : Prop :=
  x ∈ s.best sc.board ∧ x.1 = sc.userId ∧ x.2.scoreId = sid ∧ x.2.totalScore = sc.totalScore

theorem best_processStatistics_of_ne (hb : b ≠ sc.board) :
    (s.processStatistics sid sc).best b = s.best b := by
  unfold State.processStatistics
  split
  · simp [Function.update_of_ne hb]
  · rfl

theorem mem_userRows {uid : UserId} {row : BestRow} :
    row ∈ s.userRows b uid ↔ (uid, row) ∈ s.best b := by
  simp [State.userRows]

theorem placed_placedRows (h : Sound s) (hc : s.Consistent sc) :
    Placed (sc.row sid) (s.userRows sc.board sc.userId) (s.placedRows sid sc) := by
  refine placed_placeBestRow (fun x hx y hy hid => ?_) fun row hrow hpos => ?_
  · obtain ⟨scx, hscx, -, htx, -⟩ := h.best _ _ (mem_userRows.mp hx)
    obtain ⟨scy, hscy, -, hty, -⟩ := h.best _ _ (mem_userRows.mp hy)
    have hsame : some scx = some scy := by rw [← hscx, ← hscy, hid]
    obtain rfl := Option.some.inj hsame
    exact htx.symm.trans hty
  · rw [hrow] at hpos
    exact hc row hrow (by omega)

theorem mem_best_processStatistics (hsc : (sc.passed && sc.hasLeaderboard) = true)
    {x : UserId × BestRow} : x ∈ (s.processStatistics sid sc).best sc.board ↔
      (x ∈ s.best sc.board ∧ x.1 ≠ sc.userId) ∨ x.1 = sc.userId ∧ x.2 ∈ s.placedRows sid sc := by
  rw [State.processStatistics, if_pos hsc]
  simp only [Function.update_self, List.mem_append, List.mem_filter, bne_iff_ne, List.mem_map]
  refine or_congr_right ⟨?_, ?_⟩
  · rintro ⟨row, hrow, rfl⟩
    exact ⟨rfl, hrow⟩
  · rintro ⟨hx, hrow⟩
    exact ⟨x.2, hrow, by rw [← hx]⟩

/-- The leaderboard after a score is processed. -/
theorem best_processStatistics (h : Sound s) (hc : s.Consistent sc) :
    (∀ x ∈ (s.processStatistics sid sc).best sc.board,
        x ∈ s.best sc.board ∨ (s.processStatistics sid sc).HasNew sid sc x) ∧
      ∀ x ∈ s.best sc.board, x ∈ (s.processStatistics sid sc).best sc.board ∨
        x.2.totalScore < sc.totalScore ∧ ∃ z, (s.processStatistics sid sc).HasNew sid sc z := by
  by_cases hsc : (sc.passed && sc.hasLeaderboard) = true
  · have hplaced : Placed (sc.row sid) _ _ := placed_placedRows h hc
    constructor
    · intro x hx
      rcases (mem_best_processStatistics hsc).mp hx with ⟨hold, -⟩ | ⟨huser, hrow⟩
      · exact .inl hold
      · rcases hplaced.from_old x.2 hrow with hold | hnew
        · refine .inl ?_
          rw [mem_userRows, ← huser] at hold
          exact hold
        · exact .inr ⟨hx, huser, hnew⟩
    · intro x hx
      rw [mem_best_processStatistics hsc]
      by_cases huser : x.1 = sc.userId
      · have hrow : x.2 ∈ s.userRows sc.board sc.userId := by
          rw [mem_userRows, ← huser]
          exact hx
        rcases hplaced.gone x.2 hrow with hkept | ⟨hlt, z, hz, hnew⟩
        · exact .inl (.inr ⟨huser, hkept⟩)
        · refine .inr ⟨hlt, (sc.userId, z), ?_, rfl, hnew⟩
          exact (mem_best_processStatistics hsc).mpr (.inr ⟨rfl, hz⟩)
      · exact .inl (.inl ⟨hx, huser⟩)
  · have hsame : s.processStatistics sid sc = s := by rw [State.processStatistics, if_neg hsc]
    rw [hsame]
    exact ⟨fun x hx => .inl hx, fun x hx => .inl hx⟩

/-- The row that wins holds the score and the user that win. -/
theorem currentWinner_eq_some {w : ScoreId × UserId} : s.currentWinner b = some w ↔
    ∃ x, top (s.best b) = some x ∧ x.2.scoreId = w.1 ∧ x.1 = w.2 := by
  simp only [State.currentWinner, Option.map_eq_some_iff, Prod.ext_iff]

theorem currentWinner_eq_none : s.currentWinner b = none ↔ s.best b = [] := by
  rw [State.currentWinner, Option.map_eq_none_iff]
  exact pick_eq_none

/-- Rows that are not below each other are of one score. -/
theorem same_of_not_below {x y : BestRow} (hxy : ¬ Below x y) (hyx : ¬ Below y x) :
    x.scoreId = y.scoreId := by
  unfold Below at hxy hyx
  push Not at hxy hyx
  have htotal : x.totalScore = y.totalScore := Nat.le_antisymm hyx.1 hxy.1
  exact Nat.le_antisymm (hyx.2 htotal.symm) (hxy.2 htotal)

/-- A score that is processed takes the first place or leaves it as it is. -/
theorem currentWinner_processStatistics (h : Sound s) (hc : s.Consistent sc)
    (hnot : ∀ x ∈ s.best sc.board, x.2.scoreId ≠ sid) :
    (s.processStatistics sid sc).currentWinner sc.board = s.currentWinner sc.board ∨
      (s.processStatistics sid sc).currentWinner sc.board = some (sid, sc.userId) ∧
        s.Tops sid sc := by
  obtain ⟨hold, hgone⟩ := @best_processStatistics s sid sc h hc
  obtain ⟨t, ht⟩ : ∃ t, t = s.processStatistics sid sc := ⟨_, rfl⟩
  rw [← ht] at hold hgone ⊢
  cases htop : top (t.best sc.board) with
  | none =>
    have hempty : t.best sc.board = [] := pick_eq_none.mp htop
    have hnone : s.best sc.board = [] := by
      refine List.eq_nil_iff_forall_not_mem.mpr fun x hx => ?_
      rcases hgone x hx with hx | ⟨-, z, hz, -⟩
      · rw [hempty] at hx
        exact List.not_mem_nil hx
      · rw [hempty] at hz
        exact List.not_mem_nil hz
    rw [currentWinner_eq_none.mpr hempty, currentWinner_eq_none.mpr hnone]
    exact .inl rfl
  | some x =>
    obtain ⟨hx, hmax⟩ := top_spec htop
    have hwinner : t.currentWinner sc.board = some (x.2.scoreId, x.1) :=
      currentWinner_eq_some.mpr ⟨x, htop, rfl, rfl⟩
    rw [hwinner]
    rcases hold x hx with hxold | ⟨-, huser, hid, htotal⟩
    · -- an old row stays first
      refine .inl ?_
      cases hstop : top (s.best sc.board) with
      | none =>
        rw [top, pick_eq_none] at hstop
        rw [hstop] at hxold
        simp at hxold
      | some y =>
        obtain ⟨hy, hymax⟩ := top_spec hstop
        have hsame : y.2.scoreId = x.2.scoreId := by
          rcases hgone y hy with hyt | ⟨hlt, z, hz, -, -, hztotal⟩
          · exact same_of_not_below (hymax x hxold) (hmax y hyt)
          · have hle : sc.totalScore ≤ x.2.totalScore :=
              Nat.le_of_not_lt fun hlt' => hmax z hz (.inl (hztotal.symm ▸ hlt'))
            exact absurd (.inl (Nat.lt_of_lt_of_le hlt hle)) (hymax x hxold)
        obtain ⟨scx, hscx, -, -, hux⟩ := h.best _ _ hxold
        obtain ⟨scy, hscy, -, -, huy⟩ := h.best _ _ hy
        rw [hsame, hscx] at hscy
        obtain rfl := Option.some.inj hscy
        have hwas : s.currentWinner sc.board = some (x.2.scoreId, x.1) :=
          currentWinner_eq_some.mpr ⟨y, hstop, hsame, huy.symm.trans hux⟩
        rw [hwas]
    · -- the new score is first
      refine .inr ⟨by rw [hid, huser], fun y hy => ?_⟩
      rcases hgone y hy with hyt | ⟨hlt, -⟩
      · have hbelow := hmax y hyt
        unfold Below at hbelow
        push Not at hbelow
        rw [htotal, hid] at hbelow
        rcases Nat.lt_or_ge y.2.totalScore sc.totalScore with hlt | hge
        · exact .inl hlt
        · have heq : y.2.totalScore = sc.totalScore := Nat.le_antisymm hbelow.1 hge
          exact .inr ⟨heq, Nat.lt_of_le_of_ne (hbelow.2 heq.symm) (hnot y hy)⟩
      · exact .inl hlt

end Soms.Activity

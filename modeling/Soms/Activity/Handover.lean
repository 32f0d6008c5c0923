import Soms.Activity.FirstPlaces

/-!
# The first place is handed over

Staging adds an announcement at the end of the story of a board, or cuts off its end.  Posting
moves the first that waits behind those that were made.
-/

namespace Soms.Activity

open Soms.Scores (UserId ScoreId)

variable {s t : State} {b : Board} {sid : ScoreId} {sc : Score} {i : ActivityId} {a : SomsActivity}

/-- The winner of the board as a holder. -/
abbrev State.holder (s : State) (b : Board) : Option UserId := (s.currentWinner b).map Prod.snd

/-- Changes that leave the rows, the messages and the leaderboards alone. -/
theorem Linked.frame (h : Linked s) (hbest : t.best = s.best)
    (hactivities : t.activities = s.activities) (hmessages : t.messages = s.messages)
    (hscores : ∀ i sc, s.scores.row i = some sc → t.scores.row i = some sc)
    (hworkers : ∀ w i, t.workers w = .posted i →
      ∃ a, s.activities.row i = some a ∧ a.chatMessageId.isSome = true) : Linked t where
  best b x hx := by
    rw [hbest] at hx
    obtain ⟨sc, hsc, hrest⟩ := h.best b x hx
    exact ⟨sc, hscores _ _ hsc, hrest⟩
  keys i a ha := by
    rw [hactivities] at ha
    obtain ⟨sc, hsc, hp⟩ := h.keys i a ha
    exact ⟨sc, hscores _ _ hsc, hp⟩
  texts i a ha := by
    rw [hactivities] at ha
    exact h.texts i a ha
  once i a ha := by
    rw [hactivities] at ha
    rw [State.messageIds, hmessages]
    exact h.once i a ha
  fresh m hm := by
    rw [hmessages] at hm
    rw [hactivities]
    exact h.fresh m hm
  posted i a ha := by
    rw [hactivities] at ha
    exact h.posted i a ha
  marking w i hw := by
    rw [hactivities]
    exact hworkers w i hw
  story b := by
    rw [State.story, State.announced, State.waiting, State.currentWinner, hmessages, hactivities,
      hbest]
    exact h.story b

theorem Linked.setWorker (h : Linked s) {w : WorkerId} {p : Phase}
    (hp : ∀ i, p = .posted i → ∃ a, s.activities.row i = some a ∧ a.chatMessageId.isSome = true) :
    Linked (s.setWorker w p) := by
  refine h.frame rfl rfl rfl (fun _ _ hsc => hsc) fun w' i hw' => ?_
  by_cases heq : w' = w
  · subst heq
    simp only [State.setWorker, Function.update_self] at hw'
    exact hp i hw'
  · simp only [State.setWorker, Function.update_of_ne heq] at hw'
    exact h.marking w' i hw'

/-! ## Staging -/

/-- The rows that wait, without those that the score replaces. -/
def State.kept (s : State) (sc : Score) (b : Board) : List (ActivityId × SomsActivity) :=
  (s.waiting b).filter fun x => !(sc.room.isSome && x.2.pendingIn sc)

theorem pendingIn_iff : a.pendingIn sc = true ↔
    a.waits = true ∧ a.room = sc.room ∧ a.board = sc.board := by
  simp [SomsActivity.pendingIn, SomsActivity.waits, and_assoc]

theorem mem_waiting {x : ActivityId × SomsActivity} :
    x ∈ s.waiting b ↔ s.activities.row x.1 = some x.2 ∧ x.2.waits = true ∧ x.2.board = b := by
  obtain ⟨i, a⟩ := x
  simp only [State.waiting, List.mem_filter, Table.mem_toList, Bool.and_eq_true, beq_iff_eq]

/-- One row after a score has replaced the rows of its room. -/
def SomsActivity.collapsed (sc : Score) (a : SomsActivity) : SomsActivity :=
  if sc.room.isSome && a.pendingIn sc then { a with delivered := true, announcement := none } else a

theorem collapse_eq : s.collapse sc = { s with activities := s.activities.map (·.collapsed sc) } := by
  unfold State.collapse
  split
  · next hroom => simp [SomsActivity.collapsed, hroom]
  · next hroom =>
    have hid : (fun a : SomsActivity => a.collapsed sc) = id := by
      funext a
      simp [SomsActivity.collapsed, hroom]
    rw [hid, Table.map_id]

@[simp] theorem collapsed_scoreId : (a.collapsed sc).scoreId = a.scoreId := by
  unfold SomsActivity.collapsed
  split <;> rfl

@[simp] theorem collapsed_chatMessageId : (a.collapsed sc).chatMessageId = a.chatMessageId := by
  unfold SomsActivity.collapsed
  split <;> rfl

theorem waiting_collapse : (s.collapse sc).waiting b = s.kept sc b := by
  rw [collapse_eq, State.waiting, Table.toList_map, State.kept, State.waiting]
  refine filter_map_of_dropped (fun x _ hx => ?_) fun x _ hx => ?_
  · simp [SomsActivity.collapsed, hx, SomsActivity.waits]
  · simp [SomsActivity.collapsed, hx]

theorem kept_of_ne (hb : b ≠ sc.board) : s.kept sc b = s.waiting b := by
  refine List.filter_eq_self.mpr fun x hx => ?_
  obtain ⟨-, -, hboard⟩ := mem_waiting.mp hx
  have hnot : x.2.pendingIn sc ≠ true := fun hp =>
    hb (hboard.symm.trans (pendingIn_iff.mp hp).2.2)
  simp [hnot]

/-- What waits is what is kept followed by what is replaced. -/
theorem waiting_eq_kept (hroom : sc.room.isSome = true → (s.waiting sc.board).Pairwise fun x y =>
    x.2.room = sc.room → y.2.room = sc.room) :
    ∃ replaced, s.waiting sc.board = s.kept sc sc.board ++ replaced ∧
      s.pending sc = replaced.map Prod.snd := by
  refine ⟨(s.waiting sc.board).filter fun x => sc.room.isSome && x.2.pendingIn sc, ?_, ?_⟩
  · refine (filter_not_append_filter ?_).symm
    cases hsome : sc.room.isSome with
    | false => exact List.pairwise_of_forall fun _ _ hx => by simp at hx
    | true =>
      refine (hroom hsome).imp_of_mem fun {x y} hx hy hxy hpx => ?_
      obtain ⟨-, hwaits, hboard⟩ := mem_waiting.mp hy
      rw [Bool.true_and, pendingIn_iff] at hpx ⊢
      exact ⟨hwaits, hxy hpx.2.1, hboard⟩
  · unfold State.pending
    split
    · next hsome =>
      rw [State.waiting, List.filter_filter, List.filter_map]
      congr 1
      refine List.filter_congr fun x _ => ?_
      rw [Bool.eq_iff_iff]
      simp only [Function.comp_apply, hsome, Bool.true_and, Bool.and_eq_true, beq_iff_eq,
        pendingIn_iff]
      tauto
    · next hsome => simp [hsome]

/-- The row that is staged. -/
def stagedRow (s : State) (sid : ScoreId) (sc : Score) (previousId : Option UserId) :
    SomsActivity where
  scoreId := sid
  actorId := sc.userId
  previousId := previousId
  board := sc.board
  room := sc.room
  announcement := some ⟨sc.board, sc.userId, previousId⟩
  createdAt := s.now

/-- The player whom the announcement names. -/
def State.previousOf (s : State) (sc : Score) (previous : Option (ScoreId × UserId)) :
    Option UserId :=
  match s.pending sc with
  | [] => previous.map Prod.snd
  | first :: _ => first.previousId

@[simp] theorem stagedRow_board {previousId : Option UserId} :
    (stagedRow s sid sc previousId).board = sc.board := rfl

theorem stageFirstPlace_of_ne {previous : Option (ScoreId × UserId)}
    (h : ∀ w, s.currentWinner sc.board = some w → w.1 ≠ sid) :
    s.stageFirstPlace sid sc previous = s := by
  unfold State.stageFirstPlace
  split
  · rfl
  · next winner user hw => rw [if_pos (.inl (h _ hw))]

theorem stageFirstPlace_of_winner {previous : Option (ScoreId × UserId)} {user : UserId}
    (h : s.currentWinner sc.board = some (sid, user))
    (hnew : ∀ i a, s.activities.row i = some a → a.scoreId ≠ sid) :
    s.stageFirstPlace sid sc previous = if s.previousOf sc previous = some sc.userId then
        s.collapse sc
      else { s.collapse sc with
        activities := (s.collapse sc).activities.insert <|
          stagedRow s sid sc (s.previousOf sc previous) } := by
  have hfind : (s.activities.find fun a => a.scoreId == sid).isSome = false := by
    cases hrow : s.activities.find fun a => a.scoreId == sid with
    | none => rfl
    | some x =>
      obtain ⟨hx, hkey⟩ := Table.find_some hrow
      exact absurd (beq_iff_eq.mp hkey) (hnew x.1 x.2 hx)
  have hnow : (s.collapse sc).now = s.now := by rw [collapse_eq]
  unfold State.stageFirstPlace
  rw [h]
  simp only [ne_eq, not_true_eq_false, hfind, Bool.false_eq_true, or_self, if_false, hnow]
  rfl

theorem waiting_insert {a : SomsActivity} (ha : a.waits = true) :
    { s with activities := s.activities.insert a }.waiting b =
      s.waiting b ++ if a.board = b then [(s.activities.next, a)] else [] := by
  rw [State.waiting, Table.toList_insert, List.filter_append, State.waiting]
  congr 1
  by_cases hb : a.board = b <;> simp [ha, hb]

/-! ## Processing -/

/-- The score is processed and has its place on the leaderboard. -/
structure Taken (s t : State) (sid : ScoreId) (sc : Score) : Prop where
  activities : t.activities = s.activities
  messages : t.messages = s.messages
  workers : t.workers = s.workers
  scores : ∀ j x, s.scores.row j = some x → j ≠ sid → t.scores.row j = some x
  self : t.scores.row sid = some { sc with processed := true }
  best : t.best = (s.processStatistics sid sc).best

theorem Linked.best_ne (h : Linked s) (hsc : s.scores.row sid = some sc)
    (hproc : sc.processed = false) {x : UserId × Scores.BestRow} (hx : x ∈ s.best b) :
    x.2.scoreId ≠ sid := by
  obtain ⟨scx, hscx, hp, -⟩ := h.best b x hx
  rintro hid
  rw [hid, hsc] at hscx
  obtain rfl := Option.some.inj hscx
  rw [hproc] at hp
  exact absurd hp Bool.false_ne_true

theorem Taken.sound (ht : Taken s t sid sc) (h : Linked s) (hc : s.Consistent sc)
    (hsc : s.scores.row sid = some sc) (hproc : sc.processed = false) : Sound t where
  best b x hx := by
    have hold : x ∈ s.best b → ∃ sc, t.scores.row x.2.scoreId = some sc ∧ sc.processed = true ∧
        sc.totalScore = x.2.totalScore ∧ sc.userId = x.1 := by
      intro hxold
      obtain ⟨scx, hscx, hrest⟩ := h.best b x hxold
      exact ⟨scx, ht.scores _ _ hscx (h.best_ne hsc hproc hxold), hrest⟩
    rw [ht.best] at hx
    by_cases hb : b = sc.board
    · subst hb
      rcases (best_processStatistics h.toSound hc).1 x hx with hxold | ⟨-, huser, hid, htotal⟩
      · exact hold hxold
      · exact ⟨{ sc with processed := true }, hid ▸ ht.self, rfl, htotal.symm, huser.symm⟩
    · rw [best_processStatistics_of_ne hb] at hx
      exact hold hx
  keys i a ha := by
    rw [ht.activities] at ha
    obtain ⟨x, hx, hp⟩ := h.keys i a ha
    by_cases hid : a.scoreId = sid
    · exact ⟨_, hid ▸ ht.self, rfl⟩
    · exact ⟨x, ht.scores _ _ hx hid, hp⟩
  texts := ht.activities ▸ h.texts
  once i a ha := by
    rw [ht.activities] at ha
    rw [State.messageIds, ht.messages]
    exact h.once i a ha
  fresh := ht.activities ▸ ht.messages ▸ h.fresh
  posted := ht.activities ▸ h.posted
  marking := ht.activities ▸ ht.workers ▸ h.marking

theorem Sound.collapse (h : Sound s) : Sound (s.collapse sc) := by
  have hrow : ∀ i c, (s.collapse sc).activities.row i = some c →
      ∃ a, s.activities.row i = some a ∧ c = a.collapsed sc := by
    intro i c hcrow
    rw [collapse_eq] at hcrow
    simp only [Table.row_map, Option.map_eq_some_iff] at hcrow
    obtain ⟨a, ha, rfl⟩ := hcrow
    exact ⟨a, ha, rfl⟩
  have hmessages : (s.collapse sc).messages = s.messages := by rw [collapse_eq]
  have hscores : (s.collapse sc).scores = s.scores := by rw [collapse_eq]
  exact {
    best := by
      rw [hscores, collapse_eq]
      exact h.best
    keys := fun i c hcrow => by
      obtain ⟨a, ha, rfl⟩ := hrow i c hcrow
      rw [hscores, collapsed_scoreId]
      exact h.keys i a ha
    texts := fun i c hcrow hdel => by
      obtain ⟨a, ha, rfl⟩ := hrow i c hcrow
      unfold SomsActivity.collapsed at hdel ⊢
      split
      · next hp => simp [hp] at hdel
      · next hp =>
        rw [if_neg hp] at hdel
        exact h.texts i a ha hdel
    once := fun i c hcrow => by
      obtain ⟨a, ha, rfl⟩ := hrow i c hcrow
      rw [State.messageIds, hmessages, collapsed_chatMessageId]
      exact h.once i a ha
    fresh := by
      rw [hmessages, collapse_eq]
      exact h.fresh
    posted := fun i c hcrow hdel hann => by
      obtain ⟨a, ha, rfl⟩ := hrow i c hcrow
      rw [collapsed_chatMessageId]
      unfold SomsActivity.collapsed at hdel hann
      split at hann
      · exact absurd hann Bool.false_ne_true
      · next hp =>
        rw [if_neg hp] at hdel
        exact h.posted i a ha hdel hann
    marking := fun w i hw => by
      rw [collapse_eq] at hw ⊢
      obtain ⟨a, ha, hm⟩ := h.marking w i hw
      exact ⟨a.collapsed sc, by simp [ha], by rw [collapsed_chatMessageId]; exact hm⟩ }

theorem Sound.insert (h : Sound s) (u : State) {previousId : Option UserId}
    (hsc : ∃ x, s.scores.row sid = some x ∧ x.processed = true) :
    Sound { s with
      activities := s.activities.insert (stagedRow u sid sc previousId) } := by
  have hrow : ∀ i c, (s.activities.insert (stagedRow u sid sc previousId)).row i = some c →
      i = s.activities.next ∧ c = stagedRow u sid sc previousId ∨
        s.activities.row i = some c := by
    intro i c hcrow
    rw [Table.row_insert] at hcrow
    split at hcrow
    · next hi => exact .inl ⟨hi, (Option.some.inj hcrow).symm⟩
    · exact .inr hcrow
  exact {
    best := h.best
    keys := fun i c hcrow => by
      rcases hrow i c hcrow with ⟨-, rfl⟩ | ha
      · exact hsc
      · exact h.keys i c ha
    texts := fun i c hcrow hdel => by
      rcases hrow i c hcrow with ⟨-, rfl⟩ | ha
      · rfl
      · exact h.texts i c ha hdel
    once := fun i c hcrow => by
      rcases hrow i c hcrow with ⟨rfl, rfl⟩ | ha
      · have hnone : s.messages.filter (fun m => m.activityId == s.activities.next) = [] := by
          rw [List.filter_eq_nil_iff]
          intro m hm
          simpa using Nat.ne_of_lt (h.fresh m hm)
        simp [State.messageIds, hnone, stagedRow]
      · exact h.once i c ha
    fresh := fun m hm => Nat.lt_succ_of_lt (h.fresh m hm)
    posted := fun i c hcrow hdel => by
      rcases hrow i c hcrow with ⟨-, rfl⟩ | ha
      · exact absurd hdel Bool.false_ne_true
      · exact h.posted i c ha hdel
    marking := fun w i hw => by
      obtain ⟨a, ha, hm⟩ := h.marking w i hw
      exact ⟨a, Table.row_insert_of_some ha, hm⟩ }

theorem Taken.waiting (ht : Taken s t sid sc) : t.waiting b = s.waiting b := by
  rw [State.waiting, State.waiting, ht.activities]

theorem Taken.announced (ht : Taken s t sid sc) : t.announced b = s.announced b := by
  rw [State.announced, State.announced, ht.messages]

theorem Taken.currentWinner (ht : Taken s t sid sc) :
    t.currentWinner b = (s.processStatistics sid sc).currentWinner b := by
  rw [State.currentWinner, State.currentWinner, ht.best]

theorem Taken.holder_of_ne (ht : Taken s t sid sc) (hb : b ≠ sc.board) :
    t.holder b = s.holder b := by
  rw [State.holder, State.holder, ht.currentWinner, State.currentWinner,
    best_processStatistics_of_ne hb]
  rfl

theorem announced_collapse : (s.collapse sc).announced b = s.announced b := by
  rw [collapse_eq]
  rfl

theorem holder_collapse : (s.collapse sc).holder b = s.holder b := by
  rw [collapse_eq]
  rfl

/-- The story without what the score replaces leads to the player whom the score names. -/
theorem leads_previousOf (h : Linked s) (ht : Taken s t sid sc)
    (hroom : sc.room.isSome = true → (s.waiting sc.board).Pairwise fun x y =>
      x.2.room = sc.room → y.2.room = sc.room) :
    Leads Announcement.previousId Announcement.actorId none
      (s.announced sc.board ++ (s.kept sc sc.board).map fun x => x.2.content)
      (t.previousOf sc (s.currentWinner sc.board)) := by
  obtain ⟨replaced, hwaiting, hpending⟩ := waiting_eq_kept hroom
  have hsame : t.pending sc = s.pending sc := by rw [State.pending, State.pending, ht.activities]
  have hstory := h.story sc.board
  rw [State.story, hwaiting, List.map_append, ← List.append_assoc] at hstory
  rw [State.previousOf, hsame, hpending]
  cases replaced with
  | nil =>
    rw [List.map_nil, List.append_nil] at hstory
    exact hstory
  | cons x rest => exact hstory.of_append

/-- A score is processed. -/
theorem Taken.linked_stage (ht : Taken s t sid sc) (h : Linked s) (hc : s.Consistent sc)
    (hroom : sc.room.isSome = true → s.Tops sid sc → (s.waiting sc.board).Pairwise fun x y =>
      x.2.room = sc.room → y.2.room = sc.room)
    (hsc : s.scores.row sid = some sc) (hproc : sc.processed = false) :
    Linked (t.stageFirstPlace sid sc (s.currentWinner sc.board)) := by
  have hsound := ht.sound h hc hsc hproc
  rcases currentWinner_processStatistics h.toSound hc fun x hx => h.best_ne hsc hproc hx with
    hwas | ⟨hwins, htops⟩
  · rw [← ht.currentWinner] at hwas
    rw [stageFirstPlace_of_ne]
    · refine ⟨hsound, fun b => ?_⟩
      have hholder : t.holder b = s.holder b := by
        by_cases hb : b = sc.board
        · rw [hb, State.holder, hwas]
        · exact ht.holder_of_ne hb
      rw [State.story, ht.announced, ht.waiting, ← State.holder, hholder]
      exact h.story b
    · rw [hwas]
      intro w hw
      obtain ⟨x, hx, hid, -⟩ := currentWinner_eq_some.mp hw
      exact hid ▸ h.best_ne hsc hproc (top_spec hx).1
  · rw [← ht.currentWinner] at hwins
    have hkeys : ∀ i a, t.activities.row i = some a → a.scoreId ≠ sid := by
      intro i a ha hid
      obtain ⟨x, hx, hp⟩ := h.keys i a (ht.activities ▸ ha)
      rw [hid, hsc] at hx
      obtain rfl := Option.some.inj hx
      exact absurd (hproc.symm.trans hp) Bool.false_ne_true
    have hkept : ∀ b, t.kept sc b = s.kept sc b := fun b => by
      rw [State.kept, State.kept, ht.waiting]
    have hleads := leads_previousOf h ht fun hsome => hroom hsome htops
    have hcollapsed : Sound (t.collapse sc) := hsound.collapse
    rw [stageFirstPlace_of_winner hwins hkeys]
    split
    · next hsame =>
      refine ⟨hcollapsed, fun b => ?_⟩
      rw [State.story, announced_collapse, ht.announced, waiting_collapse, hkept]
      by_cases hb : b = sc.board
      · rw [hb, ← State.holder, holder_collapse, State.holder, hwins, Option.map_some, ← hsame]
        exact hleads
      · rw [← State.holder, holder_collapse, ht.holder_of_ne hb, kept_of_ne hb]
        exact h.story b
    · have hself : ∃ x, (t.collapse sc).scores.row sid = some x ∧ x.processed = true := by
        rw [collapse_eq]
        exact ⟨_, ht.self, rfl⟩
      refine ⟨hcollapsed.insert t hself, fun b => ?_⟩
      rw [State.story, waiting_insert rfl, waiting_collapse, hkept, stagedRow_board]
      change Leads _ _ none ((t.collapse sc).announced b ++ _) ((t.collapse sc).holder b)
      rw [announced_collapse, ht.announced, holder_collapse]
      by_cases hb : b = sc.board
      · rw [hb, if_pos rfl, State.holder, hwins, List.map_append, ← List.append_assoc]
        exact hleads.concat rfl
      · rw [if_neg (Ne.symm hb), List.append_nil, ht.holder_of_ne hb, kept_of_ne hb]
        exact h.story b

theorem taken_processScore (hsc : s.scores.row sid = some sc) :
    Taken s { s.processStatistics sid sc with
      scores := (s.processStatistics sid sc).scores.modify sid
        fun sc => { sc with processed := true } } sid sc := by
  have hframe : (s.processStatistics sid sc).activities = s.activities ∧
      (s.processStatistics sid sc).messages = s.messages ∧
      (s.processStatistics sid sc).workers = s.workers ∧
      (s.processStatistics sid sc).scores = s.scores := by
    unfold State.processStatistics
    split <;> exact ⟨rfl, rfl, rfl, rfl⟩
  obtain ⟨hactivities, hmessages, hworkers, hscores⟩ := hframe
  refine ⟨hactivities, hmessages, hworkers, fun j x hx hj => ?_, ?_, rfl⟩
  · simp [hscores, hj, hx]
  · simp [hscores, hsc]

theorem Linked.processScore (h : Linked s) (hcond : InOrder s (.process sid)) :
    Linked (s.processScore sid) := by
  unfold State.processScore
  split
  · exact h
  · next sc hsc =>
    split
    · exact h
    · next hproc =>
      rw [Bool.not_eq_true] at hproc
      obtain ⟨hc, hroom⟩ := hcond sc hsc hproc
      exact (taken_processScore hsc).linked_stage h hc hroom hsc hproc

/-! ## Delivery -/

theorem candidate_spec {lastSeen : ActivityId} {locked : List ActivityId}
    (h : s.candidate lastSeen locked = some (i, a)) :
    s.activities.row i = some a ∧ a.delivered = false := by
  have hmem := List.mem_of_find?_eq_some h
  have hp := List.find?_some h
  simp only [Bool.and_eq_true, Bool.not_eq_true'] at hp
  exact ⟨Table.mem_toList.mp hmem, hp.1.1.1⟩

/-- The message of a row that has one is found. -/
theorem post_of_some (h : Linked s) (ha : s.activities.row i = some a) {m : MessageId}
    (hm : a.chatMessageId = some m) : s.post i a = s := by
  have hids := h.once i a ha
  rw [hm] at hids
  obtain ⟨message, hmessage, hid⟩ : ∃ message ∈ s.messages, message.messageId = m := by
    have hmem : m ∈ s.messageIds i := by simp [hids]
    obtain ⟨message, hmessage, hid⟩ := List.mem_map.mp hmem
    exact ⟨message, (List.mem_filter.mp hmessage).1, hid⟩
  unfold State.post
  rw [hm, Option.bind_some]
  split
  · rfl
  · next hnone =>
    have := List.find?_eq_none.mp hnone message hmessage
    simp [hid] at this

/-- The state once the row has a new message. -/
def State.withMessage (s : State) (i : ActivityId) (content : Announcement) : State :=
  { s with
    counter := s.counter + 1
    messages := s.messages ++ [⟨s.counter + 1, i, content⟩]
    activities := s.activities.modify i fun a => { a with chatMessageId := some (s.counter + 1) } }

theorem post_of_none (h : Linked s) (ha : s.activities.row i = some a) (hdel : a.delivered = false)
    (hm : a.chatMessageId = none) : s.post i a = s.withMessage i a.content := by
  unfold State.post
  rw [hm, Option.bind_none, h.texts i a ha hdel]
  rfl

/-- A change of one row that keeps what the row says. -/
theorem row_of_modify {f : SomsActivity → SomsActivity} {j : ActivityId} {c : SomsActivity}
    (ha : s.activities.row i = some a) (hc : (s.activities.modify i f).row j = some c) :
    j = i ∧ c = f a ∨ j ≠ i ∧ s.activities.row j = some c := by
  rw [Table.row_modify] at hc
  split at hc
  · next hj =>
    subst hj
    rw [ha] at hc
    exact .inl ⟨rfl, (Option.some.inj hc).symm⟩
  · next hj => exact .inr ⟨hj, hc⟩

/-- A row with a message does not wait. -/
theorem waiting_modify {f : SomsActivity → SomsActivity} (ha : s.activities.row i = some a)
    (hf : (f a).waits = false) :
    { s with activities := s.activities.modify i f }.waiting b =
      (s.waiting b).filter fun x => !decide (x.1 = i) := by
  rw [State.waiting, Table.toList_modify, State.waiting]
  refine filter_map_of_dropped (fun x hx hxi => ?_) fun x _ hxi => if_neg (by simpa using hxi)
  obtain ⟨j, c⟩ := x
  obtain rfl : j = i := of_decide_eq_true hxi
  have hc := Table.mem_toList.mp hx
  rw [ha] at hc
  obtain rfl := Option.some.inj hc
  simp [hf]

theorem messageIds_withMessage {content : Announcement} {j : ActivityId} :
    (s.withMessage i content).messageIds j =
      s.messageIds j ++ if i = j then [s.counter + 1] else [] := by
  rw [State.messageIds, State.withMessage, List.filter_append, List.map_append, State.messageIds]
  by_cases hij : i = j <;> simp [hij]

theorem Sound.post (h : Linked s) (ha : s.activities.row i = some a) (hdel : a.delivered = false)
    (hm : a.chatMessageId = none) : Sound (s.post i a) := by
  rw [post_of_none h ha hdel hm]
  exact {
    best := h.best
    keys := fun j c hc => by
      rcases row_of_modify ha hc with ⟨-, rfl⟩ | ⟨-, hc⟩
      · exact h.keys i a ha
      · exact h.keys j c hc
    texts := fun j c hc hcdel => by
      rcases row_of_modify ha hc with ⟨-, rfl⟩ | ⟨-, hc⟩
      · exact h.texts i a ha hcdel
      · exact h.texts j c hc hcdel
    once := fun j c hc => by
      rw [messageIds_withMessage]
      rcases row_of_modify ha hc with ⟨rfl, rfl⟩ | ⟨hj, hc⟩
      · rw [h.once j a ha, hm, if_pos rfl]
        rfl
      · rw [if_neg (Ne.symm hj), List.append_nil]
        exact h.once j c hc
    fresh := fun m hmem => by
      rcases List.mem_append.mp hmem with hmem | hmem
      · exact h.fresh m hmem
      · obtain rfl := List.mem_singleton.mp hmem
        exact Table.lt_next (t := s.activities) ha
    posted := fun j c hc hcdel hann => by
      rcases row_of_modify ha hc with ⟨-, rfl⟩ | ⟨-, hc⟩
      · rfl
      · exact h.posted j c hc hcdel hann
    marking := fun w j hw => by
      obtain ⟨c, hc, hcm⟩ := h.marking w j hw
      by_cases hj : j = i
      · subst hj
        exact ⟨{ a with chatMessageId := some (s.counter + 1) }, by simp [State.withMessage, ha],
          rfl⟩
      · exact ⟨c, by simp [State.withMessage, hj, hc], hcm⟩ }

theorem announced_withMessage {content : Announcement} : (s.withMessage i content).announced b =
    s.announced b ++ if content.board = b then [content] else [] := by
  rw [State.announced, State.withMessage, List.map_append, List.filter_append, State.announced]
  by_cases hb : content.board = b <;> simp [hb]

/-- The first that waits gets its message: it comes behind those that were made. -/
theorem story_withMessage (ha : s.activities.row i = some a)
    (hhead : (s.waiting a.board).head? = some (i, a)) :
    (s.withMessage i a.content).story b = s.story b := by
  have hwaiting : (s.withMessage i a.content).waiting b =
      (s.waiting b).filter fun x => !decide (x.1 = i) :=
    waiting_modify ha (by simp [SomsActivity.waits])
  rw [State.story, announced_withMessage, hwaiting, State.story]
  by_cases hb : a.board = b
  · subst hb
    obtain ⟨rest, hrest⟩ := List.head?_eq_some_iff.mp hhead
    have hkeys : ∀ x ∈ rest, x.1 ≠ i := by
      have hnodup : ((s.waiting a.board).map Prod.fst).Nodup :=
        s.activities.nodup_toList.sublist (List.filter_sublist.map Prod.fst)
      rw [hrest, List.map_cons, List.nodup_cons] at hnodup
      rintro x hx rfl
      exact hnodup.1 (List.mem_map.mpr ⟨x, hx, rfl⟩)
    have hrestKept : rest.filter (fun x => !decide (x.1 = i)) = rest :=
      List.filter_eq_self.mpr fun x hx => by simpa using hkeys x hx
    rw [hrest, List.filter_cons_of_neg (by simp), hrestKept,
      if_pos (show a.content.board = a.board from rfl), List.map_cons, List.append_assoc]
    rfl
  · have hsame : (s.waiting b).filter (fun x => !decide (x.1 = i)) = s.waiting b := by
      refine List.filter_eq_self.mpr fun x hx => ?_
      obtain ⟨hrow, -, hboard⟩ := mem_waiting.mp hx
      have hne : x.1 ≠ i := by
        rintro rfl
        rw [ha] at hrow
        exact hb (Option.some.inj hrow ▸ hboard)
      simpa using hne
    rw [hsame, if_neg (show ¬ a.content.board = b from hb), List.append_nil]

theorem Linked.post (h : Linked s) (ha : s.activities.row i = some a) (hdel : a.delivered = false)
    (hhead : a.chatMessageId = none → (s.waiting a.board).head? = some (i, a)) :
    Linked (s.post i a) := by
  cases hm : a.chatMessageId with
  | some m =>
    rw [post_of_some h ha hm]
    exact h
  | none =>
    refine ⟨Sound.post h ha hdel hm, fun b => ?_⟩
    rw [post_of_none h ha hdel hm, story_withMessage ha (hhead hm)]
    exact h.story b

/-- A row that has its message is marked. -/
theorem Linked.mark (h : Linked s) {w : WorkerId} : Linked (s.mark w) := by
  unfold State.mark
  split
  · next i hw =>
    obtain ⟨a, ha, hm⟩ := h.marking w i hw
    have hwaits : ∀ b, ({ s with
        activities := s.activities.modify i fun a => { a with delivered := true } } :
          State).waiting b = s.waiting b := fun b => by
      rw [waiting_modify ha (by simp [SomsActivity.waits])]
      refine List.filter_eq_self.mpr fun x hx => ?_
      obtain ⟨hrow, hxwaits, -⟩ := mem_waiting.mp hx
      have hne : x.1 ≠ i := by
        rintro rfl
        rw [ha] at hrow
        obtain rfl := Option.some.inj hrow
        simp [SomsActivity.waits, Option.isNone_iff_eq_none, Option.isSome_iff_ne_none.mp hm]
          at hxwaits
      simpa using hne
    have hmarked : Linked { s with
        activities := s.activities.modify i fun a => { a with delivered := true } } := by
      refine ⟨?_, fun b => ?_⟩
      · exact {
          best := h.best
          keys := fun j c hc => by
            rcases row_of_modify ha hc with ⟨-, rfl⟩ | ⟨-, hc⟩
            · exact h.keys i a ha
            · exact h.keys j c hc
          texts := fun j c hc hcdel => by
            rcases row_of_modify ha hc with ⟨-, rfl⟩ | ⟨-, hc⟩
            · exact absurd hcdel (by simp)
            · exact h.texts j c hc hcdel
          once := fun j c hc => by
            rcases row_of_modify ha hc with ⟨rfl, rfl⟩ | ⟨-, hc⟩
            · exact h.once j a ha
            · exact h.once j c hc
          fresh := h.fresh
          posted := fun j c hc hcdel hann => by
            rcases row_of_modify ha hc with ⟨-, rfl⟩ | ⟨-, hc⟩
            · exact hm
            · exact h.posted j c hc hcdel hann
          marking := fun w j hw => by
            obtain ⟨c, hc, hcm⟩ := h.marking w j hw
            by_cases hj : j = i
            · subst hj
              rw [ha] at hc
              obtain rfl := Option.some.inj hc
              exact ⟨{ a with delivered := true }, by simp [ha], hcm⟩
            · exact ⟨c, by simp [hj, hc], hcm⟩ }
      · rw [State.story, hwaits]
        exact h.story b
    refine hmarked.setWorker fun j hj => ?_
    exact absurd hj (by simp)
  · exact h

theorem Linked.next (h : Linked s) {w : WorkerId} {locked : List ActivityId}
    (hcond : InOrder s (.next w locked)) : Linked (s.next w locked) := by
  unfold State.next
  split
  · next lastSeen hw =>
    split
    · exact h.setWorker fun _ hp => absurd hp (by simp)
    · next i a hcandidate =>
      split
      · next hready =>
        obtain ⟨ha, hdel⟩ := candidate_spec hcandidate
        have hposted := h.post ha hdel fun hm => hcond lastSeen i a hw hcandidate hready hm
        refine hposted.setWorker fun j hj => ?_
        obtain rfl := Phase.posted.inj hj
        cases hm : a.chatMessageId with
        | some m =>
          rw [post_of_some h ha hm]
          exact ⟨a, ha, by rw [hm]; rfl⟩
        | none =>
          rw [post_of_none h ha hdel hm]
          exact ⟨{ a with chatMessageId := some (s.counter + 1) }, by simp [State.withMessage, ha],
            rfl⟩
      · exact h.setWorker fun _ hp => absurd hp (by simp)
  · exact h

/-! ## Runs -/

theorem linked_empty : Linked State.empty where
  best b x hx := absurd hx List.not_mem_nil
  keys i a ha := absurd ha (by simp [State.empty])
  texts i a ha := absurd ha (by simp [State.empty])
  once i a ha := absurd ha (by simp [State.empty])
  fresh m hm := absurd hm List.not_mem_nil
  posted i a ha := absurd ha (by simp [State.empty])
  marking w i hw := absurd hw (by simp [State.empty])
  story b := rfl

theorem Linked.after (h : Linked s) {e : Event} (hcond : InOrder s e) : Linked (s.after e) := by
  cases e with
  | submit sc =>
    exact h.frame rfl rfl rfl (fun _ _ hrow => Table.row_insert_of_some hrow) h.marking
  | process sid => exact h.processScore hcond
  | setMatch room m => exact h.frame rfl rfl rfl (fun _ _ hrow => hrow) h.marking
  | tick seconds => exact h.frame rfl rfl rfl (fun _ _ hrow => hrow) h.marking
  | start w =>
    simp only [State.after]
    split
    · exact h.setWorker fun _ hp => absurd hp (by simp)
    · exact h
  | next w locked => exact h.next hcond
  | mark w => exact h.mark
  | stop w => exact h.setWorker fun _ hp => absurd hp (by simp)
  | takeId => exact h.frame rfl rfl rfl (fun _ _ hrow => hrow) h.marking

/-- In every run that keeps the order, the announcements of a board form a chain and each has one
message. -/
theorem first_places_chained (h : Run Step InOrder State.empty s) : Announced s := by
  refine (h.invariant (I := Linked) ?_ linked_empty).announced
  rintro s e t hs hcond ⟨⟩
  exact hs.after hcond

def firstScore : Score where
  userId := 1
  board := (10, .osu)
  totalScore := 100
  displayScore := 100

def betterScore : Score := { firstScore with userId := 2, totalScore := 200, displayScore := 200 }

/-- Two scores outside any room, each announced before the next one is processed. -/
def twoAnnounced : List Event :=
  [.next 0 [], .mark 0, .process 2, .submit betterScore, .next 0 [], .start 0, .process 1,
    .submit firstScore]

theorem first_places_chained_twice :
    Announced (endState State.empty (historyOf State.after State.empty twoAnnounced)) := by
  have hsolo : ∀ {s : State} {sid sc}, s.scores.row sid = some sc → sc.room = none →
      (∀ row ∈ s.userRows sc.board sc.userId, row.totalScore < sc.totalScore) →
      InOrder s (.process sid) := by
    intro s sid sc hsc hroom hrows sc' hsc' _
    rw [hsc] at hsc'
    obtain rfl := Option.some.inj hsc'
    refine ⟨fun row hrow _ => hrows row (highest_spec hrow).1, fun hsome => ?_⟩
    rw [hroom] at hsome
    exact absurd hsome Bool.false_ne_true
  have hfirst : ∀ {s : State} {lastSeen x}, s.workers 0 = .scanning lastSeen →
      s.candidate lastSeen [] = some x → (s.waiting x.2.board).head? = some x →
      InOrder s (.next 0 []) := by
    intro s lastSeen x hw hx hhead lastSeen' i a hw' hcandidate _ _
    obtain rfl := Phase.scanning.inj (hw.symm.trans hw')
    obtain rfl := Option.some.inj (hx.symm.trans hcandidate)
    exact hhead
  refine first_places_chained (run_historyOf _ _ Step.mk ?_)
  refine ⟨⟨⟨⟨⟨⟨⟨⟨trivial, trivial⟩, ?_⟩, trivial⟩, ?_⟩, trivial⟩, ?_⟩, trivial⟩, ?_⟩
  · exact hsolo rfl rfl (by decide +kernel)
  · exact hfirst rfl rfl (by decide +kernel)
  · exact hsolo rfl rfl (by decide +kernel)
  · exact hfirst rfl rfl (by decide +kernel)

/-- A score of a room takes the first place.  Another player's score takes it and is announced at
once, as the first place that was held by the player of the room, who is announced later. -/
def heldBack : List Event :=
  [.next 0 [], .start 0, .stop 0, .tick 200, .mark 0, .next 0 [], .next 0 [], .start 0, .process 2,
    .submit betterScore, .process 1, .submit { firstScore with room := some (7, 1) }]

theorem held_back_not_chained : ∃ s, Run Step (fun _ _ => True) State.empty s ∧ ¬ Announced s := by
  refine ⟨_, run_historyOf State.empty heldBack Step.mk ?_, fun h => ?_⟩
  · simp [heldBack, historyOf, Every]
  · exact absurd (h.chained (10, .osu)) (by decide +kernel)

end Soms.Activity

import Mathlib.Data.List.Induction
import Soms.Chat.Server

/-!
# What is read of the history of a channel

`get_message` reads Redis and fills up from the table. The rows of the backfill go in front of the
newer messages with the newest of them first, so the answer is the one of the table only where
Redis has all of it, none of it, or the newest message of two.
-/

namespace Soms.Chat

/-- All messages of the channel are in the table, and Redis holds some of them. -/
structure Mirrors (known : UserId → Bool) (c : ChannelId) (st : Store) : Prop where
  nodup : ((st.rowsOf c).map (·.messageId)).Nodup
  senders : ∀ m ∈ st.rowsOf c, known m.senderId = true
  sorted : (st.recent c).Pairwise (· < ·)
  recent : ∀ id ∈ st.recent c, id ∈ (st.rowsOf c).map (·.messageId)
  entry : ∀ id m, st.entry c id = some m → m ∈ st.rowsOf c ∧ m.messageId = id

/-- The message is in the index of the channel, and its key has not expired. -/
def InRedis (c : ChannelId) (st : Store) (id : MessageId) : Prop :=
  id ∈ st.recent c ∧ (st.entry c id).isSome

instance (c : ChannelId) (st : Store) (id : MessageId) : Decidable (InRedis c st id) :=
  inferInstanceAs (Decidable (_ ∧ _))

/-- The answer of `get_message` where nothing fails. -/
def answer (known : UserId → Bool) (c : ChannelId) (limit : Nat) (since : MessageId)
    (st : Store) : List ChatMessage :=
  chronological (st.getMessages known {} c limit since)

/-- `get_message` gives this answer. -/
theorem getMessage_answer {s : Server} {c : ChannelId} {row : ChatChannel} {ref : ChannelRef}
    (hc : s.channelOf ref = some (c, row)) (uid : UserId) (limit : Nat) (since : MessageId) :
    getMessage uid ref limit since {} s = (.ok (.messages
      (answer (fun uid => (s.users uid).isSome) c limit since s.store)), s) := by
  refine (Txn.bind_require_of_some (g := fun s => Server.channelOf s ref) hc).trans ?_
  exact Txn.bind_refuse_of_not (by simp [Coroutine.isFalse])

/-- The messages of the channel from old to new. -/
def history (c : ChannelId) (st : Store) : List ChatMessage := byId (st.rowsOf c)

/-! ## Lists in the order of the ids -/

/-- A sublist that has the first elements of a list begins with them. -/
theorem take_of_sublist {α : Type} {l l' : List α} (h : l.Sublist l') (hnodup : l'.Nodup)
    (n : Nat) (hmem : ∀ a ∈ l'.take n, a ∈ l) : l.take n = l'.take n := by
  induction h generalizing n with
  | slnil => rfl
  | @cons l l' a h _ =>
    cases n with
    | zero => rfl
    | succ n =>
      have ha : a ∈ l := hmem a (by simp)
      exact absurd (h.subset ha) (List.nodup_cons.mp hnodup).1
  | @cons_cons l l' a h ih =>
    cases n with
    | zero => rfl
    | succ n =>
      rw [List.take_succ_cons, List.take_succ_cons]
      congr 1
      apply ih (List.nodup_cons.mp hnodup).2
      intro b hb
      have hb' : b ∈ a :: l := hmem b (by rw [List.take_succ_cons]; exact List.mem_cons_of_mem _ hb)
      rcases List.mem_cons.mp hb' with rfl | hb'
      · exact absurd (List.mem_of_mem_take hb) (List.nodup_cons.mp hnodup).1
      · exact hb'

/-- From old to new. -/
def Ascending (ms : List ChatMessage) : Prop := ms.Pairwise fun a b => a.messageId < b.messageId

theorem Ascending.nodup {ms : List ChatMessage} (h : Ascending ms) :
    (ms.map (·.messageId)).Nodup := by
  rw [List.Nodup, List.pairwise_map]
  exact h.imp fun hlt => Nat.ne_of_lt hlt

theorem byId_ascending {ms : List ChatMessage} (h : (ms.map (·.messageId)).Nodup) :
    Ascending (byId ms) := by
  have hperm : (byId ms).Perm ms := List.perm_insertionSort _ ms
  have hsorted : (byId ms).Pairwise fun a b => a.messageId ≤ b.messageId :=
    List.pairwise_insertionSort _ ms
  have hnodup : (byId ms).Pairwise fun a b => a.messageId ≠ b.messageId :=
    List.pairwise_map.mp ((hperm.map _).nodup_iff.mpr h)
  exact (hsorted.and hnodup).imp fun hab => Nat.lt_of_le_of_ne hab.1 hab.2

/-- Messages in the order of their ids are determined by which they are. -/
theorem Ascending.eq_of_perm {ms ms' : List ChatMessage} (h : Ascending ms) (h' : Ascending ms')
    (hperm : ms.Perm ms') : ms = ms' := by
  exact hperm.eq_of_pairwise (fun a b _ _ hab hba => absurd hab (Nat.lt_asymm hba)) h h'

theorem byId_of_ascending {ms : List ChatMessage} (h : Ascending ms) : byId ms = ms :=
  List.Pairwise.insertionSort_eq (h.imp fun hlt => Nat.le_of_lt hlt)

theorem byId_reverse {ms : List ChatMessage} (h : Ascending ms) : byId ms.reverse = ms := by
  have hperm : (byId ms.reverse).Perm ms :=
    (List.perm_insertionSort _ ms.reverse).trans (List.reverse_perm ms)
  have hnodup : (ms.reverse.map (·.messageId)).Nodup := by
    rw [List.map_reverse, List.nodup_reverse]
    exact h.nodup
  exact (byId_ascending hnodup).eq_of_perm h hperm

theorem byIdDesc_eq {ms : List ChatMessage} (h : (ms.map (·.messageId)).Nodup) :
    byIdDesc ms = (byId ms).reverse := by
  have hperm : (byIdDesc ms).reverse.Perm (byId ms) :=
    (List.reverse_perm _).trans
      ((List.perm_insertionSort _ ms).trans (List.perm_insertionSort _ ms).symm)
  have hdesc : (byIdDesc ms).Pairwise fun a b => b.messageId ≤ a.messageId :=
    List.pairwise_insertionSort _ ms
  have hnodup : (byIdDesc ms).reverse.Pairwise fun a b => a.messageId ≠ b.messageId :=
    List.pairwise_map.mp ((hperm.map _).nodup_iff.mpr (byId_ascending h).nodup)
  have hascending : Ascending (byIdDesc ms).reverse :=
    ((List.pairwise_reverse.mpr hdesc).and hnodup).imp fun hab => Nat.lt_of_le_of_ne hab.1 hab.2
  rw [← hascending.eq_of_perm (byId_ascending h) hperm, List.reverse_reverse]

theorem byId_filter {ms : List ChatMessage} (h : (ms.map (·.messageId)).Nodup)
    (p : ChatMessage → Bool) : byId (ms.filter p) = (byId ms).filter p := by
  have hsub : ((ms.filter p).map (·.messageId)).Nodup :=
    h.sublist (List.filter_sublist.map _)
  have hperm : (byId (ms.filter p)).Perm ((byId ms).filter p) :=
    (List.perm_insertionSort _ _).trans ((List.perm_insertionSort _ ms).filter p).symm
  exact (byId_ascending hsub).eq_of_perm ((byId_ascending h).sublist List.filter_sublist) hperm

/-! ## The two sources -/

section Sources

variable {known : UserId → Bool} {c : ChannelId} {st : Store} {limit : Nat} {since : MessageId}

theorem history_ascending (h : Mirrors known c st) : Ascending (history c st) :=
  byId_ascending h.nodup

theorem mem_history {m : ChatMessage} : m ∈ history c st ↔ m ∈ st.rowsOf c :=
  List.mem_insertionSort _

/-- The table gives the first messages after `since`. -/
theorem database_since (h : Mirrors known c st) (hsince : 0 < since) :
    st.getFromDatabaseOnly false c limit since =
      ((history c st).filter fun m => decide (since < m.messageId)).take limit := by
  simp [Store.getFromDatabaseOnly, hsince, byId_filter h.nodup, history]

/-- The table gives the latest messages, from old to new. -/
theorem database_latest (h : Mirrors known c st) (limit : Nat) :
    st.getFromDatabaseOnly false c limit 0 = ((history c st).reverse.take limit).reverse := by
  simp [Store.getFromDatabaseOnly, byIdDesc_eq h.nodup, history]

theorem database_ascending (h : Mirrors known c st) :
    Ascending (st.getFromDatabaseOnly false c limit since) := by
  rcases Nat.eq_zero_or_pos since with rfl | hsince
  · rw [database_latest h limit, Ascending, List.pairwise_reverse]
    exact (List.pairwise_reverse.mpr (history_ascending h)).sublist (List.take_sublist _ _)
  · rw [database_since h hsince]
    exact (history_ascending h).sublist ((List.take_sublist _ _).trans List.filter_sublist)

/-- The index lists ids of the history in its order. -/
theorem recent_sublist (h : Mirrors known c st) :
    (st.recent c).Sublist ((history c st).map (·.messageId)) := by
  have hascending : ((history c st).map (·.messageId)).Pairwise (· < ·) :=
    List.pairwise_map.mpr (history_ascending h)
  refine List.sublist_of_subperm_of_pairwise ?_ h.sorted hascending
  apply List.subperm_of_subset (h.sorted.imp fun hlt => Nat.ne_of_lt hlt)
  intro id hid
  obtain ⟨m, hm, rfl⟩ := List.mem_map.mp (h.recent id hid)
  exact List.mem_map_of_mem (mem_history.mpr hm)

/-- The entry of a message in the history is the message. -/
theorem entry_eq (h : Mirrors known c st) {m m' : ChatMessage} (hm : m ∈ history c st)
    (hentry : st.entry c m.messageId = some m') : m' = m := by
  obtain ⟨hrow, hid⟩ := h.entry _ _ hentry
  exact List.inj_on_of_nodup_map h.nodup hrow (mem_history.mp hm) hid

/-- What is fetched of a part of the history is all of it if and only if Redis has it. -/
theorem fetched_eq_iff (h : Mirrors known c st) (limit : Nat) {ids : List MessageId} {ms : List ChatMessage}
    (hids : ids.Sublist (ms.map (·.messageId))) (hnodup : (ms.map (·.messageId)).Nodup)
    (hms : ∀ m ∈ ms, m ∈ history c st)
    (hindex : ∀ m ∈ ms, m.messageId ∈ st.recent c ↔ m.messageId ∈ ids) :
    (ids.take limit).filterMap (st.entry c) = ms.take limit ↔
      ∀ m ∈ ms.take limit, InRedis c st m.messageId := by
  constructor
  · intro heq m hm
    rw [← heq, List.mem_filterMap] at hm
    obtain ⟨id, hid, hentry⟩ := hm
    obtain ⟨-, rfl⟩ := h.entry _ _ hentry
    obtain ⟨m', hm', hsame⟩ := List.mem_map.mp (hids.subset (List.mem_of_mem_take hid))
    refine ⟨?_, by rw [hentry]; rfl⟩
    rw [← hsame, hindex m' hm', hsame]
    exact List.mem_of_mem_take hid
  · intro hredis
    have htake : ids.take limit = (ms.take limit).map (·.messageId) := by
      rw [List.map_take]
      apply take_of_sublist hids hnodup
      intro id hid
      rw [← List.map_take] at hid
      obtain ⟨m, hm, rfl⟩ := List.mem_map.mp hid
      exact (hindex m (List.mem_of_mem_take hm)).mp (hredis m hm).1
    rw [htake, List.filterMap_map]
    have hentry : ∀ m ∈ ms.take limit, st.entry c m.messageId = some m := by
      intro m hm
      obtain ⟨m', hm'⟩ := Option.isSome_iff_exists.mp (hredis m hm).2
      rw [hm', entry_eq h (hms m (List.mem_of_mem_take hm)) hm']
    exact (List.filterMap_congr hentry).trans List.filterMap_some

/-! ## The order of the answer -/

theorem chronological_of_ascending {ms : List ChatMessage} (h : Ascending ms) :
    chronological ms = ms := by
  unfold chronological
  split
  · next first last hfirst hlast =>
    have hle : first.messageId ≤ last.messageId := by
      cases ms with
      | nil => cases hfirst
      | cons m ms =>
        cases hfirst
        rcases List.mem_cons.mp (List.mem_of_getLast? hlast) with rfl | hmem
        · exact le_rfl
        · exact Nat.le_of_lt ((List.pairwise_cons.mp h).1 last hmem)
    rw [if_neg (Nat.not_lt.mpr hle)]
  · rfl

theorem chronological_reverse {ms : List ChatMessage} (h : Ascending ms) :
    chronological ms.reverse = ms := by
  cases ms with
  | nil => rfl
  | cons m ms =>
    cases ms using List.reverseRecOn with
    | nil => simp [chronological]
    | append_singleton ms last =>
      have hlt : m.messageId < last.messageId := (List.pairwise_cons.mp h).1 last (by simp)
      have hfirst : (m :: (ms ++ [last])).reverse.head? = some last := by simp
      have hlast : (m :: (ms ++ [last])).reverse.getLast? = some m := List.getLast?_reverse
      rw [chronological, hfirst, hlast]
      show (if m.messageId < last.messageId then _ else _) = _
      rw [if_pos hlt, List.reverse_reverse]

/-- Older messages in front of newer ones are left where they are. -/
theorem chronological_append {older newer : List ChatMessage} (holder : older ≠ [])
    (hnewer : newer ≠ []) (hlt : ∀ a ∈ older, ∀ b ∈ newer, a.messageId < b.messageId) :
    chronological (older ++ newer) = older ++ newer := by
  have hfirst : (older ++ newer).head? = some (older.head holder) := by
    rw [List.head?_append_of_ne_nil _ holder, List.head?_eq_some_head holder]
  have hlast : (older ++ newer).getLast? = some (newer.getLast hnewer) := by
    rw [List.getLast?_append_of_ne_nil _ hnewer, List.getLast?_eq_some_getLast hnewer]
  have hends := hlt _ (List.head_mem holder) _ (List.getLast_mem hnewer)
  rw [chronological, hfirst, hlast]
  show (if _ < _ then _ else _) = _
  rw [if_neg (Nat.lt_asymm hends)]

/-! ## What Redis gives -/

theorem fetched_ids (h : Mirrors known c st) (ids : List MessageId) :
    ((ids.filterMap (st.entry c)).map (·.messageId)).Sublist ids := by
  induction ids with
  | nil => exact List.Sublist.slnil
  | cons id ids ih =>
    cases hentry : st.entry c id with
    | none =>
      rw [List.filterMap_cons_none hentry]
      exact ih.cons id
    | some m =>
      rw [List.filterMap_cons_some hentry, List.map_cons, (h.entry id m hentry).2]
      exact ih.cons_cons id

/-- What Redis has of the newest entries of its index, from new to old. -/
def newest (c : ChannelId) (limit : Nat) (st : Store) : List ChatMessage :=
  ((st.recent c).reverse.take limit).filterMap (st.entry c)

theorem newest_ascending (h : Mirrors known c st) (limit : Nat) :
    Ascending (newest c limit st).reverse := by
  have hdesc : (st.recent c).reverse.Pairwise fun a b => b < a :=
    List.pairwise_reverse.mpr h.sorted
  have hids := hdesc.sublist ((fetched_ids h _).trans (List.take_sublist limit _))
  rw [Ascending, List.pairwise_reverse]
  exact List.pairwise_map.mp hids

theorem mem_newest (h : Mirrors known c st) {m : ChatMessage} (hm : m ∈ newest c limit st) :
    m ∈ history c st := by
  obtain ⟨id, -, hentry⟩ := List.mem_filterMap.mp hm
  exact mem_history.mpr (h.entry id m hentry).1

theorem length_newest_le : (newest c limit st).length ≤ limit :=
  (List.length_filterMap_le _ _).trans (List.length_take_le _ _)

theorem getFromRedis_latest (h : Mirrors known c st) :
    st.getFromRedis false c limit 0 = newest c limit st := by
  have hsort := byId_reverse (newest_ascending h limit)
  rw [List.reverse_reverse] at hsort
  have hredis : st.getFromRedis false c limit 0 = (byId (newest c limit st)).reverse := rfl
  rw [hredis, hsort, List.reverse_reverse]

/-- What Redis has of the first entries of its index after `since`, from old to new. -/
def newer (c : ChannelId) (limit : Nat) (since : MessageId) (st : Store) : List ChatMessage :=
  (((st.recent c).filter fun id => decide (since < id)).take limit).filterMap (st.entry c)

theorem newer_ascending (h : Mirrors known c st) : Ascending (newer c limit since st) :=
  List.pairwise_map.mp (h.sorted.sublist ((fetched_ids h _).trans
    ((List.take_sublist limit _).trans List.filter_sublist)))

theorem mem_newer (h : Mirrors known c st) {m : ChatMessage} (hm : m ∈ newer c limit since st) :
    m ∈ history c st := by
  obtain ⟨id, -, hentry⟩ := List.mem_filterMap.mp hm
  exact mem_history.mpr (h.entry id m hentry).1

theorem length_newer_le : (newer c limit since st).length ≤ limit :=
  (List.length_filterMap_le _ _).trans (List.length_take_le _ _)

theorem getFromRedis_since (h : Mirrors known c st) (hsince : 0 < since) :
    st.getFromRedis false c limit since = newer c limit since st := by
  have hne : since ≠ 0 := Nat.ne_of_gt hsince
  simp only [Store.getFromRedis, Bool.false_eq_true, if_false, if_pos hsince, if_neg hne]
  exact byId_of_ascending (newer_ascending h)

theorem known_fetched (h : Mirrors known c st) {ms : List ChatMessage}
    (hms : ∀ m ∈ ms, m ∈ history c st) : ms.filter (fun m => known m.senderId) = ms :=
  List.filter_eq_self.mpr fun m hm => h.senders m (mem_history.mp (hms m hm))

theorem getMessages_since (h : Mirrors known c st) (hsince : 0 < since) :
    st.getMessages known {} c limit since = newer c limit since st := by
  have hne : since ≠ 0 := Nat.ne_of_gt hsince
  have hmem : ∀ m ∈ newer c limit since st, m ∈ history c st := fun m hm => mem_newer h hm
  simp only [Store.getMessages, getFromRedis_since h hsince, known_fetched h hmem,
    Bool.false_eq_true, if_false, hne, and_false]
  exact List.take_of_length_le length_newer_le

/-- After `since` the answer is the one of the table just when Redis has all of it. -/
theorem answer_since_iff (h : Mirrors known c st) (hsince : 0 < since) :
    answer known c limit since st = st.getFromDatabaseOnly false c limit since ↔
      ∀ m ∈ st.getFromDatabaseOnly false c limit since, InRedis c st m.messageId := by
  have hpart : Ascending ((history c st).filter fun m => decide (since < m.messageId)) :=
    (history_ascending h).sublist List.filter_sublist
  have hids : ((st.recent c).filter fun id => decide (since < id)).Sublist
      (((history c st).filter fun m => decide (since < m.messageId)).map (·.messageId)) := by
    have hfilter := (recent_sublist h).filter fun id => decide (since < id)
    rwa [List.filter_map] at hfilter
  have hindex : ∀ m ∈ (history c st).filter fun m => decide (since < m.messageId),
      m.messageId ∈ st.recent c ↔
        m.messageId ∈ (st.recent c).filter fun id => decide (since < id) := by
    intro m hm
    have hlt : since < m.messageId := by simpa using (List.mem_filter.mp hm).2
    simp [hlt]
  rw [answer, getMessages_since h hsince, chronological_of_ascending (newer_ascending h),
    database_since h hsince]
  exact fetched_eq_iff h limit hids hpart.nodup (fun m hm => List.mem_of_mem_filter hm) hindex

/-- The rows that the backfill puts in front of what Redis has. -/
def backfilled (c : ChannelId) (limit : Nat) (st : Store) : List ChatMessage :=
  (((history c st).filter fun m =>
    (newest c limit st).all fun b => decide (m.messageId < b.messageId)).reverse).take
    (limit - (newest c limit st).length)

theorem foldl_cons_reverse {α : Type} (l l' : List α) :
    l.reverse.foldl (fun acc a => a :: acc) l' = l ++ l' := by
  induction l with
  | nil => rfl
  | cons a l ih => rw [List.reverse_cons, List.foldl_append, ih]; rfl

/-- The rows below the smallest id are the rows below every id. -/
theorem older_eq {rows ms : List ChatMessage} :
    rows.filter (fun m => ms.all fun b => decide (m.messageId < b.messageId)) =
      ((ms.map (·.messageId)).min?.elim rows fun minId =>
        rows.filter fun m => decide (m.messageId < minId)) := by
  cases hmin : (ms.map (·.messageId)).min? with
  | none =>
    have hnil := List.map_eq_nil_iff.mp (List.min?_eq_none_iff.mp hmin)
    simp [hnil]
  | some minId =>
    obtain ⟨hmem, hle⟩ := List.min?_eq_some_iff.mp hmin
    refine List.filter_congr fun m _ => ?_
    rw [Bool.eq_iff_iff, decide_eq_true_eq, List.all_eq_true]
    constructor
    · intro hall
      obtain ⟨b, hb, rfl⟩ := List.mem_map.mp hmem
      exact of_decide_eq_true (hall b hb)
    · intro hlt b hb
      exact decide_eq_true (Nat.lt_of_lt_of_le hlt (hle _ (List.mem_map_of_mem hb)))

theorem backfillFromDatabase_eq (h : Mirrors known c st) :
    st.backfillFromDatabase none c (newest c limit st) limit =
      backfilled c limit st ++ newest c limit st := by
  have hnodup : (((st.rowsOf c).filter fun m =>
      (newest c limit st).all fun b => decide (m.messageId < b.messageId)).map
        (·.messageId)).Nodup := h.nodup.sublist (List.filter_sublist.map _)
  have hdesc : byIdDesc ((st.rowsOf c).filter fun m =>
      (newest c limit st).all fun b => decide (m.messageId < b.messageId)) =
        ((history c st).filter fun m =>
          (newest c limit st).all fun b => decide (m.messageId < b.messageId)).reverse := by
    rw [byIdDesc_eq hnodup, byId_filter h.nodup]
    rfl
  rw [older_eq] at hdesc
  unfold Store.backfillFromDatabase
  split
  all_goals
    next hmin =>
    simp only [hmin, Option.elim] at hdesc
    simp only [hdesc, Option.getD_none]
    rw [List.take_of_length_le (by simp), foldl_cons_reverse]
    rfl

theorem getMessages_latest (h : Mirrors known c st) :
    st.getMessages known {} c limit 0 =
      if (newest c limit st).length < limit then backfilled c limit st ++ newest c limit st
      else newest c limit st := by
  have hmem : ∀ m ∈ newest c limit st, m ∈ history c st := fun m hm => mem_newest h hm
  simp only [Store.getMessages, getFromRedis_latest h, known_fetched h hmem, Bool.false_eq_true,
    if_false, and_true]
  split
  · rw [backfillFromDatabase_eq h]
    apply List.take_of_length_le
    have hlength : (backfilled c limit st).length ≤ limit - (newest c limit st).length :=
      List.length_take_le _ _
    rw [List.length_append]
    omega
  · exact List.take_of_length_le length_newest_le

theorem backfilled_lt {a b : ChatMessage} (ha : a ∈ backfilled c limit st)
    (hb : b ∈ newest c limit st) : a.messageId < b.messageId := by
  have hmem := List.mem_reverse.mp (List.mem_of_mem_take ha)
  have hall := (List.mem_filter.mp hmem).2
  exact of_decide_eq_true (List.all_eq_true.mp hall b hb)

theorem backfilled_ascending (h : Mirrors known c st) (limit : Nat) :
    Ascending (backfilled c limit st).reverse := by
  rw [Ascending, List.pairwise_reverse]
  exact (List.pairwise_reverse.mpr
    ((history_ascending h).sublist List.filter_sublist)).sublist (List.take_sublist _ _)

/-- What is ascending both ways has no two messages. -/
theorem length_le_one {ms : List ChatMessage} (h : Ascending ms) (h' : Ascending ms.reverse) :
    ms.length ≤ 1 := by
  cases ms with
  | nil => simp
  | cons a ms =>
    cases ms with
    | nil => simp
    | cons b ms =>
      have hlt := (List.pairwise_cons.mp h).1 b List.mem_cons_self
      have hgt := (List.pairwise_cons.mp (List.pairwise_reverse.mp h')).1 b List.mem_cons_self
      exact absurd hlt (Nat.lt_asymm hgt)

theorem newest_eq_iff (h : Mirrors known c st) :
    newest c limit st = (history c st).reverse.take limit ↔
      ∀ m ∈ st.getFromDatabaseOnly false c limit 0, InRedis c st m.messageId := by
  have hids : (st.recent c).reverse.Sublist ((history c st).reverse.map (·.messageId)) := by
    rw [List.map_reverse]
    exact (recent_sublist h).reverse
  have hnodup : ((history c st).reverse.map (·.messageId)).Nodup := by
    rw [List.map_reverse, List.nodup_reverse]
    exact (history_ascending h).nodup
  have hiff := fetched_eq_iff h limit hids hnodup
    (fun m hm => List.mem_reverse.mp hm) (fun m _ => List.mem_reverse.symm)
  rw [newest, hiff, database_latest h limit]
  simp only [List.mem_reverse]

/-- The newest ids of the index whose keys have not expired. -/
def live (c : ChannelId) (limit : Nat) (st : Store) : List MessageId :=
  ((st.recent c).reverse.take limit).filter fun id => (st.entry c id).isSome

theorem map_newest (h : Mirrors known c st) :
    (newest c limit st).map (·.messageId) = live c limit st := by
  unfold newest live
  induction (st.recent c).reverse.take limit with
  | nil => rfl
  | cons id ids ih =>
    cases hentry : st.entry c id with
    | none => rw [List.filterMap_cons_none hentry, ih, List.filter_cons_of_neg (by simp [hentry])]
    | some m =>
      rw [List.filterMap_cons_some hentry, List.map_cons, ih, (h.entry id m hentry).2,
        List.filter_cons_of_pos (by simp [hentry])]

theorem newest_eq_nil_iff (h : Mirrors known c st) :
    newest c limit st = [] ↔ live c limit st = [] := by
  rw [← map_newest h, List.map_eq_nil_iff]

theorem newest_eq_singleton_iff (h : Mirrors known c st) {m : ChatMessage}
    (hm : m ∈ history c st) : newest c limit st = [m] ↔ live c limit st = [m.messageId] := by
  rw [← map_newest h]
  constructor
  · intro hnewest
    rw [hnewest]
    rfl
  · intro hids
    obtain ⟨m', hnewest, hid⟩ := List.map_eq_singleton_iff.mp hids
    have hm' : m' ∈ history c st := mem_newest h (by rw [hnewest]; simp)
    rw [hnewest, List.inj_on_of_nodup_map (history_ascending h).nodup hm' hm hid]

/-- Redis has the newest message only, and there is one more to give. -/
def NewestOfTwo (c : ChannelId) (limit : Nat) (st : Store) : Prop :=
  ∃ older latest, st.getFromDatabaseOnly false c limit 0 = [older, latest] ∧
    live c limit st = [latest.messageId]

/-- A backfill behind the newest message gives the one before it. -/
theorem backfilled_of_newest (h : Mirrors known c st) {older latest : ChatMessage}
    (hlatest : (history c st).reverse.take limit = [latest, older])
    (hnewest : newest c limit st = [latest]) : backfilled c limit st = [older] := by
  have hdesc : (history c st).reverse.Pairwise fun a b => b.messageId < a.messageId :=
    List.pairwise_reverse.mpr (history_ascending h)
  have hrest : (history c st).reverse =
      latest :: older :: (history c st).reverse.drop limit := by
    conv_lhs => rw [← List.take_append_drop limit (history c st).reverse, hlatest]
    rfl
  have htake : ((history c st).reverse.drop limit).take (limit - 2) = [] := by
    have hlength := congrArg (List.take limit) hrest
    rw [hlatest] at hlength
    match limit, hlength with
    | 0, hlength => simp
    | 1, hlength => simp
    | n + 2, hlength =>
      rw [List.take_succ_cons, List.take_succ_cons] at hlength
      simpa using hlength.symm
  have hbelow : ∀ m ∈ older :: (history c st).reverse.drop limit,
      m.messageId < latest.messageId := by
    rw [hrest] at hdesc
    exact (List.pairwise_cons.mp hdesc).1
  have hlimit : 2 ≤ limit := by
    have hlength := congrArg List.length hlatest
    rw [List.length_take] at hlength
    simp only [List.length_cons, List.length_nil] at hlength
    omega
  unfold backfilled
  rw [hnewest, ← List.filter_reverse, hrest, List.filter_cons_of_neg (by simp),
    List.filter_eq_self.mpr (by simpa using hbelow)]
  show List.take (limit - 1) _ = _
  rw [show limit - 1 = limit - 2 + 1 by omega, List.take_succ_cons, htake]

/-- Both sources add to the answer: it is in order just when each adds one message. -/
theorem append_eq_iff (h : Mirrors known c st) (hnewest : newest c limit st ≠ [])
    (hbackfilled : backfilled c limit st ≠ []) :
    backfilled c limit st ++ newest c limit st = st.getFromDatabaseOnly false c limit 0 ↔
      NewestOfTwo c limit st := by
  have hlatest := database_latest h limit
  constructor
  · intro heq
    have hascending : Ascending (backfilled c limit st ++ newest c limit st) :=
      heq ▸ database_ascending h
    obtain ⟨holder, hnewer, -⟩ := List.pairwise_append.mp hascending
    have holdOne := length_le_one holder (backfilled_ascending h limit)
    have hnewOne := length_le_one hnewer (newest_ascending h limit)
    obtain ⟨older, hold⟩ : ∃ older, backfilled c limit st = [older] :=
      List.length_eq_one_iff.mp (by
        have hpos := List.length_pos_of_ne_nil hbackfilled
        omega)
    obtain ⟨latest, hnew⟩ : ∃ latest, newest c limit st = [latest] :=
      List.length_eq_one_iff.mp (by
        have hpos := List.length_pos_of_ne_nil hnewest
        omega)
    have hmem : latest ∈ history c st := mem_newest h (by rw [hnew]; simp)
    rw [hold, hnew] at heq
    exact ⟨older, latest, heq.symm, (newest_eq_singleton_iff h hmem).mp hnew⟩
  · rintro ⟨older, latest, heq, hlive⟩
    have htake : (history c st).reverse.take limit = [latest, older] := by
      rw [hlatest] at heq
      exact List.reverse_eq_iff.mp heq
    have hmem : latest ∈ history c st :=
      List.mem_reverse.mp (List.mem_of_mem_take (htake ▸ List.mem_cons_self))
    have hnew := (newest_eq_singleton_iff h hmem).mpr hlive
    rw [backfilled_of_newest h htake hnew, hnew, heq]
    rfl

theorem length_database_le (c : ChannelId) (limit : Nat) (st : Store) :
    (st.getFromDatabaseOnly false c limit 0).length ≤ limit := by
  simp [Store.getFromDatabaseOnly]

theorem not_newestOfTwo (h : Mirrors known c st) (hbackfilled : backfilled c limit st = []) :
    ¬NewestOfTwo c limit st := by
  rintro ⟨older, latest, heq, hlive⟩
  have htake : (history c st).reverse.take limit = [latest, older] := by
    rw [database_latest h limit] at heq
    exact List.reverse_eq_iff.mp heq
  have hmem : latest ∈ history c st :=
    List.mem_reverse.mp (List.mem_of_mem_take (htake ▸ List.mem_cons_self))
  have hnew := (newest_eq_singleton_iff h hmem).mpr hlive
  rw [backfilled_of_newest h htake hnew] at hbackfilled
  cases hbackfilled

/-- Redis alone answers: it has to have all of the latest messages. -/
theorem newest_reverse_eq_iff (h : Mirrors known c st) :
    (newest c limit st).reverse = st.getFromDatabaseOnly false c limit 0 ↔
      ∀ m ∈ st.getFromDatabaseOnly false c limit 0, InRedis c st m.messageId := by
  rw [← newest_eq_iff h, database_latest h limit]
  exact List.reverse_injective.eq_iff

/-- The latest messages are those of the table just when Redis has all of them, none of what it
looks for, or the newest one of two. -/
theorem answer_latest_iff (h : Mirrors known c st) (hlimit : 0 < limit) :
    answer known c limit 0 st = st.getFromDatabaseOnly false c limit 0 ↔
      (∀ m ∈ st.getFromDatabaseOnly false c limit 0, InRedis c st m.messageId) ∨
        live c limit st = [] ∨ NewestOfTwo c limit st := by
  have hnewest := newest_ascending h limit
  have hreverse : chronological (newest c limit st) = (newest c limit st).reverse := by
    have hchronological := chronological_reverse hnewest
    rwa [List.reverse_reverse] at hchronological
  rw [answer, getMessages_latest h]
  by_cases hnil : newest c limit st = []
  · -- Everything comes from the table.
    have hanswer : chronological (backfilled c limit st ++ newest c limit st) =
        st.getFromDatabaseOnly false c limit 0 := by
      have hascending := backfilled_ascending h limit
      have hchronological := chronological_reverse hascending
      rw [List.reverse_reverse] at hchronological
      rw [hnil, List.append_nil, hchronological, database_latest h limit, backfilled, hnil]
      simp
    rw [if_pos (by rw [hnil]; exact hlimit)]
    exact iff_of_true hanswer (.inr (.inl ((newest_eq_nil_iff h).mp hnil)))
  · have hlive : live c limit st ≠ [] := fun hlive => hnil ((newest_eq_nil_iff h).mpr hlive)
    by_cases hlength : (newest c limit st).length < limit
    · rw [if_pos hlength]
      by_cases hback : backfilled c limit st = []
      · rw [hback, List.nil_append, hreverse, newest_reverse_eq_iff h]
        have htwo := not_newestOfTwo h hback
        tauto
      · -- The newer messages are behind the older ones, each newest first.
        rw [chronological_append hback hnil fun a ha b hb => backfilled_lt ha hb,
          append_eq_iff h hnil hback]
        have hall : ¬∀ m ∈ st.getFromDatabaseOnly false c limit 0,
            InRedis c st m.messageId := by
          intro hall
          have hsame := (newest_eq_iff h).mpr hall
          have hfull : (history c st).reverse.take limit = (history c st).reverse := by
            apply List.take_of_length_le
            rw [hsame, List.length_take] at hlength
            omega
          obtain ⟨a, ha⟩ := List.exists_mem_of_ne_nil _ hback
          have hmem : a ∈ newest c limit st := by
            rw [hsame, hfull]
            exact List.mem_of_mem_filter (List.mem_reverse.mp (List.mem_of_mem_take ha)) |>
              List.mem_reverse.mpr
          exact absurd (backfilled_lt ha hmem) (Nat.lt_irrefl _)
        tauto
    · -- Redis fills the answer.
      rw [if_neg hlength, hreverse, newest_reverse_eq_iff h]
      have htwo : ¬NewestOfTwo c limit st := by
        rintro ⟨older, latest, heq, hlive⟩
        have hone := congrArg List.length hlive
        rw [← map_newest h, List.length_map, List.length_singleton] at hone
        have htwo := length_database_le c limit st
        rw [heq] at htwo
        simp only [List.length_cons, List.length_nil] at htwo
        omega
      tauto

/-- The answer is the part of the history that was asked for, as the table gives it. -/
structure Complete (known : UserId → Bool) (c : ChannelId) (limit : Nat) (since : MessageId)
    (st : Store) : Prop where
  same : answer known c limit since st = st.getFromDatabaseOnly false c limit since
  latest : since = 0 →
    answer known c limit since st = ((history c st).reverse.take limit).reverse
  later : 0 < since → answer known c limit since st =
    ((history c st).filter fun m => decide (since < m.messageId)).take limit
  ascending : Ascending (answer known c limit since st)

/-- Redis has the whole answer, or for the latest messages nothing of it or the newest of two. -/
def Served (c : ChannelId) (limit : Nat) (since : MessageId) (st : Store) : Prop :=
  (∀ m ∈ st.getFromDatabaseOnly false c limit since, InRedis c st m.messageId) ∨
    since = 0 ∧ (live c limit st = [] ∨ NewestOfTwo c limit st)

theorem answer_iff (h : Mirrors known c st) (hlimit : 0 < limit) :
    answer known c limit since st = st.getFromDatabaseOnly false c limit since ↔
      Served c limit since st := by
  unfold Served
  rcases Nat.eq_zero_or_pos since with rfl | hsince
  · rw [answer_latest_iff h hlimit]
    simp
  · have hne : since ≠ 0 := Nat.ne_of_gt hsince
    rw [answer_since_iff h hsince]
    simp [hne]

/-- The history of a channel is served complete and in order just in these cases. -/
theorem served_complete_iff (h : Mirrors known c st) (hlimit : 0 < limit) :
    Complete known c limit since st ↔ Served c limit since st := by
  rw [← answer_iff h hlimit]
  refine ⟨Complete.same, fun hsame => ⟨hsame, ?_, ?_, ?_⟩⟩
  · rintro rfl
    rw [hsame, database_latest h limit]
  · intro hsince
    rw [hsame, database_since h hsince]
  · rw [hsame]
    exact database_ascending h

end Sources

def hello (id : MessageId) : ChatMessage := ⟨id, 1, 7, "hello", 0, false, none⟩

/-- A channel with the messages 1, 2 and 3, of which Redis has some. -/
def threeMessages (recent : List MessageId) : Store :=
  { entry := fun c id => if c = 1 ∧ id ∈ recent then some (hello id) else none
    recent := fun c => if c = 1 then recent else []
    pending := []
    rows := [hello 1, hello 2, hello 3] }

theorem mirrors_threeMessages {recent : List MessageId} (hsorted : recent.Pairwise (· < ·))
    (hrecent : ∀ id ∈ recent, id ∈ [1, 2, 3]) :
    Mirrors (fun _ => true) 1 (threeMessages recent) where
  nodup := show ([hello 1, hello 2, hello 3].map (·.messageId)).Nodup by decide
  senders _ _ := rfl
  sorted := hsorted
  recent id hid := hrecent id hid
  entry id m hentry := by
    by_cases hid : id ∈ recent
    · have hm : m = hello id := by simpa [threeMessages, hid, eq_comm] using hentry
      subst hm
      refine ⟨?_, rfl⟩
      show hello id ∈ [hello 1, hello 2, hello 3]
      exact List.mem_map_of_mem (hrecent id hid)
    · simp [threeMessages, hid] at hentry

theorem complete_all : Complete (fun _ => true) 1 50 0 (threeMessages [1, 2, 3]) := by
  apply (served_complete_iff (mirrors_threeMessages (by decide) (by decide)) (by decide)).mpr
  exact .inl (by decide)

/-- Redis has forgotten the oldest message: the answer is 1, 3, 2. -/
theorem not_complete_expired : Mirrors (fun _ => true) 1 (threeMessages [2, 3]) ∧
    ¬Complete (fun _ => true) 1 50 0 (threeMessages [2, 3]) := by
  refine ⟨mirrors_threeMessages (by decide) (by decide), fun h => ?_⟩
  exact absurd h.same (by decide)

end Soms.Chat

import Soms.Chat.Persistence

/-!
# No message is lost

Where a message that was stored in Redis is until it is in the table, which events take it
from there, and that nothing else loses it.
-/

namespace Soms.Chat.Persistence

open RedisList

/-- The row stores the message. -/
def StoresAs (m row : ChatMessage) : Prop :=
  row.messageId = m.messageId ∧ row.channelId = m.channelId ∧ row.senderId = m.senderId ∧
    row.content = m.content

instance (m row : ChatMessage) : Decidable (StoresAs m row) :=
  inferInstanceAs (Decidable (_ ∧ _ ∧ _ ∧ _))

namespace System

/-- The message is in the table. -/
def Stored (s : System) (m : ChatMessage) : Prop := ∃ row ∈ s.store.rows, StoresAs m row

/-- The message can be popped and read. -/
def Queued (s : System) (m : ChatMessage) : Prop :=
  m.key ∈ s.store.pending ∧ s.entryOf m.key = some m

/-- The batch task has the message. -/
def InHand (s : System) (m : ChatMessage) : Prop :=
  m.key ∈ s.phase.keys ∧ s.entryOf m.key = some m ∨ m ∈ s.phase.added

/-- The message is queued for persistence or stored. -/
def Keeps (s : System) (m : ChatMessage) : Prop := s.Stored m ∨ s.Queued m ∨ s.InHand m

instance (s : System) (m : ChatMessage) : Decidable (s.Stored m) :=
  inferInstanceAs (Decidable (∃ row ∈ _, _))

instance (s : System) (m : ChatMessage) : Decidable (s.Queued m) :=
  inferInstanceAs (Decidable (_ ∧ _))

instance (s : System) (m : ChatMessage) : Decidable (s.InHand m) :=
  inferInstanceAs (Decidable (_ ∧ _ ∨ _))

instance (s : System) (m : ChatMessage) : Decidable (s.Keeps m) :=
  inferInstanceAs (Decidable (_ ∨ _ ∨ _))

/-- The event would take the last trace of a message that is not stored. -/
def Drops (s : System) (m : ChatMessage) : Event → Prop
  -- the entry is overwritten
  | .setEntry m' => m'.key = m.key ∧ m' ≠ m ∧ m ∉ s.phase.added
  | .enqueue m' => m' = m ∧ m ∈ s.storing ∧ s.entryOf m.key ≠ some m ∧ m ∉ s.phase.added
  | .popFails popped =>
    (∃ batch, s.phase = .collecting batch) ∧
      ¬ (m.key ∈ (if popped then s.store.pending.dropLast else s.store.pending) ∧
        s.entryOf m.key = some m)
  -- the key is read in vain
  | .stage r => ∃ keys added view, s.phase = .processing (m.key :: keys) added view ∧
      s.rowFor r m.key added view = none ∧ m.key ∉ s.store.pending ∧ m.key ∉ keys ∧ m ∉ added
  | .commit accepted => ∃ added view, s.phase = .processing [] added view ∧
      ¬ (accepted = true ∧ s.CanCommit added) ∧ ¬ s.Queued m
  | .crash => ¬ s.Queued m
  | _ => False

end System

/-- `_store_to_redis` returned for the message. -/
def Accepted (m : ChatMessage) : List (Event × System) → Prop
  | [] => False
  | (e, _) :: past =>
    e = .enqueue m ∧ m ∈ (endState System.empty past).storing ∨ Accepted m past

/-- After an event every accepted message is queued or stored, and stored once at most. -/
def MessagesKept (past : List (Event × System)) (e : Event) (t : System) : Prop :=
  ∀ m, Accepted m ((e, t) :: past) →
    t.Keeps m ∧ (t.store.rows.filter fun row => decide (StoresAs m row)).length ≤ 1

/-- The event drops no accepted message that is not stored. -/
def NotDropped (past : List (Event × System)) (e : Event) (t : System) : Prop :=
  ∀ m, Accepted m ((e, t) :: past) → (endState System.empty past).Drops m e →
    (endState System.empty past).Stored m

variable {s t : System} {m : ChatMessage} {e : Event} {h : List (Event × System)}

/-! ## Rows -/

/-- The ids of the rows are a primary key. -/
def RowsUnique (s : System) : Prop := (s.store.rows.map (·.messageId)).Nodup

theorem length_filter_le_one {rows : List ChatMessage} (hrows : (rows.map (·.messageId)).Nodup)
    (m : ChatMessage) : (rows.filter fun row => decide (StoresAs m row)).length ≤ 1 := by
  induction rows with
  | nil => simp
  | cons row rest ih =>
    rw [List.map_cons, List.nodup_cons] at hrows
    rw [List.filter_cons]
    split
    · next hrow =>
      have hid : row.messageId = m.messageId := (of_decide_eq_true hrow).1
      have hnone : rest.filter (fun row => decide (StoresAs m row)) = [] := by
        refine List.filter_eq_nil_iff.mpr fun row' hmem hrow' => hrows.1 ?_
        rw [hid, ← (of_decide_eq_true hrow').1]
        exact List.mem_map_of_mem hmem
      simp [hnone]
    · exact ih hrows.2

/-- What an event does to the rows. -/
theorem rows_after (s : System) (e : Event) :
    (s.after e).store.rows = s.store.rows ∨
    (∃ m, e = .insertRow m ∧ m.messageId ∉ s.store.rows.map (·.messageId) ∧
      (s.after e).store.rows = s.store.rows ++ [m]) ∨
    ∃ added view, e = .commit true ∧ s.phase = .processing [] added view ∧ s.CanCommit added ∧
      (s.after e).store.rows = s.store.rows ++ added := by
  cases e with
  | setEntry m => exact .inl rfl
  | enqueue m => exact .inl (by simp only [System.after]; split <;> rfl)
  | insertRow m =>
    by_cases hid : m.messageId ∈ s.store.rows.map (·.messageId)
    · exact .inl (by simp only [System.after, Store.insertRow, if_pos hid])
    · exact .inr (.inl ⟨m, rfl, hid, by simp only [System.after, Store.insertRow, if_neg hid]⟩)
  | start => exact .inl (by simp only [System.after]; split <;> rfl)
  | pop =>
    refine .inl ?_
    simp only [System.after]
    split
    · split
      · split
        · rfl
        · split <;> rfl
      · rfl
    · rfl
  | popFails popped => exact .inl (by simp only [System.after]; split <;> rfl)
  | stage r => exact .inl (by simp only [System.after]; split <;> rfl)
  | commit accepted =>
    cases hphase : s.phase with
    | processing keys added view =>
      cases keys with
      | nil =>
        by_cases hdone : accepted = true ∧ s.CanCommit added
        · refine .inr (.inr ⟨added, view, by rw [hdone.1], rfl, hdone.2, ?_⟩)
          simp only [System.after, hphase, if_pos hdone]
        · exact .inl (by simp only [System.after, hphase, if_neg hdone]; rfl)
      | cons key keys => exact .inl (by simp only [System.after, hphase])
    | _ => exact .inl (by simp only [System.after, hphase])
  | crash => exact .inl rfl

theorem RowsUnique.after (hs : RowsUnique s) (e : Event) : RowsUnique (s.after e) := by
  unfold RowsUnique at hs ⊢
  rcases rows_after s e with hrows | ⟨m, -, hnew, hrows⟩ | ⟨added, view, -, -, hcommit, hrows⟩
  · rwa [hrows]
  · rw [hrows, List.map_append]
    refine List.Nodup.append hs (List.nodup_singleton _) ?_
    rw [List.map_singleton, List.disjoint_singleton]
    exact hnew
  · rw [hrows]
    exact hcommit

theorem stored_after (hs : s.Stored m) (e : Event) : (s.after e).Stored m := by
  obtain ⟨row, hrow, hsame⟩ := hs
  refine ⟨row, ?_, hsame⟩
  rcases rows_after s e with hrows | ⟨_, -, -, hrows⟩ | ⟨_, _, -, -, -, hrows⟩
  · rwa [hrows]
  · rw [hrows]
    exact List.mem_append_left _ hrow
  · rw [hrows]
    exact List.mem_append_left _ hrow

/-! ## One event -/

/-- Where a message is that is not stored. -/
theorem keeps_iff (hnew : ¬ s.Stored m) :
    s.Keeps m ↔ s.entryOf m.key = some m ∧ (m.key ∈ s.store.pending ∨ m.key ∈ s.phase.keys) ∨
      m ∈ s.phase.added := by
  unfold System.Keeps System.Queued System.InHand
  tauto

/-- The traces of a message that is not stored. -/
def Traces (m : ChatMessage) (entry : Option ChatMessage) (pending keys : List Key)
    (added : List ChatMessage) : Prop :=
  entry = some m ∧ (m.key ∈ pending ∨ m.key ∈ keys) ∨ m ∈ added

theorem keeps_iff_of_rows (hnew : ¬ s.Stored m) (hrows : t.store.rows = s.store.rows) :
    t.Keeps m ↔ Traces m (t.entryOf m.key) t.store.pending t.phase.keys t.phase.added := by
  refine keeps_iff fun hstored => hnew ?_
  unfold System.Stored at hstored ⊢
  rwa [hrows] at hstored

theorem entryOf_setEntry (s : System) (m : ChatMessage) (key : Key) :
    (s.after (.setEntry m)).entryOf key = if key = m.key then some m else s.entryOf key := by
  obtain ⟨c, id⟩ := key
  unfold System.entryOf ChatMessage.key
  simp only [System.after, Store.setEntry, Prod.mk.injEq]
  by_cases hc : c = m.channelId
  · subst hc
    by_cases hid : id = m.messageId <;> simp [hid]
  · simp [hc]

theorem keeps_setEntry (hs : s.Keeps m) (hnew : ¬ s.Stored m) (m' : ChatMessage) :
    (s.after (.setEntry m')).Keeps m ↔ ¬ s.Drops m (.setEntry m') := by
  rw [keeps_iff hnew] at hs
  rw [keeps_iff_of_rows hnew (t := s.after (.setEntry m')) rfl, entryOf_setEntry]
  show Traces m _ s.store.pending s.phase.keys s.phase.added ↔ ¬ (_ ∧ _ ∧ _)
  unfold Traces
  by_cases hkey : m.key = m'.key
  · rw [if_pos hkey, Option.some.injEq]
    by_cases heq : m' = m
    · subst heq
      tauto
    · tauto
  · rw [if_neg hkey]
    have hkey : ¬ m'.key = m.key := fun heq => hkey heq.symm
    tauto

theorem keeps_enqueue {m' : ChatMessage}
    (hs : s.Keeps m ∨ m' = m ∧ m ∈ s.storing) (hnew : ¬ s.Stored m) :
    (s.after (.enqueue m')).Keeps m ↔ ¬ s.Drops m (.enqueue m') := by
  rw [keeps_iff hnew] at hs
  by_cases hstoring : m' ∈ s.storing
  · have hafter : s.after (.enqueue m') =
        { s with store := s.store.enqueue m'.key, storing := s.storing.erase m' } := if_pos hstoring
    rw [hafter]
    refine Iff.trans (keeps_iff_of_rows hnew rfl) ?_
    show Traces m (s.entryOf m.key) (m'.key :: s.store.pending) s.phase.keys s.phase.added ↔
      ¬ (_ ∧ _ ∧ _ ∧ _)
    unfold Traces
    rw [List.mem_cons]
    by_cases heq : m' = m
    · subst heq
      tauto
    · tauto
  · have hafter : s.after (.enqueue m') = s := if_neg hstoring
    have hs : s.Keeps m := by
      rw [keeps_iff hnew]
      rcases hs with hs | ⟨rfl, hmem⟩
      · exact hs
      · exact absurd hmem hstoring
    rw [hafter]
    refine iff_of_true hs ?_
    rintro ⟨rfl, hmem, -⟩
    exact hstoring hmem

/-- The task gives up what it has popped. -/
theorem keeps_released (hnew : ¬ s.Stored m) (hrows : t.store.rows = s.store.rows)
    (hentry : t.entryOf m.key = s.entryOf m.key) (hkeys : t.phase.keys = [])
    (hadded : t.phase.added = []) :
    t.Keeps m ↔ m.key ∈ t.store.pending ∧ s.entryOf m.key = some m := by
  rw [keeps_iff_of_rows hnew hrows, hentry, hkeys, hadded]
  simp [Traces, and_comm]

/-- An event that does not find the task ready. -/
theorem keeps_same (hs : s.Keeps m) (hafter : s.after e = s) (hdrops : ¬ s.Drops m e) :
    (s.after e).Keeps m ↔ ¬ s.Drops m e := by
  rw [hafter]
  exact iff_of_true hs hdrops

theorem keeps_popFails (hs : s.Keeps m) (hnew : ¬ s.Stored m) (popped : Bool) :
    (s.after (.popFails popped)).Keeps m ↔ ¬ s.Drops m (.popFails popped) := by
  cases hphase : s.phase with
  | collecting batch =>
    have hafter : s.after (.popFails popped) =
        { s with
          store := { s.store with
            pending := if popped then s.store.pending.dropLast else s.store.pending }
          phase := .collecting [] } := by
      simp only [System.after, hphase]
    rw [hafter]
    refine Iff.trans (keeps_released hnew rfl rfl rfl rfl) ?_
    show _ ↔ ¬ ((∃ _, _) ∧ ¬ (_ ∧ _))
    have hcollecting : ∃ batch, s.phase = .collecting batch := ⟨batch, hphase⟩
    tauto
  | _ =>
    refine keeps_same hs (by simp only [System.after, hphase]) ?_
    rintro ⟨⟨batch, hbatch⟩, -⟩
    simp [hphase] at hbatch

theorem rowFor_some {r : Reading} {key : Key} {added view : List ChatMessage} {row : ChatMessage}
    (h : s.rowFor r key added view = some row) : s.entryOf key = some row := by
  unfold System.rowFor at h
  dsimp only at h
  split at h
  · exact (Option.filter_eq_some_iff.mp h).1
  · simp at h

/-- A key is read, and its row is the entry of the key if there is one. -/
theorem traces_stage {entry : Option ChatMessage} {pending keys : List Key} {key : Key}
    {added : List ChatMessage} {row : Option ChatMessage}
    (hrow : key = m.key → ∀ m', row = some m' → entry = some m')
    (hs : Traces m entry pending (key :: keys) added) :
    Traces m entry pending keys (added ++ row.toList) ↔
      ¬ (key = m.key ∧ row = none ∧ m.key ∉ pending ∧ m.key ∉ keys ∧ m ∉ added) := by
  unfold Traces at hs ⊢
  rw [List.mem_cons] at hs
  rw [List.mem_append]
  rcases hs with ⟨hentry, hkeys⟩ | hadded
  · cases row with
    | none =>
      simp only [Option.toList_none, List.not_mem_nil, or_false]
      tauto
    | some m' =>
      refine iff_of_true ?_ (by simp)
      by_cases hkey : key = m.key
      · have hm : m = m' := Option.some.inj (hentry.symm.trans (hrow hkey m' rfl))
        exact .inr (.inr (by simp [hm]))
      · exact .inl ⟨hentry, hkeys.imp_right fun h => h.resolve_left fun heq => hkey heq.symm⟩
  · exact iff_of_true (.inr (.inl hadded)) fun hlost => hlost.2.2.2.2 hadded

theorem keeps_stage (hs : s.Keeps m) (hnew : ¬ s.Stored m) (r : Reading) :
    (s.after (.stage r)).Keeps m ↔ ¬ s.Drops m (.stage r) := by
  by_cases hready : ∃ key keys added view, s.phase = .processing (key :: keys) added view
  · obtain ⟨key, keys, added, view, hphase⟩ := hready
    have hafter : s.after (.stage r) =
        s.withPhase (.processing keys (added ++ (s.rowFor r key added view).toList) view) := by
      simp only [System.after, hphase]
    rw [keeps_iff_of_rows hnew rfl, hphase] at hs
    rw [hafter]
    refine Iff.trans (keeps_iff_of_rows hnew rfl) ?_
    show Traces m (s.entryOf m.key) s.store.pending keys
      (added ++ (s.rowFor r key added view).toList) ↔ _
    have hdrops : s.Drops m (.stage r) ↔ key = m.key ∧ s.rowFor r m.key added view = none ∧
        m.key ∉ s.store.pending ∧ m.key ∉ keys ∧ m ∉ added := by
      constructor
      · rintro ⟨keys', added', view', hphase', hrest⟩
        obtain ⟨⟨rfl, rfl⟩, rfl, rfl⟩ : (key = m.key ∧ keys = keys') ∧ added = added' ∧ view = view' := by
          simpa using hphase.symm.trans hphase'
        exact ⟨rfl, hrest⟩
      · rintro ⟨rfl, hrest⟩
        exact ⟨keys, added, view, hphase, hrest⟩
    rw [hdrops]
    refine Iff.trans (traces_stage ?_ hs) ?_
    · rintro rfl row hrow
      exact rowFor_some hrow
    · refine not_congr (and_congr_right fun hkey => ?_)
      rw [hkey]
  · refine keeps_same hs ?_ ?_
    · simp only [System.after]
      split
      · next hphase => exact absurd ⟨_, _, _, _, hphase⟩ hready
      · rfl
    · rintro ⟨keys, added, view, hphase, -⟩
      exact hready ⟨_, _, _, _, hphase⟩

theorem keeps_commit (hs : s.Keeps m) (hnew : ¬ s.Stored m) (accepted : Bool) :
    (s.after (.commit accepted)).Keeps m ↔ ¬ s.Drops m (.commit accepted) := by
  by_cases hready : ∃ added view, s.phase = .processing [] added view
  · obtain ⟨added, view, hphase⟩ := hready
    by_cases hdone : accepted = true ∧ s.CanCommit added
    · -- the rows that were added are in the table
      have hafter : s.after (.commit accepted) = { s with
          store := { s.store with rows := s.store.rows ++ added }
          phase := .collecting [] } := by
        simp only [System.after, hphase, if_pos hdone]
      have hnot : ¬ s.Drops m (.commit accepted) := by
        rintro ⟨added', view', hphase', hfailed, -⟩
        obtain ⟨rfl, -⟩ : added = added' ∧ view = view' := by simpa using hphase.symm.trans hphase'
        exact hfailed hdone
      refine iff_of_true ?_ hnot
      rw [keeps_iff hnew, hphase] at hs
      rw [hafter]
      rcases hs with ⟨hentry, hpending | hkeys⟩ | hadded
      · exact .inr (.inl ⟨hpending, hentry⟩)
      · exact absurd hkeys List.not_mem_nil
      · exact .inl ⟨m, List.mem_append_right _ hadded, rfl, rfl, rfl, rfl⟩
    · have hafter : s.after (.commit accepted) = s.withPhase (.collecting []) := by
        simp only [System.after, hphase, if_neg hdone]
      rw [hafter]
      refine Iff.trans (keeps_released hnew rfl rfl rfl rfl) ?_
      show s.Queued m ↔ _
      constructor
      · rintro hqueued ⟨_, _, -, -, hlost⟩
        exact hlost hqueued
      · intro hkept
        by_contra hlost
        exact hkept ⟨added, view, hphase, hdone, hlost⟩
  · refine keeps_same hs ?_ ?_
    · simp only [System.after]
      split
      · next hphase => exact absurd ⟨_, _, hphase⟩ hready
      · rfl
    · rintro ⟨added, view, hphase, -⟩
      exact hready ⟨_, _, hphase⟩

/-- The task takes a key from one list to another, or goes on with what it has. -/
theorem keeps_moved (hs : s.Keeps m) (hrows : t.store.rows = s.store.rows)
    (hentry : t.entryOf m.key = s.entryOf m.key) (hadded : t.phase.added = s.phase.added)
    (hkeys : m.key ∈ s.store.pending ∨ m.key ∈ s.phase.keys →
      m.key ∈ t.store.pending ∨ m.key ∈ t.phase.keys) : t.Keeps m := by
  by_cases hnew : s.Stored m
  · refine .inl ?_
    unfold System.Stored at hnew ⊢
    rwa [hrows]
  · rw [keeps_iff hnew] at hs
    rw [keeps_iff_of_rows hnew hrows, hentry, hadded]
    exact hs.imp_left fun ⟨hm, hmem⟩ => ⟨hm, hkeys hmem⟩

theorem keeps_pop (hs : s.Keeps m) : (s.after .pop).Keeps m := by
  cases hphase : s.phase with
  | collecting batch =>
    have hdone : (s.withPhase (.processing batch [] s.store.rows)).Keeps m := by
      refine keeps_moved hs rfl rfl ?_ fun hmem => ?_
      · rw [hphase]
        rfl
      · rwa [hphase] at hmem
    simp only [System.after, hphase]
    split
    · cases hpop : rpop s.store.pending with
      | none =>
        dsimp only
        split
        · exact hs
        · exact hdone
      | some popped =>
        obtain ⟨key, pending⟩ := popped
        have hpending : s.store.pending = rpush key pending := rpop_eq_some.mp hpop
        refine keeps_moved hs rfl rfl ?_ fun hmem => ?_
        · rw [hphase]
          rfl
        · rw [hphase, hpending] at hmem
          simp only [rpush, Phase.keys, List.mem_append, List.mem_singleton] at hmem ⊢
          tauto
    · exact hdone
  | _ => simpa only [System.after, hphase] using hs

/-- An event keeps a message that is not stored, or that it accepts, exactly if it does not
drop it. -/
theorem keeps_after_iff (hs : s.Keeps m ∨ e = .enqueue m ∧ m ∈ s.storing) (hnew : ¬ s.Stored m) :
    (s.after e).Keeps m ↔ ¬ s.Drops m e := by
  by_cases henqueue : ∃ m', e = .enqueue m'
  · obtain ⟨m', rfl⟩ := henqueue
    refine keeps_enqueue (hs.imp_right fun ⟨he, hmem⟩ => ⟨?_, hmem⟩) hnew
    simpa using he
  replace hs : s.Keeps m := hs.resolve_right fun ⟨he, _⟩ => henqueue ⟨m, he⟩
  cases e with
  | setEntry m' => exact keeps_setEntry hs hnew m'
  | enqueue m' => exact absurd ⟨m', rfl⟩ henqueue
  | insertRow m' =>
    refine iff_of_true ?_ id
    by_cases hid : m'.messageId ∈ s.store.rows.map (·.messageId)
    · rwa [show s.after (.insertRow m') = s by
        simp only [System.after, Store.insertRow, if_pos hid]]
    · rw [show s.after (.insertRow m') = { s with store := { s.store with
        rows := s.store.rows ++ [m'] } } by simp only [System.after, Store.insertRow, if_neg hid]]
      exact hs.resolve_left hnew |>.elim (fun h => .inr (.inl h)) fun h => .inr (.inr h)
  | start =>
    refine iff_of_true ?_ id
    by_cases hphase : s.phase = .stopped
    · rw [show s.after .start = s.withPhase (.collecting []) from if_pos hphase]
      refine keeps_moved hs rfl rfl ?_ fun hmem => ?_
      · rw [hphase]
        rfl
      · rwa [hphase] at hmem
    · rwa [show s.after .start = s from if_neg hphase]
  | pop => exact iff_of_true (keeps_pop hs) id
  | popFails popped => exact keeps_popFails hs hnew popped
  | stage r => exact keeps_stage hs hnew r
  | commit accepted => exact keeps_commit hs hnew accepted
  | crash =>
    refine Iff.trans (keeps_released (t := s.after .crash) hnew rfl rfl rfl rfl) ?_
    show s.Queued m ↔ ¬ ¬ s.Queued m
    exact not_not.symm

/-- An event keeps a message exactly if it drops it at most when it is stored. -/
theorem keeps_after (hs : s.Keeps m ∨ e = .enqueue m ∧ m ∈ s.storing) :
    (s.after e).Keeps m ↔ (s.Drops m e → s.Stored m) := by
  by_cases hstored : s.Stored m
  · exact iff_of_true (.inl (stored_after hstored e)) fun _ => hstored
  · rw [keeps_after_iff hs hstored]
    tauto

/-! ## Runs -/

/-- Every accepted message is kept, and the ids of the rows are unique. -/
structure Held (h : List (Event × System)) (s : System) : Prop where
  keeps : ∀ m, Accepted m h → s.Keeps m
  unique : RowsUnique s

theorem event_held (hs : Held h s) (hend : endState System.empty h = s) (e : Event) :
    (MessagesKept h e (s.after e) ↔ NotDropped h e (s.after e)) ∧
      (NotDropped h e (s.after e) → Held ((e, s.after e) :: h) (s.after e)) := by
  have hunique := hs.unique.after e
  have hone : ∀ m, Accepted m ((e, s.after e) :: h) →
      ((s.after e).Keeps m ↔ (s.Drops m e → s.Stored m)) := by
    rintro m (⟨he, hmem⟩ | hbefore)
    · exact keeps_after (.inr ⟨he, hend ▸ hmem⟩)
    · exact keeps_after (.inl (hs.keeps m hbefore))
  have hiff : MessagesKept h e (s.after e) ↔ NotDropped h e (s.after e) := by
    unfold MessagesKept NotDropped
    rw [hend]
    refine forall_congr' fun m => forall_congr' fun haccepted => ?_
    rw [← hone m haccepted]
    exact and_iff_left (length_filter_le_one hunique m)
  exact ⟨hiff, fun hnot => ⟨fun m haccepted => (hiff.mpr hnot m haccepted).1, hunique⟩⟩

theorem held_empty : Held [] System.empty where
  keeps _ := False.elim
  unique := List.nodup_nil

/-- **No message is lost**, and none is stored twice, after every event of exactly the
runs in which no event drops an accepted message that is not stored. -/
theorem no_message_lost (hrun : Trace Step (fun _ _ => True) System.empty h s) :
    Every MessagesKept h ↔ Every NotDropped h := by
  refine hrun.every_iff (I := Held) held_empty fun past s e t hs hend hstep => ?_
  cases hstep
  exact event_held hs hend e

/-- The message of the worked runs. -/
def hello : ChatMessage := ⟨5, 1, 7, "hello", 0, false, none⟩

/-- The message outlives a crash in the queue, and a batch stores it.  The newest event is
first. -/
def storedBatch : List Event :=
  [.commit true, .stage {}, .pop, .pop, .start, .crash, .enqueue hello, .setEntry hello]

def batchRun (es : List Event) : List (Event × System) := historyOf System.after System.empty es

theorem trace_batchRun (es : List Event) :
    Trace Step (fun _ _ => True) System.empty (batchRun es) (endState System.empty (batchRun es)) :=
  trace_historyOf System.empty es fun e _ s => .mk s e

/-- Only messages that are enqueued are accepted. -/
theorem mem_of_accepted {es : List Event} (h : Accepted m (batchRun es)) : .enqueue m ∈ es := by
  induction es with
  | nil => exact h.elim
  | cons e past ih =>
    rcases h with ⟨rfl, -⟩ | hbefore
    · exact List.mem_cons_self
    · exact List.mem_cons_of_mem e (ih hbefore)

theorem no_message_lost_batch :
    Every MessagesKept (batchRun storedBatch) ∧
      (endState System.empty (batchRun storedBatch)).Stored hello := by
  refine ⟨(no_message_lost (trace_batchRun storedBatch)).mpr ?_, by decide +kernel⟩
  refine ⟨⟨⟨⟨⟨⟨⟨⟨trivial, ?hset⟩, ?henqueue⟩, ?hcrash⟩, ?hstart⟩, ?hpop⟩, ?hpop'⟩, ?hstage⟩, ?hcommit⟩
  case hset =>
    intro m haccepted
    have hmem : Event.enqueue m ∈ [Event.setEntry hello] := mem_of_accepted haccepted
    simp at hmem
  case hstart | hpop | hpop' => exact fun _ _ => False.elim
  case henqueue =>
    rintro m - ⟨rfl, -, hentry, -⟩
    exact absurd rfl hentry
  case hcrash =>
    intro m haccepted hdrops
    have hmem : Event.enqueue m ∈ storedBatch.drop 5 := mem_of_accepted haccepted
    obtain rfl : m = hello := by simpa [storedBatch] using hmem
    exact absurd (by decide +kernel) hdrops
  case hstage =>
    rintro m - ⟨keys, added, view, hphase, hrow, -⟩
    have hready : (endState System.empty (batchRun (storedBatch.drop 2))).phase =
        .processing [hello.key] [] [] := by decide +kernel
    obtain ⟨⟨hkey, -⟩, rfl, rfl⟩ : (hello.key = m.key ∧ [] = keys) ∧ [] = added ∧ [] = view := by
      simpa using hready.symm.trans hphase
    rw [← hkey] at hrow
    exact absurd hrow (by decide +kernel)
  case hcommit =>
    rintro m - ⟨added, view, hphase, hfailed, -⟩
    have hready : (endState System.empty (batchRun (storedBatch.drop 1))).phase =
        .processing [] [hello] [] := by decide +kernel
    obtain ⟨rfl, -⟩ : [hello] = added ∧ [] = view := by simpa using hready.symm.trans hphase
    exact absurd (by decide +kernel) hfailed

/-- The process dies while the task has the only copy of the message. -/
def lostBatch : List Event := [.crash, .pop, .start, .enqueue hello, .setEntry hello]

theorem message_lost_in_crash :
    Trace Step (fun _ _ => True) System.empty (batchRun lostBatch)
        (endState System.empty (batchRun lostBatch)) ∧
      ¬ Every MessagesKept (batchRun lostBatch) := by
  refine ⟨trace_batchRun lostBatch, fun hall => ?_⟩
  have haccepted : Accepted hello (batchRun lostBatch) := by
    simp [Accepted, batchRun, lostBatch, historyOf, endState, System.after]
  have hlost : ¬ (endState System.empty (batchRun lostBatch)).Keeps hello := by decide +kernel
  exact hlost (hall.2 hello haccepted).1

end Soms.Chat.Persistence

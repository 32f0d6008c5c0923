import Mathlib.Data.List.Basic
import Mathlib.Data.List.MinMax
import Mathlib.Data.List.Nodup
import Soms.Library.Run

/-!
# The ids of playlist items

`Playlist.add_to_db`, `Playlist.delete_item` and `add_playlists_to_room` on the items of one room.
The server takes the next id behind the largest one the room has, so that the id of a deleted item
is given out again if no larger one is left.
-/

namespace Soms.Rooms.PlaylistItems

variable {α : Type}

/-- The items of a room in the order they were added. -/
abbrev Items (α : Type) := List (Nat × α)

namespace Items

def ids (items : Items α) : List Nat := items.map Prod.fst

/-- `(largest_id if largest_id is not None else -1) + 1` -/
def nextId (items : Items α) : Nat := items.ids.max?.elim 0 (· + 1)

end Items

/-- An item that was added, with whether the server chose its id. -/
structure Placed (α : Type) where
  id : Nat
  item : α
  assigned : Bool
  deriving DecidableEq, Repr

/-- Past an id that is there, fewer are left. -/
theorem countP_succ_lt {used : List Nat} {n : Nat} (h : n ∈ used) :
    used.countP (fun id => decide (n + 1 ≤ id)) < used.countP fun id => decide (n ≤ id) := by
  have hmono : ∀ l : List Nat,
      l.countP (fun id => decide (n + 1 ≤ id)) ≤ l.countP fun id => decide (n ≤ id) :=
    fun l => List.countP_mono_left fun id _ hid => by
      simp only [decide_eq_true_eq] at hid ⊢
      omega
  obtain ⟨before, behind, rfl⟩ := List.append_of_mem h
  have hbefore := hmono before
  have hbehind := hmono behind
  simp only [List.countP_append, List.countP_cons, le_refl, Nat.not_succ_le_self, decide_true,
    decide_false, if_true, Bool.false_eq_true, if_false]
  omega

/-- `while next_id in used_ids: next_id += 1` -/
def skipUsed (used : List Nat) (nextId : Nat) : Nat :=
  if nextId ∈ used then skipUsed used (nextId + 1) else nextId
termination_by used.countP fun id => decide (nextId ≤ id)
decreasing_by
  rename_i hmem
  exact countP_succ_lt hmem

/-- The loop of `add_playlists_to_room`. -/
def placeAll (nextId : Nat) (used : List Nat) : List (Option Int × α) → List (Placed α)
  | [] => []
  | (id, item) :: rest =>
    match id.filter fun id => decide (0 ≤ id ∧ id.toNat ∉ used) with
    | some id => ⟨id.toNat, item, false⟩ :: placeAll nextId (id.toNat :: used) rest
    | none =>
      let id := skipUsed used nextId
      ⟨id, item, true⟩ :: placeAll (id + 1) (id :: used) rest

inductive Event (α : Type) where
  | addToDb (id : Int) (item : α)
  | addPlaylistsToRoom (playlist : List (Option Int × α))
  | deleteItem (id : Nat)
  deriving DecidableEq, Repr

/-- The items that an event adds.  A second item with the id of another violates
`uq_room_playlists_room_id_id`. -/
def placed (items : Items α) : Event α → List (Placed α)
  | .addToDb id item =>
    if id < 0 then [⟨items.nextId, item, true⟩]
    else if id.toNat ∈ items.ids then [] else [⟨id.toNat, item, false⟩]
  | .addPlaylistsToRoom playlist => placeAll items.nextId items.ids playlist
  | .deleteItem _ => []

/-- The items after an event. -/
def after (items : Items α) (e : Event α) : Items α :=
  match e with
  | .deleteItem id => items.filter fun entry => entry.1 != id
  | e => items ++ (placed items e).map fun p => (p.id, p.item)

def Step (items : Items α) (e : Event α) (items' : Items α) : Prop := items' = after items e

/-- The ids that an item of the room has or had. -/
def had : List (Event α × Items α) → List Nat
  | [] => []
  | (e, _) :: past => had past ++ (placed (endState [] past) e).map Placed.id

/-- No id that the server chooses is one that an item of the room has or had before. -/
def Fresh (past : List (Event α × Items α)) (e : Event α) (_ : Items α) : Prop :=
  ∀ before p rest, placed (endState [] past) e = before ++ p :: rest → p.assigned = true →
    p.id ∉ had past ++ before.map Placed.id

/-- No id that is kept as it was given is one of an item that was deleted. -/
def KeptFresh (past : List (Event α × Items α)) (e : Event α) (_ : Items α) : Prop :=
  ∀ p ∈ placed (endState [] past) e, p.assigned = false → p.id ∉ had past

/-- A deletion leaves an item with a larger id, if it finds its item. -/
def LeavesLarger (items : Items α) : Event α → Prop
  | .deleteItem id => id ∈ items.ids → ∃ larger ∈ items.ids, id < larger
  | _ => True

variable {items : Items α} {e : Event α} {past : List (Event α × Items α)} {used : List Nat}
  {nextId n id : Nat} {playlist : List (Option Int × α)} {p : Placed α}

/-! ### The ids of one event -/

theorem lt_nextId (h : id ∈ items.ids) : id < items.nextId := by
  rw [Items.nextId]
  cases hmax : items.ids.max? with
  | none => simp [List.max?_eq_none_iff.mp hmax] at h
  | some largest => exact Nat.lt_succ_of_le ((List.max?_eq_some_iff.mp hmax).2 id h)

theorem le_skipUsed (used : List Nat) (n : Nat) : n ≤ skipUsed used n := by
  fun_induction skipUsed used n with
  | case1 n hmem ih => exact Nat.le_of_succ_le ih
  | case2 n hmem => exact Nat.le_refl n

theorem skipUsed_not_mem (used : List Nat) (n : Nat) : skipUsed used n ∉ used := by
  fun_induction skipUsed used n with
  | case1 n hmem ih => exact ih
  | case2 n hmem => exact hmem

/-- An item is placed under an id that no item has: one the server chooses, or the client's. -/
theorem placeAll_cons (nextId : Nat) (used : List Nat) (request : Option Int × α)
    (rest : List (Option Int × α)) :
    ∃ p nextId', placeAll nextId used (request :: rest) =
        p :: placeAll nextId' (p.id :: used) rest ∧
      p.id ∉ used ∧ nextId ≤ nextId' ∧ (p.assigned = true → nextId ≤ p.id) := by
  obtain ⟨requested, item⟩ := request
  rw [placeAll]
  split
  · rename_i given hgiven
    simp only [Option.filter_eq_some_iff, decide_eq_true_eq] at hgiven
    exact ⟨_, _, rfl, hgiven.2.2, Nat.le_refl _, nofun⟩
  · exact ⟨_, _, rfl, skipUsed_not_mem used nextId,
      Nat.le_succ_of_le (le_skipUsed used nextId), fun _ => le_skipUsed used nextId⟩

theorem placeAll_fresh {before rest : List (Placed α)}
    (h : placeAll nextId used playlist = before ++ p :: rest) :
    p.id ∉ used ++ before.map Placed.id ∧ (p.assigned = true → nextId ≤ p.id) := by
  induction playlist generalizing nextId used before with
  | nil => cases before <;> cases h
  | cons request playlist ih =>
    obtain ⟨first, nextId', hplace, hfirst, hnext, hassigned⟩ :=
      placeAll_cons nextId used request playlist
    rw [hplace] at h
    cases before with
    | nil =>
      obtain ⟨rfl, -⟩ := List.cons.inj h
      exact ⟨by simpa using hfirst, hassigned⟩
    | cons q before =>
      obtain ⟨rfl, hrest⟩ := List.cons.inj h
      obtain ⟨hmem, hle⟩ := ih hrest
      refine ⟨?_, fun hp => Nat.le_trans hnext (hle hp)⟩
      simp only [List.mem_append, List.mem_cons, List.map_cons, not_or] at hmem ⊢
      exact ⟨hmem.1.2, hmem.1.1, hmem.2⟩

/-- What an event adds is under ids that no item has, and the server chooses larger ones than the
room has. -/
theorem placed_fresh {before rest : List (Placed α)} (h : placed items e = before ++ p :: rest) :
    p.id ∉ items.ids ++ before.map Placed.id ∧
      (p.assigned = true → ∀ id ∈ items.ids, id < p.id) := by
  cases e with
  | addToDb id item =>
    have hsingle : ∀ q : Placed α, [q] = before ++ p :: rest → before = [] ∧ q = p := by
      intro q hq
      cases before with
      | nil => exact ⟨rfl, (List.cons.inj hq).1⟩
      | cons first before => simp at hq
    rw [placed] at h
    split at h
    · obtain ⟨rfl, rfl⟩ := hsingle _ h
      refine ⟨?_, fun _ id hid => lt_nextId hid⟩
      rw [List.map_nil, List.append_nil]
      exact fun hmem => Nat.lt_irrefl _ (lt_nextId hmem)
    · split at h
      · cases before <;> cases h
      · rename_i hfree
        obtain ⟨rfl, rfl⟩ := hsingle _ h
        exact ⟨by simpa using hfree, nofun⟩
  | addPlaylistsToRoom playlist =>
    obtain ⟨hmem, hle⟩ := placeAll_fresh h
    exact ⟨hmem, fun hp id hid => Nat.lt_of_lt_of_le (lt_nextId hid) (hle hp)⟩
  | deleteItem id => cases before <;> cases h

theorem placed_nodup (items : Items α) (e : Event α) :
    ((placed items e).map Placed.id).Nodup := by
  suffices hall : ∀ before rest, placed items e = before ++ rest → (before.map Placed.id).Nodup from
    hall _ [] (List.append_nil _).symm
  intro before
  induction before using List.reverseRecOn with
  | nil => exact fun _ _ => List.nodup_nil
  | append_singleton before p ih =>
    intro rest h
    rw [List.append_assoc, List.singleton_append] at h
    have hp := (placed_fresh h).1
    rw [List.mem_append, not_or] at hp
    rw [List.map_append, List.map_singleton, ← List.concat_eq_append]
    exact (ih _ h).concat hp.2

/-! ### Runs -/

/-- The room has an id as large as any it had. -/
structure Topped (past : List (Event α × Items α)) (items : Items α) : Prop where
  recorded : ∀ id ∈ items.ids, id ∈ had past
  top : ∀ id ∈ had past, ∃ larger ∈ items.ids, id ≤ larger

theorem Topped.fresh (h : Topped past items) (hend : endState [] past = items) :
    Fresh past e (after items e) := by
  intro before p rest hplaced hassigned
  rw [hend] at hplaced
  obtain ⟨hmem, hlarger⟩ := placed_fresh hplaced
  rw [List.mem_append, not_or] at hmem ⊢
  refine ⟨fun hhad => ?_, hmem.2⟩
  obtain ⟨larger, hid, hle⟩ := h.top p.id hhad
  exact Nat.lt_irrefl _ (Nat.lt_of_lt_of_le (hlarger hassigned larger hid) hle)

/-- An event that is no deletion adds what it places. -/
theorem ids_after (hnot : ∀ id, e ≠ .deleteItem id) :
    (after items e).ids = items.ids ++ (placed items e).map Placed.id := by
  cases e with
  | deleteItem id => exact absurd rfl (hnot id)
  | addToDb id item => simp [after, Items.ids]
  | addPlaylistsToRoom playlist => simp [after, Items.ids]

theorem Topped.add (h : Topped past items) (hend : endState [] past = items)
    (hnot : ∀ id, e ≠ .deleteItem id) :
    Topped ((e, PlaylistItems.after items e) :: past) (PlaylistItems.after items e) where
  recorded id hid := by
    rw [ids_after hnot, List.mem_append] at hid
    rw [had, hend]
    exact List.mem_append.mpr (hid.imp_left (h.recorded id))
  top id hid := by
    rw [had, hend, List.mem_append] at hid
    simp only [ids_after hnot, List.mem_append]
    cases hid with
    | inl hid =>
      obtain ⟨larger, hlarger, hle⟩ := h.top id hid
      exact ⟨larger, .inl hlarger, hle⟩
    | inr hid => exact ⟨id, .inr hid, Nat.le_refl id⟩

/-- The step lemma: a deletion that leaves a larger id keeps the top. -/
theorem Topped.after (h : Topped past items) (hend : endState [] past = items)
    (hallowed : LeavesLarger items e) :
    Topped ((e, after items e) :: past) (after items e) := by
  cases e with
  | deleteItem id =>
    have hhad : had ((.deleteItem id, PlaylistItems.after items (.deleteItem id)) :: past) =
        had past := List.append_nil _
    have hids : ∀ other, other ∈ (PlaylistItems.after items (.deleteItem id)).ids ↔
        other ∈ items.ids ∧ other ≠ id := by
      intro other
      simp only [PlaylistItems.after, Items.ids, List.mem_map, List.mem_filter, bne_iff_ne]
      constructor
      · rintro ⟨entry, ⟨hentry, hne⟩, rfl⟩
        exact ⟨⟨entry, hentry, rfl⟩, hne⟩
      · rintro ⟨⟨entry, hentry, rfl⟩, hne⟩
        exact ⟨entry, ⟨hentry, hne⟩, rfl⟩
    refine ⟨fun other hother => ?_, fun other hother => ?_⟩
    · rw [hhad]
      exact h.recorded other ((hids other).mp hother).1
    · rw [hhad] at hother
      obtain ⟨top, htop, hle⟩ := h.top other hother
      by_cases hdeleted : top = id
      · obtain ⟨larger, hlarger, hlt⟩ := hallowed (hdeleted ▸ htop)
        exact ⟨larger, (hids larger).mpr ⟨hlarger, Nat.ne_of_gt hlt⟩, by omega⟩
      · exact ⟨top, (hids top).mpr ⟨htop, hdeleted⟩, hle⟩
  | addToDb id item => exact h.add hend nofun
  | addPlaylistsToRoom playlist => exact h.add hend nofun

theorem had_nodup (hfresh : Every Fresh past) (hkept : Every KeptFresh past) :
    (had past).Nodup := by
  induction past with
  | nil => exact List.nodup_nil
  | cons x past ih =>
    obtain ⟨e, items⟩ := x
    rw [had, List.nodup_append']
    refine ⟨ih hfresh.1 hkept.1, placed_nodup _ e, fun id hid hplaced => ?_⟩
    obtain ⟨p, hp, rfl⟩ := List.mem_map.mp hplaced
    cases hassigned : p.assigned with
    | false => exact hkept.2 p hp hassigned hid
    | true =>
      obtain ⟨before, rest, hsplit⟩ := List.append_of_mem hp
      exact hfresh.2 before p rest hsplit hassigned (List.mem_append_left _ hid)

/-- In every run in which no deletion takes the item with the largest id, no id that the server
chooses was that of an item before; and if no client names a deleted one, every id names one item
in the whole run. -/
theorem ids_not_reused (hrun : Trace Step LeavesLarger [] past items) :
    Every Fresh past ∧ (Every KeptFresh past → (had past).Nodup) := by
  suffices hall : Every Fresh past ∧ Topped past items from ⟨hall.1, had_nodup hall.1⟩
  induction hrun with
  | refl => exact ⟨trivial, by simp [Items.ids], by simp [had]⟩
  | @tail past s t e run hallowed last ih =>
    obtain ⟨hevery, htopped⟩ := ih
    obtain rfl : t = after s e := last
    exact ⟨⟨hevery, htopped.fresh run.endState_eq⟩, htopped.after run.endState_eq hallowed⟩

/-- Two items, the first deleted, and a third. -/
def firstDeleted : List (Event String) :=
  [.addToDb (-1) "c", .deleteItem 0, .addPlaylistsToRoom [(none, "a"), (some 0, "b")]]

theorem ids_not_reused_firstDeleted :
    Every Fresh (historyOf after [] firstDeleted) ∧
      (Every KeptFresh (historyOf after [] firstDeleted) →
        (had (historyOf after [] firstDeleted)).Nodup) :=
  ids_not_reused (trace_historyOf_of_every (P := LeavesLarger) [] firstDeleted (fun _ _ => rfl)
    ⟨⟨⟨trivial, trivial⟩, fun _ => ⟨1, by decide +kernel, by decide⟩⟩, trivial⟩)

/-- The last item is deleted, and the next one gets its id. -/
def lastDeleted : List (Event String) :=
  [.addToDb (-1) "c", .deleteItem 1, .addToDb (-1) "b", .addToDb (-1) "a"]

theorem reused_lastDeleted :
    had (historyOf after [] lastDeleted) = [0, 1, 1] ∧
      ¬ Every Fresh (historyOf after [] lastDeleted) := by
  refine ⟨by decide, fun hfresh => ?_⟩
  exact hfresh.2 [] ⟨1, "c", true⟩ [] rfl rfl (by decide)

end Soms.Rooms.PlaylistItems

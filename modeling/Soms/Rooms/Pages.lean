import Mathlib.Data.List.Sort
import Soms.Library.Keyset
import Soms.Rooms.Playlist
import Soms.Scores.Data

/-!
# The leaderboard of a playlist item

`index_playlist_scores` of `router/v2/score.py`, which reads the leaderboard page by page in either
direction, and `partition_scores_around` of `database/playlist_best_score.py`, which cuts the pages
next to one score out of it.
-/

namespace Soms.Rooms.Pages

open Soms.Scores (RoomId ItemId UserId ScoreId)
open Playlist (RoomCategory)

structure PlaylistBestScore where
  userId : UserId
  scoreId : ScoreId
  roomId : RoomId
  playlistId : ItemId
  totalScore : Int
  deriving DecidableEq, Repr

inductive ScoreSort where
  | scoreDesc | scoreAsc
  deriving DecidableEq, Repr

/-- `total_score` and `score_id` -/
abbrev Cursor := Int × Int

def PlaylistBestScore.key (row : PlaylistBestScore) : Cursor := (row.totalScore, row.scoreId)

open PlaylistBestScore

/-- One key comes before another: equal totals are ordered against the direction of the totals. -/
def precedes : ScoreSort → Cursor → Cursor → Prop
  | .scoreDesc, a, b => b.1 < a.1 ∨ a.1 = b.1 ∧ a.2 < b.2
  | .scoreAsc, a, b => a.1 < b.1 ∨ a.1 = b.1 ∧ b.2 < a.2

instance (sort : ScoreSort) : DecidableRel (precedes sort) := fun a b =>
  match sort with
  | .scoreDesc => inferInstanceAs (Decidable (b.1 < a.1 ∨ a.1 = b.1 ∧ a.2 < b.2))
  | .scoreAsc => inferInstanceAs (Decidable (a.1 < b.1 ∨ a.1 = b.1 ∧ b.2 < a.2))

/-- `ORDER BY` of both columns. -/
def ordered (sort : ScoreSort) (rows : List PlaylistBestScore) : List PlaylistBestScore :=
  rows.insertionSort fun a b => ¬ precedes sort b.key a.key

/-- The condition that the cursor adds. -/
def afterCursor (sort : ScoreSort) (cursor cursorScoreId : Option Int) (row : PlaylistBestScore) :
    Bool :=
  match cursor, cursorScoreId with
  | none, _ => true
  | some total, none =>
    match sort with
    | .scoreAsc => decide (total < row.totalScore)
    | .scoreDesc => decide (row.totalScore < total)
  | some total, some id => decide (precedes sort (total, id) row.key)

def clamp (n minValue maxValue : Int) : Int :=
  if n < minValue then minValue else if maxValue < n then maxValue else n

/-- What the endpoint finds. -/
structure View where
  room : Option RoomCategory
  itemExists : Bool
  table : List PlaylistBestScore
  passed : ScoreId → Bool
  restricted : UserId → Bool

inductive Failure where
  | roomNotFound | playlistItemNotFound
  deriving DecidableEq, Repr

structure IndexedScoreResp where
  scores : List PlaylistBestScore
  userScore : Option PlaylistBestScore
  total : Nat
  limit : Nat
  sort : ScoreSort
  cursor : Option Cursor

/-- `base_conditions` -/
def View.visible (v : View) (category : RoomCategory) (roomId : RoomId) (playlistId : ItemId) :
    List PlaylistBestScore :=
  v.table.filter fun row =>
    row.playlistId == playlistId && row.roomId == roomId && !v.restricted row.userId &&
      (category == .realtime || v.passed row.scoreId)

/-- `index_playlist_scores` -/
def indexPlaylistScores (v : View) (roomId : RoomId) (playlistId : ItemId)
    (currentUser : Option UserId) (limit : Int) (sort : ScoreSort) (cursor cursorScoreId : Option Int) :
    Except Failure IndexedScoreResp :=
  match v.room with
  | none => .error .roomNotFound
  | some category =>
    if v.itemExists = false then .error .playlistItemNotFound
    else
      let limit := (clamp limit 1 50).toNat
      let rows := v.visible category roomId playlistId
      let found := (ordered sort (rows.filter (afterCursor sort cursor cursorScoreId))).take
        (limit + 1)
      let hasMore := decide (limit < found.length)
      let scores := if hasMore then found.dropLast else found
      .ok {
        scores
        userScore := currentUser.bind fun uid => rows.find? fun row => row.userId == uid
        total := rows.length
        limit
        sort
        cursor := if hasMore then scores.getLast?.map key else none }

/-- `partition_scores_around`: the pages above and below a score, the nearest rows first, and
whether there are more. -/
def partitionScoresAround (scores : List PlaylistBestScore) (pivotScoreId : ScoreId) (limit : Int) :
    Except String (List PlaylistBestScore × List PlaylistBestScore × Bool × Bool) :=
  if limit < 1 then .error "limit must be positive"
  else
    let n := limit.toNat
    match scores.find? fun score => score.scoreId == pivotScoreId with
    | none => .ok ([], [], false, false)
    | some pivot =>
      let rest := ordered .scoreDesc (scores.filter fun score => score.userId != pivot.userId)
      let higherAll := rest.filter fun score => decide (precedes .scoreDesc score.key pivot.key)
      let lowerAll := rest.filter fun score => decide (precedes .scoreDesc pivot.key score.key)
      .ok ((higherAll.drop (higherAll.length - n)).reverse, lowerAll.take n,
        decide (n < higherAll.length), decide (n < lowerAll.length))

/-! ## The order -/

section Order

variable {sort : ScoreSort} {rows : List PlaylistBestScore}

instance (sort : ScoreSort) : Std.Asymm (precedes sort) where
  asymm a b h₁ h₂ := by
    cases sort <;> simp only [precedes] at h₁ h₂ <;> omega

instance (sort : ScoreSort) : IsTrans Cursor (precedes sort) where
  trans a b c h₁ h₂ := by
    cases sort <;> simp only [precedes] at h₁ h₂ ⊢ <;> omega

theorem precedes_total (sort : ScoreSort) {a b : Cursor} (hne : a ≠ b) :
    precedes sort a b ∨ precedes sort b a := by
  have hne' : ¬ (a.1 = b.1 ∧ a.2 = b.2) := fun h => hne (Prod.ext h.1 h.2)
  cases sort <;> simp only [precedes] <;> omega

theorem precedes_asc (a b : Cursor) : precedes .scoreAsc a b ↔ precedes .scoreDesc b a := by
  simp only [precedes]
  omega

theorem precedes_desc {a b : PlaylistBestScore} :
    precedes .scoreDesc a.key b.key ↔
      b.totalScore < a.totalScore ∨ a.totalScore = b.totalScore ∧ a.scoreId < b.scoreId := by
  simp [precedes, key]

theorem ordered_perm (sort : ScoreSort) (rows : List PlaylistBestScore) :
    (ordered sort rows).Perm rows := List.perm_insertionSort _ _

theorem key_nodup (hids : (rows.map scoreId).Nodup) : (rows.map key).Nodup := by
  refine List.Nodup.of_map (fun c : Cursor => c.2.toNat) ?_
  rw [List.map_map]
  exact hids

theorem ordered_strict (sort : ScoreSort) (hids : (rows.map scoreId).Nodup) :
    (ordered sort rows).Pairwise fun a b => precedes sort a.key b.key := by
  have : Std.Total fun a b : PlaylistBestScore => ¬ precedes sort b.key a.key :=
    ⟨fun a b => Classical.not_and_iff_not_or_not.mp fun h => Std.Asymm.asymm _ _ h.1 h.2⟩
  have : IsTrans PlaylistBestScore fun a b => ¬ precedes sort b.key a.key := by
    refine ⟨fun a b c h₁ h₂ h₃ => ?_⟩
    cases sort <;> simp only [precedes] at h₁ h₂ h₃ <;> omega
  have hsorted : (ordered sort rows).Pairwise fun a b => ¬ precedes sort b.key a.key :=
    List.pairwise_insertionSort _ _
  have hkeys : ((ordered sort rows).map key).Nodup :=
    ((ordered_perm sort rows).map key).nodup_iff.mpr (key_nodup hids)
  exact hsorted.imp₂ (fun _ _ hnot hne => (precedes_total sort hne).resolve_right hnot)
    (List.pairwise_map.mp hkeys)

/-- There is one order of the rows. -/
theorem eq_of_strict (sort : ScoreSort) {l l' : List PlaylistBestScore} (hperm : l.Perm l')
    (hl : l.Pairwise fun a b => precedes sort a.key b.key)
    (hl' : l'.Pairwise fun a b => precedes sort a.key b.key) : l = l' := by
  refine hperm.eq_of_pairwise (fun a b _ _ h₁ h₂ => ?_) hl hl'
  exact absurd h₂ (Std.Asymm.asymm _ _ h₁)

theorem ordered_filter (sort : ScoreSort) (hids : (rows.map scoreId).Nodup)
    (p : PlaylistBestScore → Bool) :
    ordered sort (rows.filter p) = (ordered sort rows).filter p := by
  refine eq_of_strict sort
    ((ordered_perm _ _).trans ((ordered_perm sort rows).filter p).symm)
    (ordered_strict sort ?_) ((ordered_strict sort hids).filter p)
  exact hids.sublist (List.filter_sublist.map scoreId)

theorem ordered_asc (hids : (rows.map scoreId).Nodup) :
    ordered .scoreAsc rows = (ordered .scoreDesc rows).reverse := by
  refine eq_of_strict .scoreAsc ?_ (ordered_strict .scoreAsc hids) ?_
  · exact (ordered_perm _ _).trans
      ((List.reverse_perm _).trans (ordered_perm .scoreDesc rows)).symm
  · rw [List.pairwise_reverse]
    exact (ordered_strict .scoreDesc hids).imp fun h => (precedes_asc _ _).mpr h

end Order

/-! ## Following the cursors -/

/-- One answer of the endpoint: its rows and its cursor. -/
def View.answer (v : View) (roomId : RoomId) (playlistId : ItemId) (currentUser : Option UserId)
    (limit : Int) (sort : ScoreSort) (cursor : Option Cursor) :
    List PlaylistBestScore × Option Cursor :=
  match indexPlaylistScores v roomId playlistId currentUser limit sort (cursor.map Prod.fst)
      (cursor.map Prod.snd) with
  | .ok resp => (resp.scores, resp.cursor)
  | .error _ => ([], none)

/-- Following the cursors from one on reads exactly these rows, whoever asks and with whatever
limit. -/
def View.Enumerates (v : View) (roomId : RoomId) (playlistId : ItemId) (sort : ScoreSort)
    (cursor : Option Cursor) (rows : List PlaylistBestScore) : Prop :=
  ∀ currentUser limit fuel, v.table.length < fuel →
    follow (v.answer roomId playlistId currentUser limit sort) fuel cursor = some rows

section Follow

variable {v : View} {category : RoomCategory} {roomId : RoomId} {playlistId : ItemId}

theorem clamp_pos (limit : Int) : 0 < (clamp limit 1 50).toNat := by
  unfold clamp
  split_ifs <;> omega

/-- The cursor of an answer is compared with the keys. -/
theorem afterCursor_eq (sort : ScoreSort) (cursor : Option Cursor) (row : PlaylistBestScore) :
    afterCursor sort (cursor.map Prod.fst) (cursor.map Prod.snd) row =
      cursor.all fun c => decide (precedes sort c row.key) := by
  cases cursor <;> rfl

theorem visible_ids (hids : (v.table.map scoreId).Nodup) (category : RoomCategory)
    (roomId : RoomId) (playlistId : ItemId) :
    ((v.visible category roomId playlistId).map scoreId).Nodup :=
  hids.sublist (List.filter_sublist.map scoreId)

theorem answer_eq (hids : (v.table.map scoreId).Nodup) (hroom : v.room = some category)
    (hitem : v.itemExists = true) (currentUser : Option UserId) (limit : Int) (sort : ScoreSort) :
    v.answer roomId playlistId currentUser limit sort =
      keysetPage key (precedes sort) (ordered sort (v.visible category roomId playlistId))
        (clamp limit 1 50).toNat := by
  funext cursor
  have hfound : ordered sort ((v.visible category roomId playlistId).filter
      (afterCursor sort (cursor.map Prod.fst) (cursor.map Prod.snd))) =
      rowsAfter key (precedes sort) (ordered sort (v.visible category roomId playlistId)) cursor := by
    rw [ordered_filter sort (visible_ids hids category roomId playlistId)]
    exact List.filter_congr fun row _ => afterCursor_eq sort cursor row
  unfold View.answer indexPlaylistScores keysetPage
  rw [hroom]
  dsimp only
  rw [if_neg (by simp [hitem]), hfound]
  dsimp only
  generalize (rowsAfter key (precedes sort) _ cursor).take _ = found
  by_cases hmore : (clamp limit 1 50).toNat < found.length <;> simp [hmore]

theorem enumerates_rowsAfter (hids : (v.table.map scoreId).Nodup) (hroom : v.room = some category)
    (hitem : v.itemExists = true) (roomId : RoomId) (playlistId : ItemId) (sort : ScoreSort)
    (cursor : Option Cursor) :
    v.Enumerates roomId playlistId sort cursor
      (rowsAfter key (precedes sort) (ordered sort (v.visible category roomId playlistId))
        cursor) := by
  intro currentUser limit fuel hfuel
  rw [answer_eq hids hroom hitem]
  refine follow_keysetPage (ordered_strict sort (visible_ids hids category roomId playlistId)) (clamp_pos limit) ?_
  have hfew : (rowsAfter key (precedes sort)
      (ordered sort (v.visible category roomId playlistId)) cursor).length ≤ v.table.length := by
    refine (List.length_filter_le ..).trans ?_
    rw [(ordered_perm _ _).length_eq]
    exact List.length_filter_le ..
  omega

end Follow

/-! ## The pages around a score -/

/-- The rows of the other users that come after the pivot in one direction. -/
def side (sort : ScoreSort) (rows : List PlaylistBestScore) (pivot : PlaylistBestScore) :
    List PlaylistBestScore :=
  (ordered sort rows).filter fun row =>
    decide (precedes sort pivot.key row.key) && row.userId != pivot.userId

section Around

variable {rows : List PlaylistBestScore} {pivot : PlaylistBestScore}

theorem find_pivot (hids : (rows.map scoreId).Nodup) (hpivot : pivot ∈ rows) :
    (rows.find? fun row => row.scoreId == pivot.scoreId) = some pivot := by
  cases hfind : rows.find? fun row => row.scoreId == pivot.scoreId with
  | none => simpa using List.find?_eq_none.mp hfind pivot hpivot
  | some row =>
    have hid : row.scoreId = pivot.scoreId := by simpa using List.find?_some hfind
    rw [List.inj_on_of_nodup_map hids (List.mem_of_find?_eq_some hfind) hpivot hid]

/-- Each page is the beginning of its side. -/
theorem partitionScoresAround_eq (hids : (rows.map scoreId).Nodup) (hpivot : pivot ∈ rows)
    {limit : Int} (hlimit : 1 ≤ limit) :
    partitionScoresAround rows pivot.scoreId limit =
      .ok ((side .scoreAsc rows pivot).take limit.toNat,
        (side .scoreDesc rows pivot).take limit.toNat,
        decide (limit.toNat < (side .scoreAsc rows pivot).length),
        decide (limit.toNat < (side .scoreDesc rows pivot).length)) := by
  have hlower : (ordered .scoreDesc (rows.filter fun row => row.userId != pivot.userId)).filter
      (fun row => decide (precedes .scoreDesc pivot.key row.key)) = side .scoreDesc rows pivot := by
    rw [ordered_filter _ hids, List.filter_filter]
    rfl
  have hhigher : (ordered .scoreDesc (rows.filter fun row => row.userId != pivot.userId)).filter
      (fun row => decide (precedes .scoreDesc row.key pivot.key)) =
        (side .scoreAsc rows pivot).reverse := by
    unfold side
    rw [ordered_filter _ hids, List.filter_filter, ordered_asc hids, List.filter_reverse,
      List.reverse_reverse]
    refine List.filter_congr fun row _ => ?_
    rw [decide_eq_decide.mpr (precedes_asc pivot.key row.key)]
  have hnearest : (side .scoreAsc rows pivot).take ((side .scoreAsc rows pivot).length -
      ((side .scoreAsc rows pivot).length - limit.toNat)) =
        (side .scoreAsc rows pivot).take limit.toNat := by
    by_cases hmore : limit.toNat ≤ (side .scoreAsc rows pivot).length
    · rw [Nat.sub_sub_self hmore]
    · rw [List.take_of_length_le (by omega), List.take_of_length_le (by omega)]
  unfold partitionScoresAround
  rw [if_neg (by omega), find_pivot hids hpivot]
  dsimp only
  rw [hlower, hhigher, List.length_reverse, List.drop_reverse, List.reverse_reverse, hnearest]

/-- The page and the rows after its last row make up the side, apart from the pivot's own user. -/
theorem page_append_rest {sort : ScoreSort} (hids : (rows.map scoreId).Nodup) {n : Nat}
    {last : PlaylistBestScore} (hlast : ((side sort rows pivot).take n).getLast? = some last) :
    ((side sort rows pivot).take n ++
        rowsAfter key (precedes sort) (ordered sort rows) (some last.key)).filter
          (fun row => row.userId != pivot.userId) =
      side sort rows pivot := by
  have hothers : ∀ row ∈ side sort rows pivot, (row.userId != pivot.userId) = true :=
    fun row hrow => (Bool.and_eq_true_iff.mp (List.mem_filter.mp hrow).2).2
  have hstrict : (side sort rows pivot).Pairwise fun a b => precedes sort a.key b.key :=
    (ordered_strict sort hids).filter _
  obtain ⟨before, hbefore⟩ := List.getLast?_eq_some_iff.mp hlast
  have hmem : last ∈ side sort rows pivot :=
    List.mem_of_mem_take (List.mem_of_getLast? hlast)
  have hpivot : precedes sort pivot.key last.key :=
    of_decide_eq_true (Bool.and_eq_true_iff.mp (List.mem_filter.mp hmem).2).1
  have hsplit : before ++ last :: (side sort rows pivot).drop n = side sort rows pivot := by
    rw [List.append_cons, ← hbefore, List.take_append_drop]
  have hdrop : rowsAfter key (precedes sort) (side sort rows pivot) (some last.key) =
      (side sort rows pivot).drop n := by
    rw [← hsplit] at hstrict
    have h := rowsAfter_split hstrict
    rwa [hsplit] at h
  have hrest : (rowsAfter key (precedes sort) (ordered sort rows) (some last.key)).filter
      (fun row => row.userId != pivot.userId) = (side sort rows pivot).drop n := by
    rw [← hdrop]
    unfold rowsAfter side
    rw [List.filter_filter, List.filter_filter]
    refine List.filter_congr fun row _ => ?_
    by_cases hafter : precedes sort last.key row.key
    · have htrans : precedes sort pivot.key row.key := IsTrans.trans _ _ _ hpivot hafter
      simp [hafter, htrans]
    · simp [hafter]
  rw [List.filter_append, hrest, List.filter_eq_self.mpr fun row hrow =>
    hothers row (List.mem_of_mem_take hrow), List.take_append_drop]

end Around

/-! ## The leaderboard -/

/-- The leaderboard of an item is read in full and in order. -/
structure Paginated (v : View) (category : RoomCategory) (roomId : RoomId) (playlistId : ItemId) :
    Prop where
  /-- Each visible row once, the highest total first, and the oldest of equal ones. -/
  falling : (ordered .scoreDesc (v.visible category roomId playlistId)).Perm
      (v.visible category roomId playlistId) ∧
    (ordered .scoreDesc (v.visible category roomId playlistId)).Pairwise fun a b =>
      b.totalScore < a.totalScore ∨ a.totalScore = b.totalScore ∧ a.scoreId < b.scoreId
  descending : v.Enumerates roomId playlistId .scoreDesc none
    (ordered .scoreDesc (v.visible category roomId playlistId))
  ascending : v.Enumerates roomId playlistId .scoreAsc none
    (ordered .scoreDesc (v.visible category roomId playlistId)).reverse
  /-- From the last row of a page around a score on, the rows behind it are read; with the page
  they are all the rows on that side of the score. -/
  around : ∀ pivot ∈ v.visible category roomId playlistId, ∀ limit, 1 ≤ limit →
    ∃ higher lower moreHigher moreLower,
      partitionScoresAround (v.visible category roomId playlistId) pivot.scoreId limit =
        .ok (higher, lower, moreHigher, moreLower) ∧
      ∀ sort page, (sort = .scoreAsc ∧ page = higher ∨ sort = .scoreDesc ∧ page = lower) →
        ∀ last, page.getLast? = some last →
          ∃ rest, v.Enumerates roomId playlistId sort (some last.key) rest ∧
            rest = (ordered sort (v.visible category roomId playlistId)).filter
              (fun row => decide (precedes sort last.key row.key)) ∧
            (page ++ rest).filter (fun row => row.userId != pivot.userId) =
              (ordered sort (v.visible category roomId playlistId)).filter fun row =>
                decide (precedes sort pivot.key row.key) && row.userId != pivot.userId

/-- **Playlist pagination.** -/
theorem playlist_pagination_complete {v : View} {category : RoomCategory}
    (hids : (v.table.map scoreId).Nodup) (hroom : v.room = some category)
    (hitem : v.itemExists = true) (roomId : RoomId) (playlistId : ItemId) :
    Paginated v category roomId playlistId := by
  have hvisible := visible_ids hids category roomId playlistId
  have hall := fun sort => enumerates_rowsAfter hids hroom hitem roomId playlistId sort none
  simp only [rowsAfter_none] at hall
  refine ⟨⟨ordered_perm _ _, (ordered_strict .scoreDesc hvisible).imp precedes_desc.mp⟩,
    hall .scoreDesc, ordered_asc hvisible ▸ hall .scoreAsc, ?_⟩
  · intro pivot hpivot limit hlimit
    refine ⟨_, _, _, _, partitionScoresAround_eq hvisible hpivot hlimit, ?_⟩
    rintro sort page (⟨rfl, rfl⟩ | ⟨rfl, rfl⟩) last hlast
    · exact ⟨_, enumerates_rowsAfter hids hroom hitem _ _ _ _, rfl, page_append_rest hvisible hlast⟩
    · exact ⟨_, enumerates_rowsAfter hids hroom hitem _ _ _ _, rfl, page_append_rest hvisible hlast⟩

/-- Three users on the item 3 of the playlist room 5; two of them have the same total. -/
def threeUsers : View where
  room := some .normal
  itemExists := true
  table := [⟨1, 11, 5, 3, 500⟩, ⟨2, 12, 5, 3, 700⟩, ⟨3, 13, 5, 3, 500⟩]
  passed _ := true
  restricted _ := false

theorem playlist_pagination_complete_three : Paginated threeUsers .normal 5 3 :=
  playlist_pagination_complete (by decide) rfl rfl 5 3

/-- Page by page, with one row on each. -/
example : follow (threeUsers.answer 5 3 none 1 .scoreDesc) 4 none =
    some [⟨2, 12, 5, 3, 700⟩, ⟨1, 11, 5, 3, 500⟩, ⟨3, 13, 5, 3, 500⟩] := by decide +kernel

end Soms.Rooms.Pages

import Soms.Library.RowNumber
import Soms.Rooms.Room

/-!
# The position in a room

`ItemAttemptsCount.get_position` of `database/item_attempts_count.py`.  The rows of all rooms are
numbered, each room by itself, and the number of the first row of the user is taken: that row can
be from another room.
-/

namespace Soms.Rooms.Position

/-- A row of `item_attempts_count`. -/
structure ItemAttemptsCount where
  id : Nat
  roomId : RoomId
  userId : UserId
  totalScore : Nat
  deriving DecidableEq, Repr

open ItemAttemptsCount

/-- `get_position`, where `window` is the order in which the rows are numbered and `result` the one
in which they are returned. -/
def getPosition (window result : List ItemAttemptsCount) (self : ItemAttemptsCount) : Nat :=
  ((result.find? fun row => row.userId == self.userId).map (rowNumber roomId window)).getD 0

/-- A rank of a row in its room: after the rows with a larger total, at some place among those with
an equal one. -/
def IsRank (table : List ItemAttemptsCount) (row : ItemAttemptsCount) (rank : Nat) : Prop :=
  larger roomId totalScore table row < rank ∧ rank ≤ atLeast roomId totalScore table row

variable {table : List ItemAttemptsCount} {self : ItemAttemptsCount}

/-- Every number that a row may get is a rank of it. -/
theorem isRank_rowNumber {window : List ItemAttemptsCount} {row : ItemAttemptsCount}
    (hwindow : IsWindow roomId totalScore table window) (hrow : row ∈ table) :
    IsRank table row (rowNumber roomId window row) :=
  ⟨hwindow.larger_lt hrow, hwindow.le_atLeast hrow⟩

theorem getPosition_of_find {window result : List ItemAttemptsCount} {row : ItemAttemptsCount}
    (h : (result.find? fun row => row.userId == self.userId) = some row) :
    getPosition window result self = rowNumber roomId window row := by
  unfold getPosition
  rw [h]
  rfl

/-- Any row of the user may be returned first. -/
theorem getPosition_first {window : List ItemAttemptsCount} {row : ItemAttemptsCount}
    (huser : row.userId = self.userId) :
    getPosition window (row :: table.erase row) self = rowNumber roomId window row :=
  getPosition_of_find (List.find?_cons_of_pos (by simp [huser]))

/-- **Room position.**  The position is a rank of the row, in whatever order the database numbers and
returns the rows, if and only if each row of the user, of any room, has no rank in its own room that
this row does not have in its room. -/
theorem get_position_iff (hnodup : table.Nodup) (hself : self ∈ table) :
    (∀ window result, IsWindow roomId totalScore table window → result.Perm table →
      IsRank table self (getPosition window result self)) ↔
    ∀ row ∈ table, row.userId = self.userId → ∀ rank, IsRank table row rank →
      IsRank table self rank := by
  constructor
  · intro hranks row hrow huser rank ⟨hlow, hhigh⟩
    have hperm : (row :: table.erase row).Perm table := (List.perm_cons_erase hrow).symm
    obtain ⟨first, hfirst, hleast⟩ := exists_window_first roomId totalScore hnodup hrow
    obtain ⟨last, hlast, hmost⟩ := exists_window_last roomId totalScore hnodup hrow
    have hleast' := (hranks first _ hfirst hperm).1
    have hmost' := (hranks last _ hlast hperm).2
    rw [getPosition_first huser, hleast] at hleast'
    rw [getPosition_first huser, hmost] at hmost'
    exact ⟨by omega, hhigh.trans hmost'⟩
  · intro hrows window result hwindow hresult
    have hsome : (result.find? fun row => row.userId == self.userId).isSome = true :=
      List.find?_isSome.mpr ⟨self, hresult.mem_iff.mpr hself, by simp⟩
    obtain ⟨row, hfind⟩ := Option.isSome_iff_exists.mp hsome
    have hrow : row ∈ table := hresult.mem_iff.mp (List.mem_of_find?_eq_some hfind)
    have huser : row.userId = self.userId := by simpa using List.find?_some hfind
    rw [getPosition_of_find hfind]
    exact hrows row hrow huser _ (isRank_rowNumber hwindow hrow)

/-- User 7 leads the room 1. -/
def leader : ItemAttemptsCount := ⟨1, 1, 7, 100⟩

/-- The row of user 7 in the room 2, behind user 8. -/
def runnerUp : ItemAttemptsCount := ⟨2, 2, 7, 50⟩

def ahead : ItemAttemptsCount := ⟨3, 2, 8, 80⟩

/-- A user with one row. -/
theorem get_position_iff_one_room :
    IsRank [leader, ahead] leader (getPosition [ahead, leader] [ahead, leader] leader) := by
  refine (get_position_iff (by decide) (by decide)).mpr (fun row hrow huser rank hrank => ?_) _ _
    ⟨by decide, by decide⟩ (by decide)
  rcases List.mem_pair.mp hrow with rfl | rfl
  · exact hrank
  · exact absurd huser (by decide)

theorem position_of_other_room : ¬ ∀ (table window result : List ItemAttemptsCount)
    (self : ItemAttemptsCount), table.Nodup → self ∈ table →
    IsWindow roomId totalScore table window → result.Perm table →
      IsRank table self (getPosition window result self) := by
  intro hranks
  have hrank := hranks [leader, runnerUp, ahead] [leader, ahead, runnerUp] [runnerUp, leader, ahead]
    leader (by decide) (by decide) ⟨by decide, by decide⟩ (by decide)
  exact absurd hrank.2 (by decide)

end Soms.Rooms.Position

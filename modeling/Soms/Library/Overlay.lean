import Mathlib

/-!
# A listing with local decisions

A listing of keys comes in pages.  For some keys there is a row whose decision replaces the one the
listing was made with: keys that no longer belong are left out of their page, and keys that newly
belong are put in front of the first page.
-/

/-- Rows with what the listing shows of them and what it should show. -/
structure Decisions (α β : Type) where
  rows : List β
  key : β → α
  nodup : (rows.map key).Nodup
  before : β → Bool
  after : β → Bool

namespace Decisions

variable {α β : Type} (d : Decisions α β)

/-- The rows whose keys the first page is preceded by. -/
def addedRows : List β := d.rows.filter fun row => d.after row && !d.before row

def added : List α := d.addedRows.map d.key

/-- By how much the number of keys changes. -/
def correction : Int := (d.rows.map fun row => (d.after row).toInt - (d.before row).toInt).sum

/-- A key has one row. -/
theorem row_unique {row row' : β} (hrow : row ∈ d.rows) (hrow' : row' ∈ d.rows)
    (h : d.key row = d.key row') : row = row' :=
  List.inj_on_of_nodup_map d.nodup hrow hrow' h

theorem nodup_keys (p : β → Bool) : ((d.rows.filter p).map d.key).Nodup :=
  d.nodup.sublist (List.filter_sublist.map d.key)

theorem mem_added {a : α} :
    a ∈ d.added ↔ ∃ row ∈ d.rows, d.key row = a ∧ d.after row = true ∧ d.before row = false := by
  simp only [added, addedRows, List.mem_map, List.mem_filter, Bool.and_eq_true, Bool.not_eq_true']
  constructor
  · rintro ⟨row, ⟨hrow, hafter, hbefore⟩, rfl⟩
    exact ⟨row, hrow, rfl, hafter, hbefore⟩
  · rintro ⟨row, hrow, rfl, hafter, hbefore⟩
    exact ⟨row, ⟨hrow, hafter, hbefore⟩, rfl⟩

/-- The correction counts the rows that are added and those that are left out. -/
theorem correction_eq :
    d.correction =
      d.added.length - (d.rows.filter fun row => d.before row && !d.after row).length := by
  rw [added, List.length_map, addedRows, correction]
  induction d.rows with
  | nil => rfl
  | cons row rows ih =>
    rw [List.map_cons, List.sum_cons, ih]
    cases hafter : d.after row <;> cases hbefore : d.before row <;>
      simp [hafter, hbefore] <;> omega

variable [DecidableEq α]

/-- What stays of a page. -/
def kept (page : List α) : List α :=
  page.filter fun a => d.rows.all fun row => decide (d.key row ≠ a) || d.after row

theorem mem_kept {page : List α} {a : α} :
    a ∈ d.kept page ↔ a ∈ page ∧ ∀ row ∈ d.rows, d.key row = a → d.after row = true := by
  simp [kept, or_iff_not_imp_left]

/-- Pages are treated one by one. -/
theorem kept_flatten (pages : List (List α)) :
    d.kept pages.flatten = (pages.map d.kept).flatten := List.filter_flatten

section Listing

variable {listing : List α} (hlisting : listing.Nodup)
  (hbefore : ∀ row ∈ d.rows, d.key row ∈ listing ↔ d.before row = true)
include hbefore

/-- A key with a row is shown if its decision says so, any other one if it is listed. -/
theorem mem_added_append_kept {a : α} :
    a ∈ d.added ++ d.kept listing ↔
      (∃ row ∈ d.rows, d.key row = a ∧ d.after row = true) ∨
        a ∈ listing ∧ ∀ row ∈ d.rows, d.key row ≠ a := by
  rw [List.mem_append, mem_added, mem_kept]
  by_cases hkey : ∃ row ∈ d.rows, d.key row = a
  · obtain ⟨row, hrow, rfl⟩ := hkey
    have honly : ∀ row' ∈ d.rows, d.key row' = d.key row → row' = row :=
      fun row' hrow' h => d.row_unique hrow' hrow h
    constructor
    · rintro (⟨row', hrow', h, hafter, -⟩ | ⟨-, hafter⟩)
      · exact .inl ⟨row', hrow', h, hafter⟩
      · exact .inl ⟨row, hrow, rfl, hafter row hrow rfl⟩
    · rintro (⟨row', hrow', h, hafter⟩ | ⟨-, hnone⟩)
      · obtain rfl := honly row' hrow' h
        cases hb : d.before row' with
        | false => exact .inl ⟨row', hrow', rfl, hafter, hb⟩
        | true =>
          refine .inr ⟨(hbefore row' hrow').mpr hb, fun row'' hrow'' h'' => ?_⟩
          rw [honly row'' hrow'' h'']
          exact hafter
      · exact absurd rfl (hnone row hrow)
  · push Not at hkey
    constructor
    · rintro (⟨row, hrow, h, -⟩ | ⟨hlisted, -⟩)
      · exact absurd h (hkey row hrow)
      · exact .inr ⟨hlisted, hkey⟩
    · rintro (⟨row, hrow, h, -⟩ | ⟨hlisted, -⟩)
      · exact absurd h (hkey row hrow)
      · exact .inr ⟨hlisted, fun row hrow h => absurd h (hkey row hrow)⟩

include hlisting

theorem nodup_added_append_kept : (d.added ++ d.kept listing).Nodup := by
  refine (d.nodup_keys _).append (hlisting.filter _) fun a hadded hkept => ?_
  obtain ⟨row, hrow, rfl, -, hoff⟩ := d.mem_added.mp hadded
  have hlisted := (hbefore row hrow).mp (d.mem_kept.mp hkept).1
  rw [hoff] at hlisted
  cases hlisted

/-- What is left out of the listing are the keys that are shown and should not be. -/
theorem removed_perm :
    (listing.filter fun a => !d.rows.all fun row => decide (d.key row ≠ a) || d.after row).Perm
      ((d.rows.filter fun row => d.before row && !d.after row).map d.key) := by
  refine (List.perm_ext_iff_of_nodup (hlisting.filter _) (d.nodup_keys _)).mpr fun a => ?_
  simp only [List.mem_filter, List.mem_map, Bool.not_eq_true', List.all_eq_false, Bool.or_eq_true,
    decide_eq_true_eq, not_or, not_not, Bool.and_eq_true, Bool.not_eq_true]
  constructor
  · rintro ⟨hlisted, row, hrow, rfl, hoff⟩
    exact ⟨row, ⟨hrow, (hbefore row hrow).mp hlisted, hoff⟩, rfl⟩
  · rintro ⟨row, ⟨hrow, hon, hoff⟩, rfl⟩
    exact ⟨(hbefore row hrow).mpr hon, row, hrow, rfl, hoff⟩

/-- The corrected number of keys is the number of keys shown. -/
theorem length_add_correction :
    listing.length + d.correction = (d.added ++ d.kept listing).length := by
  have hpartition := List.length_eq_length_filter_add (l := listing)
    fun a => d.rows.all fun row => decide (d.key row ≠ a) || d.after row
  have hremoved := (d.removed_perm hlisting hbefore).length_eq
  rw [List.length_map] at hremoved
  rw [d.correction_eq, List.length_append, kept, ← hremoved]
  push_cast
  omega

end Listing

end Decisions

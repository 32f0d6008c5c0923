import Soms.Somsai.Divisions

/-!
# The table of divisions

`division_for` of `somsai_bot_skill.py` looks a rating up in a table of intervals,
`rank_from_rating` divides it.  The two name the same division at every rating.
-/

namespace Soms.Somsai

/-- The name of a division and its interval of ratings, which has no upper end at the top. -/
structure Division where
  name : String
  lowMmr : Int
  highMmr : Option Int
  deriving DecidableEq, Repr

def DIVISIONS : List Division :=
  [⟨"ARCHSOM", 3000, none⟩,
    ⟨"DIAMOND V", 2900, some 2999⟩,
    ⟨"DIAMOND IV", 2800, some 2899⟩,
    ⟨"DIAMOND III", 2700, some 2799⟩,
    ⟨"DIAMOND II", 2600, some 2699⟩,
    ⟨"DIAMOND I", 2500, some 2599⟩,
    ⟨"PLATINUM V", 2400, some 2499⟩,
    ⟨"PLATINUM IV", 2300, some 2399⟩,
    ⟨"PLATINUM III", 2200, some 2299⟩,
    ⟨"PLATINUM II", 2100, some 2199⟩,
    ⟨"PLATINUM I", 2000, some 2099⟩,
    ⟨"GOLD V", 1900, some 1999⟩,
    ⟨"GOLD IV", 1800, some 1899⟩,
    ⟨"GOLD III", 1700, some 1799⟩,
    ⟨"GOLD II", 1600, some 1699⟩,
    ⟨"GOLD I", 1500, some 1599⟩,
    ⟨"SILVER V", 1400, some 1499⟩,
    ⟨"SILVER IV", 1300, some 1399⟩,
    ⟨"SILVER III", 1200, some 1299⟩,
    ⟨"SILVER II", 1100, some 1199⟩,
    ⟨"SILVER I", 1000, some 1099⟩,
    ⟨"BRONZE V", 900, some 999⟩,
    ⟨"BRONZE IV", 800, some 899⟩,
    ⟨"BRONZE III", 700, some 799⟩,
    ⟨"BRONZE II", 600, some 699⟩,
    ⟨"BRONZE I", 0, some 599⟩]

namespace Division

def Contains (d : Division) (value : Int) : Prop :=
  d.lowMmr ≤ value ∧ ∀ high ∈ d.highMmr, value ≤ high

instance (d : Division) (value : Int) : Decidable (d.Contains value) :=
  inferInstanceAs (Decidable (_ ∧ _))

end Division

/-- `division_for`, where `upper` is `strip` and `upper` of a string.  A rank that names a division
goes before the rating. -/
def divisionFor (upper : String → String) (rating : Option Int) (rank : Option String) :
    Option Division :=
  let wanted := (rank.filter (· ≠ "")).map fun name => (upper name).replace "ARCHSOM I" "ARCHSOM"
  let value := rating.elim 1500 (max 0)
  (wanted.bind fun name => DIVISIONS.find? fun d => d.name = name).or
    (DIVISIONS.find? fun d => d.Contains value)

/-- The division at a position of `RANKS`. -/
def divisionAt (position : Nat) : Division where
  name := (Rank.ofPosition position).name
  lowMmr := if position = 0 then 0 else 500 + 100 * position
  highMmr := if position = 25 then none else some (599 + 100 * position)

/-- `RANKS.index` -/
theorem idxOf_RANKS (rank : Rank) : RANKS.idxOf rank = rank.position := by
  cases rank with
  | archsom => decide
  | division band roman => cases band <;> fin_cases roman <;> decide

theorem DIVISIONS_eq : DIVISIONS = (List.range 26).reverse.map divisionAt := by decide

theorem divisionAt_contains {position : Nat} (hposition : position ≤ 25) {value : Int}
    (hvalue : 0 ≤ value) : (divisionAt position).Contains value ↔
      (position : Int) = max 0 (min 25 (value / 100 - 5)) := by
  unfold Division.Contains divisionAt
  by_cases hbottom : position = 0
  · subst hbottom
    simp only [if_true, if_neg (show (0 : Nat) ≠ 25 by decide), Option.mem_def, Option.some.injEq,
      forall_eq']
    omega
  · by_cases htop : position = 25
    · subst htop
      simp
      omega
    · simp only [if_neg hbottom, if_neg htop, Option.mem_def, Option.some.injEq, forall_eq']
      omega

/-- The intervals part the ratings. -/
theorem find_contains {value : Int} (hvalue : 0 ≤ value) {position : Nat}
    (h : (position : Int) = max 0 (min 25 (value / 100 - 5))) :
    (DIVISIONS.find? fun d => d.Contains value) = some (divisionAt position) := by
  have hposition : position ≤ 25 := by omega
  have hfound : ∃ d, (DIVISIONS.find? fun d => d.Contains value) = some d := by
    rw [← Option.isSome_iff_exists, List.find?_isSome, DIVISIONS_eq]
    refine ⟨divisionAt position, List.mem_map.mpr ⟨position, by simp; omega, rfl⟩, ?_⟩
    exact decide_eq_true ((divisionAt_contains hposition hvalue).mpr h)
  obtain ⟨d, hd⟩ := hfound
  have hmem := List.mem_of_find?_eq_some hd
  have hcontains : d.Contains value := by simpa using List.find?_some hd
  rw [DIVISIONS_eq] at hmem
  obtain ⟨other, hother, rfl⟩ := List.mem_map.mp hmem
  rw [List.mem_reverse, List.mem_range] at hother
  rw [divisionAt_contains (by omega) hvalue] at hcontains
  rw [hd]
  have hsame : other = position := by omega
  rw [hsame]

/-- A rating has the rank of its division. -/
theorem divisionFor_rating (upper : String → String) (r : Nat) :
    (divisionFor upper (some r) none).map Division.name = some (rankFromRating r).name := by
  have hposition := position_rankFromRating r
  have hfloor : ⌊(r : ℚ) / 100⌋ = (r : Int) / 100 := by
    have hcast := Rat.floor_intCast_div_natCast (r : Int) 100
    rwa [Int.cast_natCast, Nat.cast_ofNat] at hcast
  rw [hfloor] at hposition
  have hvalue : max (0 : Int) r = r := max_eq_right (Int.natCast_nonneg r)
  have hfind := find_contains (Int.natCast_nonneg r) hposition
  have hname : (divisionAt (rankFromRating r).position).name = (rankFromRating r).name := by
    rw [divisionAt, Rank.ofPosition_position]
  simp only [divisionFor, Option.filter_none, Option.map_none, Option.bind_none, Option.none_or,
    Option.elim_some, hvalue, hfind, Option.map_some, hname]

theorem rankFromRating_midpoint (rank : Rank) :
    rankFromRating (rankMidpointRating rank) = rank := by
  cases rank with
  | archsom => decide +kernel
  | division band roman => cases band <;> fin_cases roman <;> decide +kernel

theorem foldl_min_le (ratings : List ℚ) (rating : ℚ) :
    ∀ r ∈ rating :: ratings, ratings.foldl min rating ≤ r := by
  induction ratings generalizing rating with
  | nil => simp
  | cons other rest ih =>
    intro r hr
    have hboth := ih (min rating other)
    rw [List.forall_mem_cons] at hboth
    rw [List.mem_cons, List.mem_cons] at hr
    rw [List.foldl_cons]
    obtain rfl | rfl | hr := hr
    · exact hboth.1.trans (min_le_left _ _)
    · exact hboth.1.trans (min_le_right _ _)
    · exact hboth.2 r hr

theorem le_foldl_max (ratings : List ℚ) (rating : ℚ) :
    ∀ r ∈ rating :: ratings, r ≤ ratings.foldl max rating := by
  induction ratings generalizing rating with
  | nil => simp
  | cons other rest ih =>
    intro r hr
    have hboth := ih (max rating other)
    rw [List.forall_mem_cons] at hboth
    rw [List.mem_cons, List.mem_cons] at hr
    rw [List.foldl_cons]
    obtain rfl | rfl | hr := hr
    · exact (le_max_left _ _).trans hboth.1
    · exact (le_max_right _ _).trans hboth.1
    · exact hboth.2 r hr

/-- The two scales of ratings name the same ranks, which go up with the rating.  The middle of a
rank has the rank, and the average of some ratings is between the extremes. -/
theorem scales_agree (upper : String → String) :
    (∀ r : Nat, (divisionFor upper (some r) none).map Division.name =
      some (rankFromRating r).name) ∧
    (Monotone fun r : ℚ => (rankFromRating r).position) ∧
    (∀ rank : Rank, rankFromRating (rankMidpointRating rank) = rank) ∧
    ∀ (rating : ℚ) (ratings : List ℚ),
      (rankFromRating (ratings.foldl min rating)).position ≤
          (averageRank (rating :: ratings)).position ∧
        (averageRank (rating :: ratings)).position ≤
          (rankFromRating (ratings.foldl max rating)).position := by
  refine ⟨divisionFor_rating upper, fun r s hrs => position_mono hrs, rankFromRating_midpoint,
    fun rating ratings => ⟨?_, ?_⟩⟩
  · exact le_averageRank (List.cons_ne_nil _ _) fun r hr =>
      position_mono (foldl_min_le ratings rating r hr)
  · exact averageRank_le (List.cons_ne_nil _ _) fun r hr =>
      position_mono (le_foldl_max ratings rating r hr)

end Soms.Somsai

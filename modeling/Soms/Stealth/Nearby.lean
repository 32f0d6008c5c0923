import Mathlib.Algebra.Order.Field.Rat
import Mathlib.Data.List.MinMax
import Mathlib.Data.List.Sort
import Mathlib.Algebra.Order.Ring.Abs
import Mathlib.Tactic.NormNum
import Soms.Library.PageSearch
import Soms.Scores.Data

/-!
# Players near a PP value

`service/stealth_service.py` looks up players of the official rankings around a PP value, and the
ranks that the value would have.  The rankings come in pages of fifty rows, the global one in at
most two hundred of them.
-/

namespace Soms.Stealth

abbrev Text := List Char

local instance lawfulBEq_text : LawfulBEq Text := inferInstance

/-- A row of an official ranking.  A text that is missing is empty, `pp` is none if it is no finite
number, and `countryCode` is that of the user or else of the user's country. -/
structure Row where
  userId : Int
  username : Text
  isDeleted : Bool := false
  isRestricted : Bool := false
  avatarUrl : Text := []
  countryCode : Text := []
  pp : Option ℚ
  globalRank : Option Int
  countryRank : Option Int := none
  deriving DecidableEq

/-- The answer for one page; `total` is zero where it is missing. -/
structure Data where
  ranking : List Row
  total : Nat

structure Player where
  id : Int
  username : Text
  avatarUrl : Text
  pp : ℚ
  globalRank : Int
  countryCode : Option Text
  countryRank : Option Int
  deriving DecidableEq

structure Result where
  candidates : List Player
  globalRank : Int
  estimated : Bool
  pp : ℚ
  countryCode : Option Text := none
  countryRank : Option Int := none
  countryRankEstimated : Option Bool := none

/-- An `HTTPException` with its status and its detail. -/
structure Failure where
  status : Nat
  detail : String
  deriving DecidableEq, Repr

/-- What is outside of the service: the pages of the rankings by mode and country (the global one
has no country), `str.upper`, `str(id)`, and the rank between two ranks at a fraction of the way,
which is computed with logarithms. -/
structure Official where
  page : String → Text → Nat → Data
  upper : Text → Text
  str : Int → Text
  interpolate : Int → Int → ℚ → Int

/-- `re.fullmatch("[A-Z]{2}", code)` -/
def isCode (code : Text) : Bool := code.length = 2 && code.all fun c => 'A' ≤ c && c ≤ 'Z'

/-- `row.get("pp") or 0` -/
def Row.value (row : Row) : ℚ := row.pp.getD 0

/-- `f"https://a.ppy.sh/{id}"` -/
def defaultAvatar (official : Official) (id : Int) : Text :=
  "https://a.ppy.sh/".toList ++ official.str id

/-- The conditions on a row that counts. -/
def Row.valid (row : Row) : Bool :=
  1 < row.userId && row.username ≠ [] && !row.isDeleted && !row.isRestricted && row.pp.isSome &&
    row.globalRank.any (0 < ·)

/-- The entry of `unique` for a row. -/
def Row.player (official : Official) (row : Row) : Player where
  id := row.userId
  username := row.username
  avatarUrl := if row.avatarUrl ≠ [] then row.avatarUrl else defaultAvatar official row.userId
  pp := row.value
  globalRank := row.globalRank.getD 0
  countryCode := some (official.upper row.countryCode) |>.filter isCode
  countryRank := row.countryRank.filter (0 < ·)

/-- `unique[id] = player` -/
def put (players : List Player) (player : Player) : List Player :=
  if players.any (·.id = player.id) then
    players.map fun other => if other.id = player.id then player else other
  else players ++ [player]

def unique (official : Official) (rows : List Row) : List Player :=
  rows.foldl
    (fun players row => if row.valid then put players (row.player official) else players) []

def samplesOf (official : Official) (rows : List Row) : List Player :=
  (unique official rows).insertionSort fun a b => a.pp ≤ b.pp

/-- `candidates` -/
def candidatesOf (samples : List Player) (nearest : Player) (pp : ℚ) : List Player :=
  let candidates := samples.filter fun s => Scores.round s.pp = Scores.round pp
  if candidates.length < 2 then
    let radius := max (max 25 (pp * (15 / 1000))) |nearest.pp - pp|
    ((samples.filter fun s => |s.pp - pp| ≤ radius).insertionSort fun a b =>
      |a.pp - pp| ≤ |b.pp - pp|).take 30
  else candidates

/-- `rank` where it is not exact. -/
def estimate (official : Official) (samples : List Player) (nearest : Player) (pp : ℚ) : Int :=
  match samples.reverse.find? (·.pp ≤ pp), samples.find? (pp ≤ ·.pp) with
  | some below, some above =>
    if below.pp < above.pp then
      official.interpolate below.globalRank above.globalRank
        ((pp - below.pp) / (above.pp - below.pp))
    else nearest.globalRank
  | _, _ => nearest.globalRank

/-- The answer of `candidates_and_rank`. -/
def resultOf (official : Official) (samples : List Player) (nearest : Player) (pp : ℚ)
    (exact : Bool) : Result where
  candidates := candidatesOf samples nearest pp
  globalRank := max 1 <|
    if exact then ((samples.filter fun s => pp < s.pp).map Player.globalRank).max?.getD 0 + 1
    else estimate official samples nearest pp
  estimated := !exact
  pp := pp

def candidatesAndRank (official : Official) (rows : List Row) (pp : ℚ) (exact : Bool) :
    Except Failure Result :=
  let samples := samplesOf official rows
  match samples.argmin fun s => |s.pp - pp| with
  | none => .error ⟨503, "Не удалось получить игроков официального рейтинга."⟩
  | some nearest => .ok (resultOf official samples nearest pp exact)

/-- `ranked_rows` -/
def rankedRows (country : Text) (ranking : List Row) (number : Nat) : List Row :=
  if country = [] then ranking
  else ranking.mapIdx fun index row =>
    { row with
      countryRank := some <|
        if row.countryRank.getD 0 ≠ 0 then row.countryRank.getD 0
        else ((number - 1) * 50 + index + 1 : Nat) }

/-- The loop of `search`, with `high + 1` for `high`. -/
def bisect (page : Nat → List Row) (pp : ℚ) (low beyond : Nat) : List Row :=
  if low < beyond then
    let mid := (low + beyond - 1) / 2
    let batch := page mid
    if batch.head?.all fun row => row.value ≤ pp then batch ++ bisect page pp low mid
    else if batch.getLast?.any fun row => pp < row.value then
      batch ++ bisect page pp (mid + 1) beyond
    else batch
  else []
termination_by beyond - low

def search (official : Official) (mode : String) (pp : ℚ) (country : Text) : List Row :=
  let page (number : Nat) := rankedRows country (official.page mode country number).ranking number
  let high := max 1 (min 200 (((official.page mode country 1).total + 49) / 50))
  page 1 ++ bisect page pp 1 (high + 1)

/-- `min(at_or_below) if at_or_below else max(higher, default=0) + 1` -/
def countryRankOf (samples : List Row) (pp : ℚ) : Int :=
  let ranks (p : Row → Bool) := (samples.filter p).map fun row => row.countryRank.getD 0
  (ranks fun row => row.value ≤ pp).min?.getD ((ranks fun row => pp < row.value).max?.getD 0 + 1)

/-- The country's part of the answer. -/
def withCountry (country : Option Text) (countrySamples : Option (List Row)) (pp : ℚ)
    (result : Result) : Result :=
  match countrySamples with
  | none => result
  | some samples =>
    let rank := countryRankOf samples pp
    { result with
      countryCode := country
      countryRank := some rank
      countryRankEstimated := some (10000 < rank) }

/-- `nearby_players`, with the countries that `random.sample` chooses. -/
def nearbyPlayers (official : Official) (chosen : List Text) (mode : String) (pp : ℚ)
    (country : Option Text) : Except Failure Result :=
  if mode ∉ ["osu", "taiko", "fruits", "mania"] ∨ ¬ (0 ≤ pp ∧ pp ≤ 1000000) then
    .error ⟨400, "Некорректный режим или PP."⟩
  else
    let country := country.map official.upper
    if country.any (!isCode ·) then .error ⟨400, "Некорректный код страны."⟩
    else
      let last := (official.page mode [] 200).ranking
      let countrySamples := country.map (search official mode pp)
      let result :=
        if last.getLast?.any fun row => row.value ≤ pp then
          candidatesAndRank official (search official mode pp []) pp true
        else
          match countrySamples with
          | some samples => candidatesAndRank official samples pp false
          | none => candidatesAndRank official (chosen.flatMap (search official mode pp)) pp false
      result.map (withCountry country countrySamples pp)

open PageSearch

/-- The players of an official ranking, which is served in pages of fifty. -/
structure Listing where
  rows : List Row
  total : Nat
  falling : rows.Pairwise fun a b => b.value ≤ a.value
  bounded : rows.length ≤ 200 * 50
  counted : rows.length ≤ total
  distinct : (rows.map Row.userId).Nodup
  valid : ∀ row ∈ rows, row.valid = true

def Listing.data (listing : Listing) (number : Nat) : Data :=
  ⟨pageOf listing.rows 50 number, listing.total⟩

/-- The first two hundred pages of a ranking are those of the listing. -/
def Official.Serves (official : Official) (mode : String) (country : Text) (listing : Listing) :
    Prop :=
  ∀ number, 1 ≤ number → number ≤ 200 → official.page mode country number = listing.data number

/-- The players with more pp. -/
def Listing.higher (listing : Listing) (pp : ℚ) : Nat :=
  listing.rows.countP fun row => pp < row.value

variable {official : Official} {mode : String} {country : Text} {listing : Listing} {pp : ℚ}
  {rows : List Row}

/-! ### The search -/

/-- The search asks only for pages in its range. -/
theorem bisect_congr {page other : Nat → List Row} {low beyond : Nat}
    (h : ∀ number, low ≤ number → number < beyond → page number = other number) :
    bisect page pp low beyond = bisect other pp low beyond := by
  fun_induction bisect page pp low beyond with
  | case1 low beyond hlt mid batch hhead ih =>
    have hmid : batch = other mid := h mid (by omega) (by omega)
    rw [ih fun number hlow hhigh => h number hlow (by omega)]
    conv_rhs => rw [bisect, if_pos hlt]
    dsimp only
    rw [← hmid, if_pos hhead]
  | case2 low beyond hlt mid batch hhead hlast ih =>
    have hmid : batch = other mid := h mid (by omega) (by omega)
    rw [ih fun number hlow hhigh => h number (by omega) hhigh]
    conv_rhs => rw [bisect, if_pos hlt]
    dsimp only
    rw [← hmid, if_neg hhead, if_pos hlast]
  | case3 low beyond hlt mid batch hhead hlast =>
    have hmid : batch = other mid := h mid (by omega) (by omega)
    conv_rhs => rw [bisect, if_pos hlt]
    dsimp only
    rw [← hmid, if_neg hhead, if_neg hlast]
  | case4 low beyond hnot =>
    rw [bisect, if_neg hnot]

/-- The rows are those of the pages that a binary search over pages visits. -/
theorem bisect_eq (page : Nat → List Row) (pp : ℚ) (low beyond : Nat) :
    bisect page pp low beyond =
      (visited (fun row => pp < row.value) page low beyond).flatMap page := by
  have hnot : (fun row : Row => !decide (pp < row.value)) = fun row => decide (row.value ≤ pp) := by
    funext row
    rw [← decide_not]
    simp only [not_lt]
  fun_induction bisect page pp low beyond with
  | case1 low beyond hlt mid batch hhead ih =>
    rw [visited, if_pos hlt]
    dsimp only
    rw [hnot, if_pos hhead, List.flatMap_cons, ih]
  | case2 low beyond hlt mid batch hhead hlast ih =>
    rw [visited, if_pos hlt]
    dsimp only
    rw [hnot, if_neg hhead, if_pos hlast, List.flatMap_cons, ih]
  | case3 low beyond hlt mid batch hhead hlast =>
    rw [visited, if_pos hlt]
    dsimp only
    rw [hnot, if_neg hhead, if_neg hlast]
    exact (List.flatMap_singleton page mid).symm
  | case4 low beyond hlt =>
    rw [visited, if_neg hlt]
    rfl

/-- The ranks do not depend on how the rows come in pages. -/
theorem rankedRows_page (country : Text) (rows : List Row) (number : Nat) :
    rankedRows country (pageOf rows 50 number) number =
      pageOf (rankedRows country rows 1) 50 number := by
  unfold rankedRows
  split
  · rfl
  · refine List.ext_getElem? fun i => ?_
    simp only [pageOf, List.getElem?_mapIdx, List.getElem?_take, List.getElem?_drop, Nat.sub_self,
      Nat.zero_mul, Nat.zero_add]
    split <;> rfl

/-- `ranked_rows` sets nothing but the country rank. -/
theorem rankedRows_map {β : Type} (country : Text) (rows : List Row) {f : Row → β}
    (hf : ∀ row rank, f { row with countryRank := rank } = f row) :
    (rankedRows country rows 1).map f = rows.map f := by
  unfold rankedRows
  split
  · rfl
  · refine List.ext_getElem? fun i => ?_
    simp only [List.getElem?_map, List.getElem?_mapIdx, Option.map_map]
    cases rows[i]? with
    | none => rfl
    | some row => exact congrArg some (hf row _)

theorem search_eq (hserves : official.Serves mode country listing) (pp : ℚ) :
    let page := pageOf (rankedRows country listing.rows 1) 50
    let high := max 1 (min 200 ((listing.total + 49) / 50))
    search official mode pp country =
      page 1 ++ (visited (fun row => pp < row.value) page 1 (high + 1)).flatMap page := by
  intro page high
  have hpage : ∀ number, 1 ≤ number → number ≤ 200 →
      rankedRows country (official.page mode country number).ranking number = page number := by
    intro number hlow hhigh
    rw [hserves number hlow hhigh]
    exact rankedRows_page country listing.rows number
  have htotal : (official.page mode country 1).total = listing.total := by
    rw [hserves 1 (by decide) (by decide)]
    rfl
  have hloop : bisect (fun number =>
      rankedRows country (official.page mode country number).ranking number) pp 1 (high + 1) =
        bisect page pp 1 (high + 1) :=
    bisect_congr fun number hlow hhigh => hpage number hlow (by omega)
  rw [search]
  dsimp only
  rw [htotal, hpage 1 (by decide) (by decide), hloop, bisect_eq]

theorem rankedRows_length (country : Text) (rows : List Row) :
    (rankedRows country rows 1).length = rows.length := by
  have h : ((rankedRows country rows 1).map Row.value).length = (rows.map Row.value).length :=
    congrArg List.length (rankedRows_map country rows fun _ _ => rfl)
  rwa [List.length_map, List.length_map] at h

theorem rankedRows_falling (listing : Listing) (country : Text) :
    (rankedRows country listing.rows 1).Pairwise fun a b => b.value ≤ a.value := by
  have h : (listing.rows.map Row.value).Pairwise fun a b => b ≤ a :=
    List.pairwise_map.mpr listing.falling
  rw [← rankedRows_map country listing.rows fun _ _ => rfl] at h
  exact List.pairwise_map.mp h

theorem countP_rankedRows (listing : Listing) (country : Text) (pp : ℚ) :
    (rankedRows country listing.rows 1).countP (fun row => pp < row.value) =
      listing.higher pp := by
  have h := congrArg (List.countP fun value => decide (pp < value))
    (rankedRows_map country listing.rows (f := Row.value) fun _ _ => rfl)
  rwa [List.countP_map, List.countP_map] at h

theorem mem_of_mem_pageOf {size number : Nat} {row : Row} (h : row ∈ pageOf rows size number) :
    row ∈ rows :=
  List.mem_of_mem_drop (List.mem_of_mem_take h)

theorem mem_search (hserves : official.Serves mode country listing) {row : Row}
    (hrow : row ∈ search official mode pp country) : row ∈ rankedRows country listing.rows 1 := by
  rw [search_eq hserves, List.mem_append, List.mem_flatMap] at hrow
  rcases hrow with hrow | ⟨number, -, hrow⟩
  · exact mem_of_mem_pageOf hrow
  · exact mem_of_mem_pageOf hrow

/-- The search fetches rows of the ranking, with those next to the boundary. -/
theorem search_fetched (hserves : official.Serves mode country listing) (pp : ℚ)
    (rank : Row → Int) (hrank : ∀ (i : Nat) row,
      (rankedRows country listing.rows 1)[i]? = some row → rank row = i + 1) :
    Fetched (fun row => pp < row.value) rank (rankedRows country listing.rows 1)
      (search official mode pp country) where
  closed := (rankedRows_falling listing country).imp fun hle hlt =>
    decide_eq_true (lt_of_lt_of_le (of_decide_eq_true hlt) hle)
  position := hrank
  subset row hrow := mem_search hserves hrow
  boundary i row hi hnext := by
    have hall : (rankedRows country listing.rows 1).length ≤
        max 1 (min 200 ((listing.total + 49) / 50)) * 50 := by
      have hbounded := listing.bounded
      have hcounted := listing.counted
      rw [rankedRows_length]
      omega
    obtain ⟨number, hnumber, hrow⟩ := exists_visited ((rankedRows_falling listing country).imp
      fun hle hlt => decide_eq_true (lt_of_lt_of_le (of_decide_eq_true hlt) hle)) (by decide) hall
      hi hnext
    rw [search_eq hserves, List.mem_append, List.mem_flatMap]
    exact .inr ⟨number, hnumber, hrow⟩

/-! ### The samples -/

theorem mem_put {players : List Player} {player p : Player} :
    p ∈ put players player ↔ p = player ∨ p ∈ players ∧ p.id ≠ player.id := by
  unfold put
  split
  · rename_i hany
    obtain ⟨other, hother, hid⟩ := List.any_eq_true.mp hany
    simp only [List.mem_map]
    constructor
    · rintro ⟨q, hq, rfl⟩
      split
      · exact .inl rfl
      · rename_i hne
        exact .inr ⟨hq, hne⟩
    · rintro (rfl | ⟨hp, hne⟩)
      · exact ⟨other, hother, if_pos (of_decide_eq_true hid)⟩
      · exact ⟨p, hp, if_neg hne⟩
  · rename_i hany
    rw [List.mem_append, List.mem_singleton, or_comm]
    refine or_congr_right (iff_self_and.mpr fun hp hid => hany ?_)
    exact List.any_eq_true.mpr ⟨p, hp, decide_eq_true hid⟩

/-- The samples are the players of the rows, if a user has one row. -/
theorem mem_samplesOf {official : Official} {rows : List Row}
    (hvalid : ∀ row ∈ rows, row.valid = true)
    (hdistinct : ∀ a ∈ rows, ∀ b ∈ rows, a.userId = b.userId → a = b) {p : Player} :
    p ∈ samplesOf official rows ↔ ∃ row ∈ rows, row.player official = p := by
  rw [samplesOf, (List.perm_insertionSort _ _).mem_iff, unique]
  induction rows using List.reverseRecOn generalizing p with
  | nil => simp
  | append_singleton rows last ih =>
    have hsub : ∀ row ∈ rows, row ∈ rows ++ [last] := fun row hrow =>
      List.mem_append_left _ hrow
    have hlast : last ∈ rows ++ [last] := by simp
    rw [List.foldl_concat, if_pos (hvalid last hlast), mem_put,
      ih (fun row hrow => hvalid row (hsub row hrow))
        fun a ha b hb => hdistinct a (hsub a ha) b (hsub b hb)]
    constructor
    · rintro (rfl | ⟨⟨row, hrow, rfl⟩, -⟩)
      · exact ⟨last, hlast, rfl⟩
      · exact ⟨row, hsub row hrow, rfl⟩
    · rintro ⟨row, hrow, rfl⟩
      by_cases hid : row.userId = last.userId
      · exact .inl (congrArg _ (hdistinct row hrow last hlast hid))
      · refine .inr ⟨⟨row, ?_, rfl⟩, hid⟩
        rcases List.mem_append.mp hrow with hrow | hrow
        · exact hrow
        · exact absurd (congrArg Row.userId (List.mem_singleton.mp hrow)) hid

/-- With valid rows there are samples. -/
theorem candidatesAndRank_ok (official : Official) {rows : List Row}
    (hvalid : ∀ row ∈ rows, row.valid = true)
    (hdistinct : ∀ a ∈ rows, ∀ b ∈ rows, a.userId = b.userId → a = b) (hne : rows ≠ [])
    (pp : ℚ) (exact : Bool) :
    ∃ nearest, candidatesAndRank official rows pp exact =
      .ok (resultOf official (samplesOf official rows) nearest pp exact) := by
  obtain ⟨row, hrow⟩ := List.exists_mem_of_ne_nil rows hne
  have hsample : row.player official ∈ samplesOf official rows :=
    (mem_samplesOf hvalid hdistinct).mpr ⟨row, hrow, rfl⟩
  cases hnearest : (samplesOf official rows).argmin fun s => |s.pp - pp| with
  | none =>
    rw [List.argmin_eq_none.mp hnearest] at hsample
    cases hsample
  | some nearest => exact ⟨nearest, by rw [candidatesAndRank, hnearest]⟩

/-! ### The ranks -/

/-- The rows of a search are valid rows of different users. -/
theorem search_valid (hserves : official.Serves mode country listing) (pp : ℚ) :
    (∀ row ∈ search official mode pp country, row.valid = true) ∧
      ∀ a ∈ search official mode pp country, ∀ b ∈ search official mode pp country,
        a.userId = b.userId → a = b := by
  have hvalid : (rankedRows country listing.rows 1).map Row.valid = listing.rows.map Row.valid :=
    rankedRows_map country listing.rows fun _ _ => rfl
  have hids : ((rankedRows country listing.rows 1).map Row.userId).Nodup := by
    rw [rankedRows_map country listing.rows fun _ _ => rfl]
    exact listing.distinct
  refine ⟨fun row hrow => ?_, fun a ha b hb hid =>
    List.inj_on_of_nodup_map hids (mem_search hserves ha) (mem_search hserves hb) hid⟩
  have hmem := List.mem_map_of_mem (f := Row.valid) (mem_search hserves hrow)
  rw [hvalid] at hmem
  obtain ⟨other, hother, heq⟩ := List.mem_map.mp hmem
  rw [← heq]
  exact listing.valid other hother

/-- The search of a ranking with a row fetches one. -/
theorem search_ne_nil (hserves : official.Serves mode country listing) (pp : ℚ)
    (hne : listing.rows ≠ []) : search official mode pp country ≠ [] := by
  rw [search_eq hserves]
  refine List.append_ne_nil_of_left_ne_nil ?_ _
  rw [pageOf, Nat.sub_self, Nat.zero_mul, List.drop_zero]
  intro h
  have hlength := congrArg List.length h
  rw [List.length_take, rankedRows_length, List.length_nil] at hlength
  have hpos := List.length_pos_iff.mpr hne
  omega

/-- The global rank that is read from the rows of a search is exact. -/
theorem globalRank_exact (hserves : official.Serves mode [] listing) (hposition : ∀ (i : Nat) row,
    listing.rows[i]? = some row → row.globalRank = some (i + 1 : Int)) (nearest : Player) (pp : ℚ) :
    (resultOf official (samplesOf official (search official mode pp [])) nearest pp
      true).globalRank = listing.higher pp + 1 := by
  obtain ⟨hvalid, hdistinct⟩ := search_valid hserves pp
  have hfetched := search_fetched hserves pp (fun row => row.globalRank.getD 0)
    fun i row hi => by rw [hposition i row hi]; rfl
  have hranks : ∀ n, n ∈ ((samplesOf official (search official mode pp [])).filter
      fun s => pp < s.pp).map Player.globalRank ↔ ∃ row ∈ search official mode pp [],
        decide (pp < row.value) = true ∧ row.globalRank.getD 0 = n := by
    intro n
    simp only [List.mem_map, List.mem_filter, mem_samplesOf hvalid hdistinct, decide_eq_true_eq]
    constructor
    · rintro ⟨p, ⟨⟨row, hrow, rfl⟩, hpp⟩, rfl⟩
      exact ⟨row, hrow, hpp, rfl⟩
    · rintro ⟨row, hrow, hpp, rfl⟩
      exact ⟨row.player official, ⟨⟨row, hrow, rfl⟩, hpp⟩, rfl⟩
  rw [resultOf]
  dsimp only
  rw [if_pos rfl, hfetched.max_eq hranks, countP_rankedRows]
  omega

theorem rankedRows_position (hcountry : country ≠ []) (hposition : ∀ (i : Nat) row,
    rows[i]? = some row → row.countryRank.getD 0 = 0 ∨ row.countryRank.getD 0 = i + 1) (i : Nat)
    (row : Row) (hi : (rankedRows country rows 1)[i]? = some row) :
    row.countryRank.getD 0 = i + 1 := by
  rw [rankedRows, if_neg hcountry, List.getElem?_mapIdx] at hi
  obtain ⟨other, hother, rfl⟩ := Option.map_eq_some_iff.mp hi
  show (if other.countryRank.getD 0 ≠ 0 then other.countryRank.getD 0
    else (((1 - 1) * 50 + i + 1 : Nat) : Int)) = i + 1
  split
  · rename_i hgiven
    exact (hposition i other hother).resolve_left hgiven
  · omega

theorem countryRank_exact (hserves : official.Serves mode country listing) (hcountry : country ≠ [])
    (hposition : ∀ (i : Nat) row, listing.rows[i]? = some row →
      row.countryRank.getD 0 = 0 ∨ row.countryRank.getD 0 = i + 1) (pp : ℚ) :
    countryRankOf (search official mode pp country) pp = listing.higher pp + 1 := by
  have hfetched := search_fetched hserves pp (fun row => row.countryRank.getD 0)
    (rankedRows_position hcountry hposition)
  have hbelow := fun n => (by simp [and_assoc] :
    n ∈ ((search official mode pp country).filter fun row => row.value ≤ pp).map
        (fun row => row.countryRank.getD 0) ↔
      ∃ row ∈ search official mode pp country, decide (pp < row.value) = false ∧
        row.countryRank.getD 0 = n)
  have hcount := countP_rankedRows listing country pp
  rw [countryRankOf]
  dsimp only
  rcases Nat.lt_or_ge (listing.higher pp) (rankedRows country listing.rows 1).length with hlt | hge
  · rw [hfetched.min_eq (hcount ▸ hlt) hbelow, hcount]
    rfl
  · have hall := Nat.le_antisymm
      (List.countP_le_length (p := fun row : Row => decide (pp < row.value))) (hcount ▸ hge)
    rw [hfetched.min_eq_none hall hbelow, hfetched.max_eq fun n => by simp [and_assoc], hcount]
    rfl

/-- The two hundredth page is not empty, and the last row of the ranking is not above. -/
def Listing.Covers (listing : Listing) (pp : ℚ) : Prop :=
  199 * 50 < listing.rows.length ∧ ∀ row ∈ listing.rows.getLast?, row.value ≤ pp

theorem covers_iff (hserves : official.Serves mode [] listing) (pp : ℚ) :
    ((official.page mode [] 200).ranking.getLast?.any fun row => row.value ≤ pp) = true ↔
      listing.Covers pp := by
  have hbounded := listing.bounded
  have hpage : (official.page mode [] 200).ranking = listing.rows.drop (199 * 50) := by
    rw [hserves 200 (by decide) (by decide)]
    refine List.take_of_length_le ?_
    rw [List.length_drop]
    omega
  rw [hpage, List.getLast?_drop, Listing.Covers]
  split
  · rename_i hshort
    exact iff_of_false (by simp) fun h => absurd h.1 (Nat.not_lt_of_le hshort)
  · rename_i hfull
    rw [and_iff_right (Nat.lt_of_not_le hfull)]
    cases hlast : listing.rows.getLast? with
    | none =>
      rw [List.getLast?_eq_none_iff.mp hlast] at hfull
      exact absurd (Nat.zero_le _) hfull
    | some row => simp

theorem withCountry_globalRank (country : Option Text) (samples : Option (List Row)) (pp : ℚ)
    (result : Result) :
    (withCountry country samples pp result).globalRank = result.globalRank ∧
      (withCountry country samples pp result).estimated = result.estimated := by
  cases samples <;> exact ⟨rfl, rfl⟩

/-- A valid request from the last row of a full global ranking on. -/
theorem nearbyPlayers_covers {global : Listing} (hserves : official.Serves mode [] global)
    (hmode : mode ∈ ["osu", "taiko", "fruits", "mania"]) (hpp : 0 ≤ pp ∧ pp ≤ 1000000)
    (chosen : List Text) (hcovers : global.Covers pp) (code : Option Text)
    (hcode : ∀ c ∈ code, isCode (official.upper c) = true) :
    ∃ nearest, nearbyPlayers official chosen mode pp code =
      .ok (withCountry (code.map official.upper)
        ((code.map official.upper).map (search official mode pp)) pp
        (resultOf official (samplesOf official (search official mode pp [])) nearest pp true)) := by
  obtain ⟨hvalid, hdistinct⟩ := search_valid hserves pp
  have hne : global.rows ≠ [] := fun h => by
    have hlength := hcovers.1
    rw [h] at hlength
    exact absurd hlength (by decide)
  obtain ⟨nearest, hresult⟩ := candidatesAndRank_ok official hvalid hdistinct
    (search_ne_nil hserves pp hne) pp true
  refine ⟨nearest, ?_⟩
  have hany : ¬ (code.map official.upper).any (!isCode ·) = true := by
    cases code with
    | none => simp
    | some c => simp [hcode c rfl]
  rw [nearbyPlayers, if_neg (by simp only [not_or, not_not]; exact ⟨hmode, hpp⟩)]
  dsimp only
  rw [if_neg hany, if_pos ((covers_iff hserves pp).mpr hcovers), hresult]
  rfl

/-- A valid request for a country with players. -/
theorem nearbyPlayers_country {global : Listing} (hserves : official.Serves mode [] global)
    (hmode : mode ∈ ["osu", "taiko", "fruits", "mania"]) (hpp : 0 ≤ pp ∧ pp ≤ 1000000)
    (chosen : List Text) (hnot : ¬ global.Covers pp) {code : Text}
    (hcode : isCode (official.upper code) = true)
    (hlisting : official.Serves mode (official.upper code) listing) (hne : listing.rows ≠ []) :
    ∃ result, nearbyPlayers official chosen mode pp (some code) =
      .ok (withCountry (some (official.upper code))
        (some (search official mode pp (official.upper code))) pp result) := by
  obtain ⟨hvalid, hdistinct⟩ := search_valid hlisting pp
  obtain ⟨nearest, hresult⟩ := candidatesAndRank_ok official hvalid hdistinct
    (search_ne_nil hlisting pp hne) pp false
  refine ⟨resultOf official (samplesOf official (search official mode pp (official.upper code)))
    nearest pp false, ?_⟩
  rw [nearbyPlayers, if_neg (by simp only [not_or, not_not]; exact ⟨hmode, hpp⟩)]
  dsimp only [Option.map_some, Option.any_some]
  rw [if_neg (by simp [hcode]), if_neg (mt (covers_iff hserves pp).mp hnot), hresult]
  rfl

/-- The only player of the rankings of the world and of New Zealand. -/
def leader : Listing where
  rows := [{ userId := 2, username := ['a'], pp := some 100, globalRank := some 1 }]
  total := 1
  falling := by simp
  bounded := by decide
  counted := by decide
  distinct := by decide
  valid := by decide

def nobody : Listing where
  rows := []
  total := 0
  falling := .nil
  bounded := by decide
  counted := by decide
  distinct := .nil
  valid := by simp

def onePlayer : Official where
  page _ country := if country ∈ [[], ['N', 'Z']] then leader.data else nobody.data
  upper := id
  str _ := []
  interpolate rank _ _ := rank

theorem onePlayer_serves : onePlayer.Serves "osu" [] leader := fun _ _ _ => rfl

theorem leader_position (i : Nat) (row : Row) (hi : leader.rows[i]? = some row) :
    row.globalRank = some (i + 1 : Int) ∧ row.countryRank = none := by
  cases i with
  | zero =>
    obtain rfl : _ = row := Option.some.inj hi
    exact ⟨rfl, rfl⟩
  | succ i => simp [leader] at hi

end Soms.Stealth

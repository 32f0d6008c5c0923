import Mathlib.Tactic.Linarith
import Soms.Somsai.System

/-!
# The settlement of ratings

What `settle_ratings` does to one rating, in exact arithmetic, and to all of them: every member's
row and change are a function of the rows before the match, so that the order of the loop does not
matter.
-/

namespace Soms.Somsai

/-! ## Rounding -/

section Rounding

variable {q : ℚ} {n : Int}

theorem roundHalfEven_cases (q : ℚ) :
    roundHalfEven q = ⌊q⌋ ∨ roundHalfEven q = ⌊q⌋ + 1 ∧ (⌊q⌋ : ℚ) < q := by
  unfold roundHalfEven
  dsimp only
  split_ifs with hbelow habove heven
  · exact .inl rfl
  · exact .inr ⟨rfl, by linarith⟩
  · exact .inl rfl
  · exact .inr ⟨rfl, by linarith⟩

theorem roundHalfEven_le (h : q ≤ n) : roundHalfEven q ≤ n := by
  have hfloor : ⌊q⌋ ≤ n := by exact_mod_cast (Int.floor_le q).trans h
  rcases roundHalfEven_cases q with hround | ⟨hround, hlt⟩
  · rw [hround]
    exact hfloor
  · rw [hround]
    have hless : (⌊q⌋ : ℚ) < n := hlt.trans_le h
    exact_mod_cast hless

theorem le_roundHalfEven (h : n ≤ q) : n ≤ roundHalfEven q := by
  have hfloor : n ≤ ⌊q⌋ := Int.le_floor.mpr h
  rcases roundHalfEven_cases q with hround | ⟨hround, -⟩ <;> omega

end Rounding

/-! ## One rating -/

theorem interpolate_pos {anchors : List (ℚ × ℚ)} (h : ∀ a ∈ anchors, 0 < a.2) (r : ℚ) :
    0 < interpolate r anchors := by
  induction anchors with
  | nil => norm_num [interpolate]
  | cons a rest ih =>
    cases rest with
    | nil => norm_num [interpolate]
    | cons b rest =>
      have ha : 0 < a.2 := h a List.mem_cons_self
      have hb : 0 < b.2 := h b (List.mem_cons_of_mem _ List.mem_cons_self)
      rw [interpolate]
      split_ifs with hin hne
      · -- between the two anchors, a mean of their factors
        have hlt : a.1 < b.1 := lt_of_le_of_ne (hin.1.trans hin.2) (Ne.symm hne)
        have hlow : 0 ≤ (r - a.1) / (b.1 - a.1) :=
          div_nonneg (sub_nonneg.mpr hin.1) (sub_nonneg.mpr hlt.le)
        have hhigh : (r - a.1) / (b.1 - a.1) ≤ 1 :=
          (div_le_one (sub_pos.mpr hlt)).mpr (sub_le_sub_right hin.2 _)
        generalize (r - a.1) / (b.1 - a.1) = t at hlow hhigh
        have hfirst : 0 ≤ (1 - t) * a.2 := mul_nonneg (sub_nonneg.mpr hhigh) ha.le
        rcases hlow.eq_or_lt with rfl | hpos
        · simpa using ha
        · have hsecond : 0 < t * b.2 := mul_pos hpos hb
          linarith
      · simpa using ha
      · exact ih fun c hc => h c (List.mem_cons_of_mem _ hc)

theorem kFactor_pos (rating : ℚ) (games : Nat) : 0 < kFactor rating games := by
  unfold kFactor
  split_ifs
  · norm_num
  · exact interpolate_pos (by decide) _

section Row

variable {poolRank : Rank} {expectation : ℚ} {team : Team} {winner : Option Team} {row : Rating}

theorem ratedRow_lastDelta : (ratedRow poolRank expectation team winner row).1.lastDelta =
    (ratedRow poolRank expectation team winner row).1.rating - row.rating := rfl

/-- Every new rating is on the scale. -/
theorem ratedRow_bounds : 0 ≤ (ratedRow poolRank expectation team winner row).1.rating ∧
    (ratedRow poolRank expectation team winner row).1.rating ≤ 5000 := by
  constructor
  · exact le_roundHalfEven (by exact_mod_cast le_max_left _ _)
  · refine roundHalfEven_le ?_
    push_cast
    exact max_le (by norm_num) (min_le_left _ _)

/-- The clamped factor of the gap never turns a change around. -/
theorem gapFactor_pos (x : ℚ) : (0 : ℚ) < max (6 / 10) (min (15 / 10) x) :=
  lt_max_of_lt_left (by norm_num)

theorem ratedRow_won (hexpectation : expectation < 1) (hrating : row.rating ≤ 5000)
    (hwon : winner = some team) :
    row.rating ≤ (ratedRow poolRank expectation team winner row).1.rating := by
  subst hwon
  refine le_roundHalfEven (le_max_of_le_right (le_min (by exact_mod_cast hrating) ?_))
  refine le_add_of_nonneg_right (mul_nonneg (mul_nonneg (kFactor_pos _ _).le ?_)
    (gapFactor_pos _).le)
  dsimp only
  rw [if_pos rfl]
  exact sub_nonneg.mpr hexpectation.le

theorem ratedRow_lost (hexpectation : 0 < expectation) (hrating : 0 ≤ row.rating)
    (hlost : winner = some team.other) :
    (ratedRow poolRank expectation team winner row).1.rating ≤ row.rating := by
  subst hlost
  refine roundHalfEven_le (max_le (by exact_mod_cast hrating) (min_le_of_right_le ?_))
  refine add_le_of_nonpos_right (mul_nonpos_of_nonpos_of_nonneg
    (mul_nonpos_of_nonneg_of_nonpos (kFactor_pos _ _).le ?_) (gapFactor_pos _).le)
  dsimp only
  rw [if_neg (Team.other_ne team), zero_sub]
  exact neg_nonpos.mpr hexpectation.le

end Row

/-! ## The loop -/

section Loop

variable {ctx : Ctx} {w : World} {k : MatchId} {m : Match} {winner : Option Team} {expected : ℚ}
  {impacts : List (UserId × Int)}

/-- The expectation of a team. -/
def expectationOf (expected : ℚ) : Team → ℚ
  | .red => expected
  | .blue => 1 - expected

/-- The row of a seat after the match, with its gap, and the row before. -/
def settledRow (w : World) (m : Match) (expected : ℚ) (winner : Option Team)
    (seat : Team × UserId) : Rating × ℚ :=
  ratedRow m.state.poolRank (expectationOf expected seat.1) seat.1 winner
    (w.ratingRow (ratingKey m seat.2))

/-- The change of a seat. -/
def settledChange (w : World) (m : Match) (expected : ℚ) (winner : Option Team)
    (impacts : List (UserId × Int)) (seat : Team × UserId) : RatingChange :=
  { userId := seat.2
    before := (w.ratingRow (ratingKey m seat.2)).rating
    after := (settledRow w m expected winner seat).1.rating
    delta := (settledRow w m expected winner seat).1.lastDelta
    impact := lookupLast impacts seat.2
    poolRankGap := roundCents (settledRow w m expected winner seat).2 }

theorem settleSeat_ratings (acc : World × List RatingChange) (seat : Team × UserId) :
    (settleSeat m expected winner impacts acc seat).1.ratings =
      Function.update acc.1.ratings (ratingKey m seat.2)
        (some (settledRow acc.1 m expected winner seat).1) := by
  obtain ⟨team, uid⟩ := seat
  cases team <;> rfl

theorem settleSeat_changes (acc : World × List RatingChange) (seat : Team × UserId) :
    (settleSeat m expected winner impacts acc seat).2 =
      acc.2 ++ [settledChange acc.1 m expected winner impacts seat] := by
  obtain ⟨team, uid⟩ := seat
  cases team <;> rfl

theorem ratingKey_ne {a b : UserId} (h : a ≠ b) : ratingKey m a ≠ ratingKey m b := fun heq =>
  h (congrArg RatingKey.userId heq)

/-- A seat does not see the seats before it. -/
theorem ratingRow_settleSeat {acc : World × List RatingChange} {seat : Team × UserId}
    {uid : UserId} (h : uid ≠ seat.2) :
    (settleSeat m expected winner impacts acc seat).1.ratingRow (ratingKey m uid) =
      acc.1.ratingRow (ratingKey m uid) := by
  unfold World.ratingRow
  rw [settleSeat_ratings, Function.update_of_ne (ratingKey_ne h)]
  rfl

/-- The loop over the seats of different users, in any order. -/
theorem foldl_settleSeat {seats : List (Team × UserId)} (hnodup : (seats.map Prod.snd).Nodup)
    (acc : World × List RatingChange) :
    (∀ seat ∈ seats,
      (seats.foldl (settleSeat m expected winner impacts) acc).1.ratings (ratingKey m seat.2) =
        some (settledRow acc.1 m expected winner seat).1) ∧
    (∀ key, (∀ seat ∈ seats, ratingKey m seat.2 ≠ key) →
      (seats.foldl (settleSeat m expected winner impacts) acc).1.ratings key =
        acc.1.ratings key) ∧
    (seats.foldl (settleSeat m expected winner impacts) acc).2 =
      acc.2 ++ seats.map (settledChange acc.1 m expected winner impacts) := by
  induction seats generalizing acc with
  | nil => exact ⟨by simp, fun _ _ => rfl, by simp⟩
  | cons seat rest ih =>
    obtain ⟨hfresh, hrest⟩ := List.nodup_cons.mp hnodup
    obtain ⟨hrows, hothers, hchanges⟩ := ih hrest (settleSeat m expected winner impacts acc seat)
    have hne : ∀ other ∈ rest, other.2 ≠ seat.2 := fun other hother heq =>
      hfresh (heq ▸ List.mem_map_of_mem hother)
    have hsame : ∀ other ∈ rest, settledRow (settleSeat m expected winner impacts acc seat).1 m
        expected winner other = settledRow acc.1 m expected winner other := fun other hother => by
      unfold settledRow
      rw [ratingRow_settleSeat (hne other hother)]
    refine ⟨fun other hother => ?_, fun key hkey => ?_, ?_⟩
    · rcases List.mem_cons.mp hother with rfl | hother
      · rw [List.foldl_cons, hothers _ fun other' hother' => ratingKey_ne (hne other' hother'),
          settleSeat_ratings]
        exact Function.update_self _ _ _
      · rw [List.foldl_cons, hrows other hother, hsame other hother]
    · rw [List.foldl_cons, hothers key fun other hother =>
        hkey other (List.mem_cons_of_mem _ hother), settleSeat_ratings]
      exact Function.update_of_ne (hkey seat List.mem_cons_self).symm _ _
    · have hchange : rest.map (settledChange (settleSeat m expected winner impacts acc seat).1 m
          expected winner impacts) = rest.map (settledChange acc.1 m expected winner impacts) := by
        refine List.map_congr_left fun other hother => ?_
        unfold settledChange
        rw [ratingRow_settleSeat (hne other hother), hsame other hother]
      rw [List.foldl_cons, hchanges, hchange, settleSeat_changes, List.append_assoc]
      rfl

end Loop

/-! ## The whole settlement -/

section Settle

variable {ctx : Ctx} {w : World} {k : MatchId} {m : Match} {winner : Option Team}

/-- `settle_ratings` with the seats visited in the given order. -/
def World.settleIn (ctx : Ctx) (w : World) (id : MatchId) (m : Match) (winner : Option Team)
    (seats : List (Team × UserId)) : World × List RatingChange :=
  let teams := m.state.teams
  let impacts := performanceImpacts teams m.state.history winner
  let w := w.ensureRatings ((membersOf m).map (ratingKey m))
  let average := teams.map fun team =>
    mean (team.map fun uid => ((w.ratingRow (ratingKey m uid)).rating : ℚ))
  let expected := ctx.expectedScore (max (-4000) (min 4000 (average.blue - average.red)))
  let w := { w with settled := w.settled ++ [id] }
  seats.foldl (settleSeat m expected winner impacts) (w, [])

/-- The mean rating of a team. -/
def averageOf (w : World) (m : Match) (team : List UserId) : ℚ :=
  mean (team.map fun uid => ((w.ratingRow (ratingKey m uid)).rating : ℚ))

/-- The expectation of the first team. -/
def expectedOf (ctx : Ctx) (w : World) (m : Match) : ℚ :=
  ctx.expectedScore (max (-4000) (min 4000
    (averageOf w m m.state.teams.blue - averageOf w m m.state.teams.red)))

theorem ratingRow_ensureRatings (w : World) (keys : List RatingKey) (key : RatingKey) :
    (w.ensureRatings keys).ratingRow key = w.ratingRow key := by
  unfold World.ensureRatings
  induction keys generalizing w with
  | nil => rfl
  | cons key' rest ih =>
    rw [List.foldl_cons, ih]
    unfold World.ensureRating
    split
    · rfl
    · next hnone =>
      unfold World.ratingRow
      by_cases hkey : key = key'
      · subst hkey
        dsimp only
        rw [Function.update_self, hnone]
        rfl
      · dsimp only
        rw [Function.update_of_ne hkey]

theorem ratings_ensureRatings (w : World) {keys : List RatingKey} {key : RatingKey}
    (h : key ∉ keys) : (w.ensureRatings keys).ratings key = w.ratings key := by
  unfold World.ensureRatings
  induction keys generalizing w with
  | nil => rfl
  | cons key' rest ih =>
    rw [List.foldl_cons, ih _ fun hmem => h (List.mem_cons_of_mem _ hmem)]
    unfold World.ensureRating
    split
    · rfl
    · have hne : key ≠ key' := fun heq => h (heq ▸ List.mem_cons_self)
      exact Function.update_of_ne hne _ _

theorem mem_seatsOf {teams : PerTeam (List UserId)} {seat : Team × UserId} :
    seat ∈ seatsOf teams ↔ seat.2 ∈ teams.get seat.1 := by
  obtain ⟨team, uid⟩ := seat
  cases team <;> simp [seatsOf, PerTeam.get]

theorem map_snd_seatsOf (teams : PerTeam (List UserId)) :
    (seatsOf teams).map Prod.snd = teams.red ++ teams.blue := by
  simp [seatsOf, Function.comp_def]

/-- The impact that a seat is told. -/
theorem lookupLast_impacts {teams : PerTeam (List UserId)}
    (hnodup : (teams.red ++ teams.blue).Nodup) (rounds : List HistoryEntry)
    {seat : Team × UserId} (hseat : seat ∈ seatsOf teams) :
    lookupLast (performanceImpacts teams rounds winner) seat.2 =
      impactOf seat.2 seat.1 rounds winner := by
  have hkeys : ((performanceImpacts teams rounds winner).reverse.map Prod.fst).Nodup := by
    rw [List.map_reverse, List.nodup_reverse, performanceImpacts, List.map_map]
    exact (map_snd_seatsOf teams ▸ hnodup :)
  have hmem : (seat.2, impactOf seat.2 seat.1 rounds winner) ∈
      (performanceImpacts teams rounds winner).reverse :=
    List.mem_reverse.mpr (List.mem_map_of_mem hseat)
  unfold lookupLast
  cases hfind : (performanceImpacts teams rounds winner).reverse.find?
      fun item => item.1 = seat.2 with
  | none =>
    have := List.find?_eq_none.mp hfind _ hmem
    simp at this
  | some item =>
    have hkey : item.1 = seat.2 := by simpa using List.find?_some hfind
    rw [List.inj_on_of_nodup_map hkeys (List.mem_of_find?_eq_some hfind) hmem hkey]
    rfl

/-- What comes of the seats, whatever the order. -/
theorem settleIn_spec (ctx : Ctx) (w : World) (k : MatchId) (winner : Option Team)
    (hnodup : (membersOf m).Nodup) {seats : List (Team × UserId)}
    (hseats : seats.Perm (seatsOf m.state.teams)) :
    (∀ seat ∈ seatsOf m.state.teams,
      (w.settleIn ctx k m winner seats).1.ratings (ratingKey m seat.2) =
        some (settledRow w m (expectedOf ctx w m) winner seat).1) ∧
    (∀ key, (∀ uid ∈ membersOf m, ratingKey m uid ≠ key) →
      (w.settleIn ctx k m winner seats).1.ratings key = w.ratings key) ∧
    (w.settleIn ctx k m winner seats).2 = seats.map (settledChange w m (expectedOf ctx w m) winner
      (performanceImpacts m.state.teams m.state.history winner)) := by
  obtain ⟨v, hv⟩ : ∃ v, v = { w.ensureRatings ((membersOf m).map (ratingKey m)) with
    settled := (w.ensureRatings ((membersOf m).map (ratingKey m))).settled ++ [k] } := ⟨_, rfl⟩
  have hrow : ∀ uid, v.ratingRow (ratingKey m uid) = w.ratingRow (ratingKey m uid) := fun uid => by
    rw [hv]
    exact ratingRow_ensureRatings w _ _
  have hexpected : expectedOf ctx v m = expectedOf ctx w m := by
    simp only [expectedOf, averageOf, hrow]
  have hrows : ∀ seat, settledRow v m (expectedOf ctx w m) winner seat =
      settledRow w m (expectedOf ctx w m) winner seat := fun seat => by
    unfold settledRow
    rw [hrow]
  have hsettle : w.settleIn ctx k m winner seats = seats.foldl (settleSeat m (expectedOf ctx w m)
      winner (performanceImpacts m.state.teams m.state.history winner)) (v, []) := by
    rw [← hexpected, hv]
    rfl
  have hmembers : (seats.map Prod.snd).Perm (membersOf m) :=
    (hseats.map Prod.snd).trans (.of_eq (map_snd_seatsOf m.state.teams))
  obtain ⟨hnew, hothers, hchanges⟩ := @foldl_settleSeat m winner (expectedOf ctx w m)
    (performanceImpacts m.state.teams m.state.history winner) seats
    (hmembers.nodup_iff.mpr hnodup) (v, [])
  rw [← hsettle] at hnew hothers hchanges
  refine ⟨fun seat hseat => ?_, fun key hkey => ?_, ?_⟩
  · rw [hnew seat (hseats.mem_iff.mpr hseat), hrows]
  · rw [hothers key fun seat hseat => hkey _ (hmembers.mem_iff.mp (List.mem_map_of_mem hseat)), hv]
    refine ratings_ensureRatings w fun hmem => ?_
    obtain ⟨uid, huid, heq⟩ := List.mem_map.mp hmem
    exact hkey uid huid heq
  · rw [hchanges, List.nil_append]
    refine List.map_congr_left fun seat _ => ?_
    simp only [settledChange, hrow, hrows]

/-- The row with other rosters. -/
def Match.withTeams (m : Match) (teams : PerTeam (List UserId)) : Match :=
  { m with state := { m.state with teams := teams } }

theorem mean_perm {xs ys : List ℚ} (h : xs.Perm ys) : mean xs = mean ys := by
  unfold mean
  rw [h.sum_eq, h.length_eq]

theorem seatsOf_perm {teams teams' : PerTeam (List UserId)}
    (h : ∀ team, (teams'.get team).Perm (teams.get team)) :
    (seatsOf teams').Perm (seatsOf teams) :=
  ((h .red).map _).append ((h .blue).map _)

/-- The expectation does not depend on the order of the members. -/
theorem expectedOf_withTeams {teams : PerTeam (List UserId)}
    (h : ∀ team, (teams.get team).Perm (m.state.teams.get team)) :
    expectedOf ctx w (m.withTeams teams) = expectedOf ctx w m := by
  have haverage : ∀ team, averageOf w m (teams.get team) = averageOf w m (m.state.teams.get team) :=
    fun team => mean_perm ((h team).map _)
  have hred : averageOf w m teams.red = averageOf w m m.state.teams.red := haverage .red
  have hblue : averageOf w m teams.blue = averageOf w m m.state.teams.blue := haverage .blue
  show ctx.expectedScore (max (-4000) (min 4000
    (averageOf w m teams.blue - averageOf w m teams.red))) = _
  rw [hred, hblue]
  rfl

/-- The settlement does not depend on the order of the members, nor on that of the seats. -/
theorem settleIn_order (ctx : Ctx) (w : World) (k : MatchId) (winner : Option Team)
    (hnodup : (membersOf m).Nodup) {teams : PerTeam (List UserId)}
    (hteams : ∀ team, (teams.get team).Perm (m.state.teams.get team))
    {seats : List (Team × UserId)} (hseats : seats.Perm (seatsOf teams)) :
    (w.settleIn ctx k (m.withTeams teams) winner seats).1.ratings =
        (w.settleRatings ctx k m winner).1.ratings ∧
      (w.settleIn ctx k (m.withTeams teams) winner seats).2.Perm
        (w.settleRatings ctx k m winner).2 := by
  have hmembers : (membersOf (m.withTeams teams)).Perm (membersOf m) :=
    (hteams .red).append (hteams .blue)
  have hnodup' : (membersOf (m.withTeams teams)).Nodup := hmembers.nodup_iff.mpr hnodup
  have hsame : ∀ seat, settledRow w (m.withTeams teams) (expectedOf ctx w (m.withTeams teams))
      winner seat = settledRow w m (expectedOf ctx w m) winner seat := fun seat => by
    rw [expectedOf_withTeams hteams]
    rfl
  obtain ⟨hrows, hothers, hchanges⟩ := settleIn_spec ctx w k winner hnodup
    (.refl (seatsOf m.state.teams))
  obtain ⟨hrows', hothers', hchanges'⟩ := settleIn_spec ctx w k winner hnodup' hseats
  constructor
  · funext key
    by_cases hkey : ∃ uid ∈ membersOf m, ratingKey m uid = key
    · obtain ⟨uid, huid, rfl⟩ := hkey
      have hseat : ∃ team, (team, uid) ∈ seatsOf m.state.teams := by
        rcases List.mem_append.mp huid with hred | hblue
        · exact ⟨.red, mem_seatsOf.mpr hred⟩
        · exact ⟨.blue, mem_seatsOf.mpr hblue⟩
      obtain ⟨team, hseat⟩ := hseat
      have hseat' : (team, uid) ∈ seatsOf teams := (seatsOf_perm hteams).mem_iff.mpr hseat
      exact (hrows' _ hseat').trans ((congrArg (fun row => some row.1) (hsame _)).trans
        (hrows _ hseat).symm)
    · have hnone : ∀ uid ∈ membersOf m, ratingKey m uid ≠ key := fun uid huid heq =>
        hkey ⟨uid, huid, heq⟩
      exact (hothers' key fun uid huid => hnone uid (hmembers.mem_iff.mp huid)).trans
        (hothers key hnone).symm
  · have hchange : ∀ seat ∈ seats, settledChange w (m.withTeams teams)
        (expectedOf ctx w (m.withTeams teams)) winner
        (performanceImpacts teams m.state.history winner) seat =
        settledChange w m (expectedOf ctx w m) winner
          (performanceImpacts m.state.teams m.state.history winner) seat := fun seat hseat => by
      have hseat' : seat ∈ seatsOf teams := hseats.mem_iff.mp hseat
      have hseat'' : seat ∈ seatsOf m.state.teams := (seatsOf_perm hteams).mem_iff.mp hseat'
      have himpact' : lookupLast (performanceImpacts teams m.state.history winner) seat.2 =
          impactOf seat.2 seat.1 m.state.history winner := lookupLast_impacts hnodup' _ hseat'
      have himpact : lookupLast (performanceImpacts m.state.teams m.state.history winner) seat.2 =
          impactOf seat.2 seat.1 m.state.history winner := lookupLast_impacts hnodup _ hseat''
      unfold settledChange
      rw [himpact', himpact, hsame]
      rfl
    refine .trans (.of_eq (hchanges'.trans (List.map_congr_left hchange))) ?_
    exact ((hseats.trans (seatsOf_perm hteams)).map _).trans (.of_eq hchanges.symm)

/-- **The settlement of a match.**  Every new rating is on the scale; no winner falls and no loser
rises; the delta is the difference; and the rows and changes are the same in whatever order the
teams and their members are visited. -/
theorem settleRatings_sound (ctx : Ctx) (w : World) (k : MatchId) (m : Match)
    (winner : Option Team) (hexpected : ∀ d, 0 < ctx.expectedScore d ∧ ctx.expectedScore d < 1)
    (hnodup : (membersOf m).Nodup)
    (hratings : ∀ uid ∈ membersOf m, 0 ≤ (w.ratingRow (ratingKey m uid)).rating ∧
      (w.ratingRow (ratingKey m uid)).rating ≤ 5000) :
    (∀ team, ∀ uid ∈ m.state.teams.get team, ∃ row,
      (w.settleRatings ctx k m winner).1.ratings (ratingKey m uid) = some row ∧
      0 ≤ row.rating ∧ row.rating ≤ 5000 ∧
      row.lastDelta = row.rating - (w.ratingRow (ratingKey m uid)).rating ∧
      (winner = some team → (w.ratingRow (ratingKey m uid)).rating ≤ row.rating) ∧
      (winner = some team.other → row.rating ≤ (w.ratingRow (ratingKey m uid)).rating)) ∧
    ∀ (teams : PerTeam (List UserId)) (seats : List (Team × UserId)),
      (∀ team, (teams.get team).Perm (m.state.teams.get team)) → seats.Perm (seatsOf teams) →
      (w.settleIn ctx k (m.withTeams teams) winner seats).1.ratings =
          (w.settleRatings ctx k m winner).1.ratings ∧
        (w.settleIn ctx k (m.withTeams teams) winner seats).2.Perm
          (w.settleRatings ctx k m winner).2 := by
  refine ⟨fun team uid huid => ?_, fun teams seats hteams hseats =>
    settleIn_order ctx w k winner hnodup hteams hseats⟩
  have hseat : (team, uid) ∈ seatsOf m.state.teams := mem_seatsOf.mpr huid
  have hmember : uid ∈ membersOf m := by
    cases team with
    | red => exact List.mem_append_left _ huid
    | blue => exact List.mem_append_right _ huid
  have hexpectation : 0 < expectationOf (expectedOf ctx w m) team ∧
      expectationOf (expectedOf ctx w m) team < 1 := by
    obtain ⟨hpos, hlt⟩ : 0 < expectedOf ctx w m ∧ expectedOf ctx w m < 1 := hexpected _
    cases team with
    | red => exact ⟨hpos, hlt⟩
    | blue => exact ⟨sub_pos.mpr hlt, sub_lt_self 1 hpos⟩
  obtain ⟨hlow, hhigh⟩ := hratings uid hmember
  refine ⟨_, (settleIn_spec ctx w k winner hnodup (.refl _)).1 _ hseat, ratedRow_bounds.1,
    ratedRow_bounds.2, ratedRow_lastDelta, ratedRow_won hexpectation.2 hhigh,
    ratedRow_lost hexpectation.1 hlow⟩

/-- A ranked match of accounts 1 and 2. -/
def ratedDuel : Match :=
  newMatch (.steady 0) 0
    { teams := ⟨[1], [2]⟩, format := .one, rulesetId := 0, variantId := 0, reservations := [] }
    { bestOf := 7, bansPerTeam := 1, poolRank := .division .bronze 0, slots := [] } 550 1

/-- The store of two accounts that have not played yet. -/
def ratedStore : World := .fresh (players 2) (.sample (.division .bronze 0) 550)

theorem settleRatings_sound_won :
    (∀ d, 0 < (Ctx.steady 0).expectedScore d ∧ (Ctx.steady 0).expectedScore d < 1) ∧
    ∃ row, (ratedStore.settleRatings (.steady 0) 0 ratedDuel (some .red)).1.ratings
        (ratingKey ratedDuel 1) = some row ∧
      row.lastDelta = row.rating - 550 ∧ 550 ≤ row.rating ∧ row.rating ≤ 5000 := by
  have hexpected : ∀ d, 0 < (Ctx.steady 0).expectedScore d ∧ (Ctx.steady 0).expectedScore d < 1 :=
    fun _ => by norm_num [Ctx.steady]
  obtain ⟨row, hrow, -, hhigh, hdelta, hwon, -⟩ := (settleRatings_sound (.steady 0) ratedStore 0
    ratedDuel (some .red) hexpected (by decide) (by decide)).1 .red 1 (by decide)
  exact ⟨hexpected, row, hrow, hdelta, hwon rfl, hhigh⟩

end Settle

end Soms.Somsai

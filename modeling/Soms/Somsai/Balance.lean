import Soms.Somsai.Compatible

/-!
# The balance of two teams

A choice puts each entry on one side.  The masks of `balance_units` are the choices that put the
first entry on the left, and a choice with its sides exchanged is as good, so that the loop sees
the best split there is.
-/

namespace Soms.Somsai

/-- The entries that a choice of sides puts on one side. -/
def unitsOn (choice : Nat → Bool) (side : Bool) (entries : List QueueEntry) : List QueueEntry :=
  (entries.zipIdx.filter fun x => choice x.2 = side).map Prod.fst

/-- The choice fills both teams. -/
structure Splits (entries : List QueueEntry) (size : Nat) (choice : Nat → Bool) : Prop where
  left : (unitMembers (unitsOn choice true entries)).length = size
  right : (unitMembers (unitsOn choice false entries)).length = size

/-- The teams of a choice. -/
def teamsOf (entries : List QueueEntry) (choice : Nat → Bool) : PerTeam (List UserId) :=
  ⟨unitMembers (unitsOn choice true entries), unitMembers (unitsOn choice false entries)⟩

/-- The difference of the summed ratings of the sides. -/
def imbalance (entries : List QueueEntry) (choice : Nat → Bool) : ℚ :=
  |unitWeight (unitsOn choice true entries) - unitWeight (unitsOn choice false entries)|

variable {entries : List QueueEntry} {size : Nat} {choice choice' : Nat → Bool}

/-! ## Choices of sides -/

theorem unitsOn_congr (h : ∀ i < entries.length, choice i = choice' i) (side : Bool) :
    unitsOn choice side entries = unitsOn choice' side entries := by
  unfold unitsOn
  congr 1
  refine List.filter_congr fun x hx => ?_
  have hlt : x.2 < entries.length := by
    have := List.snd_lt_of_mem_zipIdx hx
    omega
  rw [h x.2 hlt]

theorem unitsOn_not (choice : Nat → Bool) (side : Bool) (entries : List QueueEntry) :
    unitsOn (fun i => !choice i) side entries = unitsOn choice (!side) entries := by
  unfold unitsOn
  congr 1
  refine List.filter_congr fun x _ => ?_
  cases hx : choice x.2 <;> cases side <;> simp [hx]

/-- Every entry is on one side. -/
theorem perm_unitsOn (choice : Nat → Bool) (entries : List QueueEntry) :
    (unitsOn choice true entries ++ unitsOn choice false entries).Perm entries := by
  have hperm := (List.filter_append_perm (fun x => decide (choice x.2 = true))
    entries.zipIdx).map Prod.fst
  rw [List.map_append, List.zipIdx_map_fst] at hperm
  have hother : entries.zipIdx.filter (fun x => !decide (choice x.2 = true)) =
      entries.zipIdx.filter fun x => decide (choice x.2 = false) := by
    refine List.filter_congr fun x _ => ?_
    cases choice x.2 <;> rfl
  rw [hother] at hperm
  exact hperm

theorem perm_teamsOf (choice : Nat → Bool) (entries : List QueueEntry) :
    ((teamsOf entries choice).red ++ (teamsOf entries choice).blue).Perm (unitMembers entries) := by
  show (unitMembers _ ++ unitMembers _).Perm _
  unfold unitMembers
  rw [← List.flatMap_append]
  exact (perm_unitsOn choice entries).flatMap_right _

theorem Splits.total (h : Splits entries size choice) :
    (unitMembers entries).length = size * 2 := by
  have hlength := (perm_teamsOf choice entries).length_eq
  rw [List.length_append] at hlength
  have hleft : (teamsOf entries choice).red.length = size := h.left
  have hright : (teamsOf entries choice).blue.length = size := h.right
  omega

theorem splits_of_left (htotal : (unitMembers entries).length = size * 2)
    (hleft : (unitMembers (unitsOn choice true entries)).length = size) :
    Splits entries size choice := by
  refine ⟨hleft, ?_⟩
  have hlength := (perm_teamsOf choice entries).length_eq
  rw [List.length_append] at hlength
  have hred : (teamsOf entries choice).red.length = size := hleft
  have hblue : (teamsOf entries choice).blue.length = size := by omega
  exact hblue

theorem Splits.swap (h : Splits entries size choice) :
    Splits entries size fun i => !choice i where
  left := by
    rw [unitsOn_not]
    exact h.right
  right := by
    rw [unitsOn_not]
    exact h.left

theorem imbalance_swap (entries : List QueueEntry) (choice : Nat → Bool) :
    imbalance entries (fun i => !choice i) = imbalance entries choice := by
  unfold imbalance
  rw [unitsOn_not, unitsOn_not, abs_sub_comm]
  rfl

theorem Splits.congr (h : Splits entries size choice)
    (hsame : ∀ i < entries.length, choice i = choice' i) : Splits entries size choice' where
  left := by
    rw [← unitsOn_congr hsame]
    exact h.left
  right := by
    rw [← unitsOn_congr hsame]
    exact h.right

theorem imbalance_congr (h : ∀ i < entries.length, choice i = choice' i) :
    imbalance entries choice = imbalance entries choice' := by
  unfold imbalance
  rw [unitsOn_congr h, unitsOn_congr h]

/-- Every choice for the first entries is the bits of a mask. -/
theorem exists_mask (choice : Nat → Bool) (n : Nat) :
    ∃ mask < 2 ^ n, ∀ i < n, mask.testBit i = choice i := by
  refine ⟨Nat.ofBits fun i : Fin n => choice i, Nat.ofBits_lt_two_pow _, fun i hi => ?_⟩
  rw [Nat.testBit_ofBits_lt _ i hi]

/-- A split can be turned so that the first entry is on the left. -/
theorem Splits.exists_mask (h : Splits entries size choice) (hne : entries ≠ []) :
    ∃ mask < 2 ^ entries.length, mask.testBit 0 = true ∧
      Splits entries size mask.testBit ∧
      imbalance entries mask.testBit = imbalance entries choice := by
  have hpos : 0 < entries.length := List.length_pos_iff.mpr hne
  -- exchange the sides when the first entry is on the right
  have hturned : ∃ choice', choice' 0 = true ∧ Splits entries size choice' ∧
      imbalance entries choice' = imbalance entries choice := by
    cases hfirst : choice 0 with
    | true => exact ⟨choice, hfirst, h, rfl⟩
    | false => exact ⟨fun i => !choice i, by simp [hfirst], h.swap, imbalance_swap entries choice⟩
  obtain ⟨choice', hfirst, hsplits, hsame⟩ := hturned
  obtain ⟨mask, hlt, hbits⟩ := Soms.Somsai.exists_mask choice' entries.length
  refine ⟨mask, hlt, (hbits 0 hpos).trans hfirst, hsplits.congr fun i hi => (hbits i hi).symm, ?_⟩
  exact (imbalance_congr hbits).trans hsame

/-! ## The loop over the masks -/

/-- What the loop has found in the masks it has seen. -/
def BestOf (entries : List QueueEntry) (size : Nat) (masks : List Nat) :
    Option (ℚ × PerTeam (List UserId)) → Prop
  | none => ∀ mask ∈ masks, (unitMembers (pickUnits mask true entries)).length ≠ size
  | some (least, teams) =>
    (∃ mask ∈ masks, (unitMembers (pickUnits mask true entries)).length = size ∧
      least = imbalance entries mask.testBit / size ∧ teams = teamsOf entries mask.testBit) ∧
    ∀ mask ∈ masks, (unitMembers (pickUnits mask true entries)).length = size →
      least ≤ imbalance entries mask.testBit / size

theorem BestOf.step {masks : List Nat} {best : Option (ℚ × PerTeam (List UserId))}
    (h : BestOf entries size masks best) (mask : Nat) :
    BestOf entries size (masks ++ [mask]) (balanceStep entries size best mask) := by
  unfold balanceStep
  dsimp only
  split
  · next hskip =>
    cases best with
    | none =>
      intro m hm
      rcases List.mem_append.mp hm with hm | hm
      · exact h m hm
      · rw [List.mem_singleton.mp hm]
        exact hskip
    | some found =>
      obtain ⟨⟨m, hm, hfound⟩, hleast⟩ := h
      refine ⟨⟨m, List.mem_append_left _ hm, hfound⟩, fun m' hm' hfits => ?_⟩
      rcases List.mem_append.mp hm' with hm' | hm'
      · exact hleast m' hm' hfits
      · rw [List.mem_singleton.mp hm'] at hfits
        exact absurd hfits hskip
  · next hfits =>
    have hfits : (unitMembers (pickUnits mask true entries)).length = size := not_not.mp hfits
    have hself : mask ∈ masks ++ [mask] := List.mem_append_right _ (List.mem_singleton_self _)
    cases best with
    | none =>
      refine ⟨⟨mask, hself, hfits, rfl, rfl⟩, fun m hm hm' => ?_⟩
      rcases List.mem_append.mp hm with hm | hm
      · exact absurd hm' (h m hm)
      · rw [List.mem_singleton.mp hm]
        exact le_rfl
    | some found =>
      obtain ⟨least, teams⟩ := found
      obtain ⟨⟨m, hm, hfound⟩, hleast⟩ := h
      dsimp only
      split
      · next hless =>
        refine ⟨⟨mask, hself, hfits, rfl, rfl⟩, fun m' hm' hm'' => ?_⟩
        rcases List.mem_append.mp hm' with hm' | hm'
        · exact hless.le.trans (hleast m' hm' hm'')
        · rw [List.mem_singleton.mp hm']
          exact le_rfl
      · next hmore =>
        refine ⟨⟨m, List.mem_append_left _ hm, hfound⟩, fun m' hm' hm'' => ?_⟩
        rcases List.mem_append.mp hm' with hm' | hm'
        · exact hleast m' hm' hm''
        · rw [List.mem_singleton.mp hm']
          exact not_lt.mp hmore

theorem BestOf.foldl {masks seen : List Nat} {best : Option (ℚ × PerTeam (List UserId))}
    (h : BestOf entries size seen best) :
    BestOf entries size (seen ++ masks) (masks.foldl (balanceStep entries size) best) := by
  induction masks generalizing seen best with
  | nil => simpa using h
  | cons mask rest ih =>
    have hrest := ih (h.step mask)
    rwa [List.append_assoc, List.singleton_append] at hrest

/-- The masks that put the first entry on the left. -/
def leftMasks (n : Nat) : List Nat := (List.range (2 ^ n)).filter fun mask => mask.testBit 0

theorem mem_leftMasks {n mask : Nat} :
    mask ∈ leftMasks n ↔ mask < 2 ^ n ∧ mask.testBit 0 = true := by
  simp [leftMasks]

theorem bestOf_balanceUnits (entries : List QueueEntry) (size : Nat) :
    BestOf entries size (leftMasks entries.length)
      ((leftMasks entries.length).foldl (balanceStep entries size) none) := by
  have hnothing : BestOf entries size [] none := by simp [BestOf]
  exact hnothing.foldl

theorem balanceUnits_of_total (htotal : (unitMembers entries).length = size * 2) :
    balanceUnits entries size =
      ((leftMasks entries.length).foldl (balanceStep entries size) none).map Prod.snd := by
  unfold balanceUnits
  rw [if_neg (not_not.mpr htotal)]
  rfl

theorem balanceUnits_some (hne : entries ≠ []) {teams : PerTeam (List UserId)}
    (h : balanceUnits entries size = some teams) :
    ∃ choice, Splits entries size choice ∧ teams = teamsOf entries choice ∧
      ∀ choice', Splits entries size choice' → imbalance entries choice / size ≤
        imbalance entries choice' / size := by
  have htotal : (unitMembers entries).length = size * 2 := by
    by_contra hother
    simp [balanceUnits, hother] at h
  rw [balanceUnits_of_total htotal] at h
  obtain ⟨⟨least, found⟩, hfold, rfl⟩ := Option.map_eq_some_iff.mp h
  have hbest := bestOf_balanceUnits entries size
  rw [hfold] at hbest
  obtain ⟨⟨mask, -, hfits, hleast, hteams⟩, hmin⟩ := hbest
  refine ⟨mask.testBit, splits_of_left htotal hfits, hteams, fun choice' hsplits => ?_⟩
  obtain ⟨mask', hlt, hfirst, hsplits', hsame⟩ := hsplits.exists_mask hne
  have hle := hmin mask' (mem_leftMasks.mpr ⟨hlt, hfirst⟩) hsplits'.left
  rwa [hleast, hsame] at hle

theorem balanceUnits_none (hne : entries ≠ []) :
    balanceUnits entries size = none ↔ ∀ choice, ¬ Splits entries size choice := by
  constructor
  · intro h choice hsplits
    rw [balanceUnits_of_total hsplits.total, Option.map_eq_none_iff] at h
    have hbest := bestOf_balanceUnits entries size
    rw [h] at hbest
    obtain ⟨mask, hlt, hfirst, hsplits', -⟩ := hsplits.exists_mask hne
    exact hbest mask (mem_leftMasks.mpr ⟨hlt, hfirst⟩) hsplits'.left
  · intro h
    cases hresult : balanceUnits entries size with
    | none => rfl
    | some teams =>
      obtain ⟨choice, hsplits, -⟩ := balanceUnits_some hne hresult
      exact absurd hsplits (h choice)

/-- The teams are the best split of the whole entries, and there are teams whenever there is a
split. -/
theorem balanceUnits_optimal (entries : List QueueEntry) (size : Nat) (hne : entries ≠ [])
    (hmembers : ∀ e ∈ entries, e.members ≠ []) :
    (balanceUnits entries size = none ↔ ∀ choice, ¬ Splits entries size choice) ∧
      ∀ teams, balanceUnits entries size = some teams →
        (teams.red ++ teams.blue).Perm (unitMembers entries) ∧
        ∃ choice, Splits entries size choice ∧ teams = teamsOf entries choice ∧
          ∀ choice', Splits entries size choice' →
            imbalance entries choice ≤ imbalance entries choice' := by
  refine ⟨balanceUnits_none hne, fun teams hteams => ?_⟩
  obtain ⟨choice, hsplits, rfl, hmin⟩ := balanceUnits_some hne hteams
  refine ⟨perm_teamsOf choice entries, choice, hsplits, rfl, fun choice' hsplits' => ?_⟩
  have hpos : 0 < size := by
    obtain ⟨e, rest, rfl⟩ := List.exists_cons_of_ne_nil hne
    have he : 0 < e.members.length := List.length_pos_iff.mpr (hmembers e List.mem_cons_self)
    have htotal := hsplits.total
    simp only [unitMembers, List.flatMap_cons, List.length_append] at htotal
    omega
  have hsize : (0 : ℚ) < size := by exact_mod_cast hpos
  exact (div_le_div_iff_of_pos_right hsize).mp (hmin choice' hsplits')

/-- Of a party of two and two players, the players face the party. -/
def threeUnits : List QueueEntry :=
  [{ soloEntry 1 1000 0 with members := [1, 2] }, soloEntry 3 1200 0, soloEntry 4 900 0]

theorem balanceUnits_optimal_party : balanceUnits threeUnits 2 = some ⟨[1, 2], [3, 4]⟩ ∧
    ∃ choice, Splits threeUnits 2 choice ∧ ∀ choice', Splits threeUnits 2 choice' →
      imbalance threeUnits choice ≤ imbalance threeUnits choice' := by
  have hteams : balanceUnits threeUnits 2 = some ⟨[1, 2], [3, 4]⟩ := by decide +kernel
  obtain ⟨-, choice, hsplits, -, hmin⟩ := (balanceUnits_optimal threeUnits 2 (by decide)
    (by decide)).2 _ hteams
  exact ⟨hteams, choice, hsplits, hmin⟩

end Soms.Somsai

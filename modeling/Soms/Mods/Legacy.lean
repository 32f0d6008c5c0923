import Mathlib.Data.Nat.Bitwise
import Mathlib.Data.List.Nodup
import Soms.Replays.Retention

/-!
# Legacy mod flags

`models/mods/legacy.py`.  PF and NC stand for two bits each.  `int_to_mods` takes the implied mod
from the list again, and `list.remove` fails if it is not there.
-/

namespace Soms.Mods

open Soms.Replays (APIMod)

/-- `API_MOD_TO_LEGACY` as it is written, each flag by its bit. -/
def legacyBits : List (String × Nat) :=
  [("NF", 0), ("EZ", 1), ("TD", 2), ("HD", 3), ("HR", 4), ("SD", 5), ("DT", 6), ("RX", 7),
    ("HT", 8), ("NC", 9), ("FL", 10), ("AT", 11), ("SO", 12), ("AP", 13), ("PF", 14), ("4K", 15),
    ("5K", 16), ("6K", 17), ("7K", 18), ("8K", 19), ("FI", 20), ("RD", 21), ("CN", 22), ("TP", 23),
    ("9K", 24), ("CO", 25), ("1K", 26), ("3K", 27), ("2K", 28), ("SV2", 29), ("MR", 30)]

/-- `API_MOD_TO_LEGACY.get(acronym, 0)`, after NC got the flag of DT and PF that of SD. -/
def apiModToLegacy (acronym : String) : Nat :=
  let flag := (legacyBits.lookup acronym).elim 0 fun bit => 1 <<< bit
  if acronym = "NC" then flag ||| 1 <<< 6 else if acronym = "PF" then flag ||| 1 <<< 5 else flag

/-- An entry of `LEGACY_MOD_TO_API_MOD`. -/
def legacyMod (acronym : String) : APIMod := { acronym := acronym, settings := some [] }

/-- `list.remove`: nothing when it raises `ValueError`. -/
def remove (l : List APIMod) (mod : APIMod) : Option (List APIMod) :=
  if mod ∈ l then some (l.erase mod) else none

/-- The mods of the bits that are set.  The bits of the loop are those of the table, in order. -/
def flagged (mods : Nat) : List APIMod :=
  (legacyBits.filter fun x => decide (mods &&& (1 <<< x.2) ≠ 0)).map fun x => legacyMod x.1

/-- Take the implied mod from the list if the bit of the other one is set. -/
def dropImplied (mods bit : Nat) (implied : String) (modList : List APIMod) :
    Option (List APIMod) :=
  if mods &&& (1 <<< bit) ≠ 0 then remove modList (legacyMod implied) else some modList

/-- `int_to_mods` -/
def intToMods (mods : Nat) : Option (List APIMod) :=
  (dropImplied mods 14 "SD" (flagged mods)).bind (dropImplied mods 9 "DT")

/-- One turn of the loop of `mods_to_int`. -/
def addFlags (sum : Nat) (mod : APIMod) : Nat :=
  let sum := sum ||| apiModToLegacy mod.acronym
  if mod.acronym = "PF" then sum ||| apiModToLegacy "SD"
  else if mod.acronym = "NC" then sum ||| apiModToLegacy "DT"
  else sum

/-- `mods_to_int` -/
def modsToInt (mods : List APIMod) : Nat := mods.foldl addFlags 0

/-! ## The table -/

theorem legacyBits_range : legacyBits.map Prod.snd = List.range 31 := by decide

theorem legacyBits_acronyms : (legacyBits.map Prod.fst).Nodup := by decide

theorem bit_lt {x : String × Nat} (h : x ∈ legacyBits) : x.2 < 31 :=
  List.mem_range.mp (legacyBits_range ▸ List.mem_map_of_mem h)

theorem acronym_inj {x y : String × Nat} (hx : x ∈ legacyBits) (hy : y ∈ legacyBits)
    (h : x.1 = y.1) : x = y := List.inj_on_of_nodup_map legacyBits_acronyms hx hy h

theorem bit_inj {x y : String × Nat} (hx : x ∈ legacyBits) (hy : y ∈ legacyBits)
    (h : x.2 = y.2) : x = y :=
  List.inj_on_of_nodup_map (legacyBits_range ▸ List.nodup_range) hx hy h

theorem exists_bit {i : Nat} (h : i < 31) : ∃ acronym, (acronym, i) ∈ legacyBits := by
  have hmem : i ∈ legacyBits.map Prod.snd := legacyBits_range ▸ List.mem_range.mpr h
  obtain ⟨x, hx, rfl⟩ := List.mem_map.mp hmem
  exact ⟨x.1, hx⟩

theorem legacyMod_inj {a b : String} (h : legacyMod a = legacyMod b) : a = b :=
  congrArg APIMod.acronym h

theorem flag_ne_zero (m i : Nat) : m &&& (1 <<< i) ≠ 0 ↔ m.testBit i = true := by
  rw [Nat.one_shiftLeft, Nat.and_two_pow]
  cases m.testBit i with
  | false => simp
  | true => simp

/-- The bits that a mod sets. -/
def SetsBit (acronym : String) (i : Nat) : Prop :=
  (acronym, i) ∈ legacyBits ∨ acronym = "NC" ∧ i = 6 ∨ acronym = "PF" ∧ i = 5

theorem testBit_flag (acronym : String) (i : Nat) :
    ((legacyBits.lookup acronym).elim 0 fun bit => 1 <<< bit).testBit i = true ↔
      (acronym, i) ∈ legacyBits := by
  cases h : legacyBits.lookup acronym with
  | none =>
    simp only [Option.elim_none, Nat.zero_testBit, Bool.false_eq_true, false_iff]
    intro hmem
    exact absurd (List.lookup_eq_none_iff.mp h _ hmem) (by simp)
  | some bit =>
    have hmem : (acronym, bit) ∈ legacyBits := by
      obtain ⟨l₁, l₂, hsplit, -⟩ := List.lookup_eq_some_iff.mp h
      rw [hsplit]
      exact List.mem_append_right _ List.mem_cons_self
    rw [Option.elim_some, Nat.one_shiftLeft, Nat.testBit_two_pow, decide_eq_true_iff]
    constructor
    · rintro rfl
      exact hmem
    · exact fun hi => congrArg Prod.snd (acronym_inj hmem hi rfl)

theorem testBit_apiModToLegacy (acronym : String) (i : Nat) :
    (apiModToLegacy acronym).testBit i = true ↔ SetsBit acronym i := by
  unfold apiModToLegacy SetsBit
  dsimp only
  split
  · next hnc =>
    rw [Nat.testBit_or, Bool.or_eq_true, testBit_flag, Nat.one_shiftLeft, Nat.testBit_two_pow,
      decide_eq_true_iff]
    simp [hnc, eq_comm]
  · next hnc =>
    split
    · next hpf =>
      rw [Nat.testBit_or, Bool.or_eq_true, testBit_flag, Nat.one_shiftLeft, Nat.testBit_two_pow,
        decide_eq_true_iff]
      simp [hpf, eq_comm]
    · next hpf =>
      rw [testBit_flag]
      simp [hnc, hpf]

/-- The turn of a mod sets its bits; those of the implied mod are among them. -/
theorem testBit_addFlags (sum : Nat) (mod : APIMod) (i : Nat) :
    (addFlags sum mod).testBit i = true ↔ sum.testBit i = true ∨ SetsBit mod.acronym i := by
  have hor : (sum ||| apiModToLegacy mod.acronym).testBit i = true ↔
      sum.testBit i = true ∨ SetsBit mod.acronym i := by
    rw [Nat.testBit_or, Bool.or_eq_true, testBit_apiModToLegacy]
  have himplied : ∀ {acronym : String} {bit : Nat}, apiModToLegacy acronym = 1 <<< bit →
      (SetsBit mod.acronym bit) →
      (((sum ||| apiModToLegacy mod.acronym) ||| apiModToLegacy acronym).testBit i = true ↔
        sum.testBit i = true ∨ SetsBit mod.acronym i) := by
    intro acronym bit hflag hset
    rw [Nat.testBit_or, Bool.or_eq_true, hor, hflag, Nat.one_shiftLeft, Nat.testBit_two_pow,
      decide_eq_true_iff, or_iff_left_iff_imp]
    rintro rfl
    exact .inr hset
  unfold addFlags
  dsimp only
  split
  · next hpf => exact himplied (show _ = 1 <<< 5 by decide) (.inr (.inr ⟨hpf, rfl⟩))
  · split
    · next hnc => exact himplied (show _ = 1 <<< 6 by decide) (.inr (.inl ⟨hnc, rfl⟩))
    · exact hor

/-- The bits of a list are those that its mods set. -/
theorem testBit_modsToInt (l : List APIMod) (i : Nat) :
    (modsToInt l).testBit i = true ↔ ∃ mod ∈ l, SetsBit mod.acronym i := by
  have hfold : ∀ sum : Nat, (l.foldl addFlags sum).testBit i = true ↔
      sum.testBit i = true ∨ ∃ mod ∈ l, SetsBit mod.acronym i := by
    induction l with
    | nil => simp
    | cons mod rest ih =>
      intro sum
      rw [List.foldl_cons, ih, testBit_addFlags, or_assoc]
      simp
  exact (hfold 0).trans (by simp)

/-! ## From flags to mods -/

/-- The mods of the bits, without SD next to PF and without DT next to NC. -/
def Named (m : Nat) (acronym : String) : Prop :=
  (∃ i, (acronym, i) ∈ legacyBits ∧ m.testBit i = true) ∧
    ¬ (acronym = "SD" ∧ m.testBit 14 = true) ∧ ¬ (acronym = "DT" ∧ m.testBit 9 = true)

/-- The implied bits are set. -/
def Canonical (m : Nat) : Prop :=
  (m.testBit 14 = true → m.testBit 5 = true) ∧ (m.testBit 9 = true → m.testBit 6 = true)

/-- The bits 0 to 30 with the implied ones. -/
def closed (m : Nat) : Nat :=
  m % 2 ^ 31 ||| (if m.testBit 14 then 1 <<< 5 else 0) ||| (if m.testBit 9 then 1 <<< 6 else 0)

theorem mem_flagged {m : Nat} {mod : APIMod} :
    mod ∈ flagged m ↔ ∃ x ∈ legacyBits, m.testBit x.2 = true ∧ legacyMod x.1 = mod := by
  simp only [flagged, List.mem_map, List.mem_filter, decide_eq_true_iff, flag_ne_zero, and_assoc]

theorem nodup_flagged (m : Nat) : (flagged m).Nodup := by
  refine List.Nodup.map_on (fun x hx y hy hmod => ?_)
    ((List.Nodup.of_map _ legacyBits_acronyms).filter _)
  exact acronym_inj (List.mem_of_mem_filter hx) (List.mem_of_mem_filter hy) (legacyMod_inj hmod)

theorem legacyMod_mem_flagged {m : Nat} {x : String × Nat} (hx : x ∈ legacyBits) :
    legacyMod x.1 ∈ flagged m ↔ m.testBit x.2 = true := by
  rw [mem_flagged]
  constructor
  · rintro ⟨y, hy, hbit, hmod⟩
    obtain rfl := acronym_inj hy hx (legacyMod_inj hmod)
    exact hbit
  · exact fun hbit => ⟨x, hx, hbit, rfl⟩

theorem dropImplied_eq_some {m bit : Nat} {implied : String} {l l' : List APIMod} (hl : l.Nodup) :
    dropImplied m bit implied l = some l' →
      (m.testBit bit = true → legacyMod implied ∈ l) ∧ l'.Nodup ∧
      ∀ mod, mod ∈ l' ↔ mod ∈ l ∧ ¬ (mod = legacyMod implied ∧ m.testBit bit = true) := by
  unfold dropImplied remove
  intro h
  split at h
  · next hbit =>
    rw [flag_ne_zero] at hbit
    split at h
    · next hmem =>
      obtain rfl := Option.some.inj h
      refine ⟨fun _ => hmem, hl.erase _, fun mod => ?_⟩
      rw [hl.mem_erase_iff]
      simp only [hbit, and_true]
      exact and_comm
    · cases h
  · next hbit =>
    rw [flag_ne_zero] at hbit
    obtain rfl := Option.some.inj h
    exact ⟨fun h => absurd h hbit, hl, fun mod => by simp [hbit]⟩

theorem dropImplied_isSome {m bit : Nat} {implied : String} {l : List APIMod}
    (h : m.testBit bit = true → legacyMod implied ∈ l) :
    ∃ l', dropImplied m bit implied l = some l' := by
  unfold dropImplied remove
  split
  · next hbit =>
    rw [if_pos (h ((flag_ne_zero m bit).mp hbit))]
    exact ⟨_, rfl⟩
  · exact ⟨l, rfl⟩

theorem mem_flagged_sd {m : Nat} : legacyMod "SD" ∈ flagged m ↔ m.testBit 5 = true :=
  legacyMod_mem_flagged (x := ("SD", 5)) (by decide)

theorem mem_flagged_dt {m : Nat} : legacyMod "DT" ∈ flagged m ↔ m.testBit 6 = true :=
  legacyMod_mem_flagged (x := ("DT", 6)) (by decide)

theorem intToMods_eq_some {m : Nat} {l : List APIMod} (h : intToMods m = some l) :
    Canonical m ∧ l.Nodup ∧
      ∀ mod, mod ∈ l ↔ ∃ acronym, mod = legacyMod acronym ∧ Named m acronym := by
  obtain ⟨l₁, h₁, h₂⟩ := Option.bind_eq_some_iff.mp h
  obtain ⟨hsd, hnodup₁, hmem₁⟩ := dropImplied_eq_some (nodup_flagged m) h₁
  obtain ⟨hdt, hnodup, hmem⟩ := dropImplied_eq_some hnodup₁ h₂
  refine ⟨⟨fun hpf => mem_flagged_sd.mp (hsd hpf), fun hnc => ?_⟩, hnodup, fun mod => ?_⟩
  · exact mem_flagged_dt.mp ((hmem₁ _).mp (hdt hnc)).1
  · rw [hmem, hmem₁, mem_flagged, and_assoc]
    constructor
    · rintro ⟨⟨x, hx, hbit, rfl⟩, hnsd, hndt⟩
      exact ⟨x.1, rfl, ⟨x.2, hx, hbit⟩, fun h => hnsd ⟨congrArg legacyMod h.1, h.2⟩,
        fun h => hndt ⟨congrArg legacyMod h.1, h.2⟩⟩
    · rintro ⟨acronym, rfl, ⟨i, hi, hbit⟩, hnsd, hndt⟩
      exact ⟨⟨(acronym, i), hi, hbit, rfl⟩, fun h => hnsd ⟨legacyMod_inj h.1, h.2⟩,
        fun h => hndt ⟨legacyMod_inj h.1, h.2⟩⟩

theorem intToMods_isSome {m : Nat} (h : Canonical m) : ∃ l, intToMods m = some l := by
  obtain ⟨l₁, h₁⟩ := dropImplied_isSome fun hpf => mem_flagged_sd.mpr (h.1 hpf)
  obtain ⟨-, -, hmem₁⟩ := dropImplied_eq_some (nodup_flagged m) h₁
  have hdt : m.testBit 9 = true → legacyMod "DT" ∈ l₁ := fun hnc =>
    (hmem₁ _).mpr ⟨mem_flagged_dt.mpr (h.2 hnc), fun hsd => absurd hsd.1 (by decide)⟩
  obtain ⟨l, h₂⟩ := dropImplied_isSome hdt
  exact ⟨l, Option.bind_eq_some_iff.mpr ⟨l₁, h₁, h₂⟩⟩

theorem testBit_closed (m i : Nat) : (closed m).testBit i = true ↔
    (i < 31 ∧ m.testBit i = true) ∨ (m.testBit 14 = true ∧ i = 5) ∨ m.testBit 9 = true ∧ i = 6 := by
  have himplied : ∀ bit implied : Nat,
      (if m.testBit bit then 1 <<< implied else 0).testBit i = true ↔
        m.testBit bit = true ∧ i = implied := by
    intro bit implied
    cases m.testBit bit with
    | false => simp
    | true => simp [Nat.one_shiftLeft, Nat.testBit_two_pow, eq_comm]
  rw [closed, Nat.testBit_or, Nat.testBit_or, Bool.or_eq_true, Bool.or_eq_true, himplied, himplied,
    Nat.testBit_mod_two_pow, Bool.and_eq_true, decide_eq_true_iff, or_assoc]

/-- The flags of the mods of `m`, with the implied bits. -/
theorem named_setsBit_iff (m i : Nat) :
    (∃ acronym, Named m acronym ∧ SetsBit acronym i) ↔ (closed m).testBit i = true := by
  have hpf : m.testBit 14 = true → Named m "PF" := fun h =>
    ⟨⟨14, by decide, h⟩, fun h => absurd h.1 (by decide), fun h => absurd h.1 (by decide)⟩
  have hnc : m.testBit 9 = true → Named m "NC" := fun h =>
    ⟨⟨9, by decide, h⟩, fun h => absurd h.1 (by decide), fun h => absurd h.1 (by decide)⟩
  rw [testBit_closed]
  constructor
  · rintro ⟨acronym, ⟨⟨j, hj, hbit⟩, -, -⟩, hset⟩
    rcases hset with hi | ⟨rfl, rfl⟩ | ⟨rfl, rfl⟩
    · have heq : j = i := congrArg Prod.snd (acronym_inj hj hi rfl)
      exact .inl ⟨bit_lt hi, heq ▸ hbit⟩
    · have heq : j = 9 := congrArg Prod.snd (acronym_inj (y := ("NC", 9)) hj (by decide) rfl)
      exact .inr (.inr ⟨heq ▸ hbit, rfl⟩)
    · have heq : j = 14 := congrArg Prod.snd (acronym_inj (y := ("PF", 14)) hj (by decide) rfl)
      exact .inr (.inl ⟨heq ▸ hbit, rfl⟩)
  · rintro (⟨hlt, hbit⟩ | ⟨hbit, rfl⟩ | ⟨hbit, rfl⟩)
    · obtain ⟨acronym, hi⟩ := exists_bit hlt
      by_cases hsd : acronym = "SD" ∧ m.testBit 14 = true
      · have heq : i = 5 := congrArg Prod.snd (acronym_inj (y := ("SD", 5)) hi (by decide) hsd.1)
        exact ⟨"PF", hpf hsd.2, .inr (.inr ⟨rfl, heq⟩)⟩
      · by_cases hdt : acronym = "DT" ∧ m.testBit 9 = true
        · have heq : i = 6 := congrArg Prod.snd (acronym_inj (y := ("DT", 6)) hi (by decide) hdt.1)
          exact ⟨"NC", hnc hdt.2, .inr (.inl ⟨rfl, heq⟩)⟩
        · exact ⟨acronym, ⟨⟨i, hi, hbit⟩, hsd, hdt⟩, .inl hi⟩
    · exact ⟨"PF", hpf hbit, .inr (.inr ⟨rfl, rfl⟩)⟩
    · exact ⟨"NC", hnc hbit, .inr (.inl ⟨rfl, rfl⟩)⟩

/-! ## From mods to flags and back -/

/-- `int_to_mods` returns a list without duplicates, and its flags are those of `m`. -/
def RoundTrips (m : Nat) : Prop :=
  ∃ l, intToMods m = some l ∧ l.Nodup ∧ modsToInt l = closed m

/-- The legacy mods of a list, without SD next to PF and without DT next to NC. -/
def Kept (l : List APIMod) (acronym : String) : Prop :=
  (acronym ∈ l.map (·.acronym) ∧ acronym ∈ legacyBits.map Prod.fst) ∧
    ¬ (acronym = "SD" ∧ "PF" ∈ l.map (·.acronym)) ∧
    ¬ (acronym = "DT" ∧ "NC" ∈ l.map (·.acronym))

theorem testBit_of_mem {l : List APIMod} {x : String × Nat} (hx : x ∈ legacyBits)
    (h : x.1 ∈ l.map (·.acronym)) : (modsToInt l).testBit x.2 = true := by
  obtain ⟨mod, hmod, hacronym⟩ := List.mem_map.mp h
  exact (testBit_modsToInt l x.2).mpr ⟨mod, hmod, .inl (hacronym ▸ hx)⟩

/-- A bit that no mod implies is set by its own mod. -/
theorem testBit_iff_mem {l : List APIMod} {x : String × Nat} (hx : x ∈ legacyBits)
    (h₅ : x.2 ≠ 5) (h₆ : x.2 ≠ 6) :
    (modsToInt l).testBit x.2 = true ↔ x.1 ∈ l.map (·.acronym) := by
  refine ⟨fun h => ?_, testBit_of_mem hx⟩
  obtain ⟨mod, hmod, hset⟩ := (testBit_modsToInt l x.2).mp h
  rcases hset with hbit | ⟨-, h⟩ | ⟨-, h⟩
  · have heq : mod.acronym = x.1 := congrArg Prod.fst (bit_inj hbit hx rfl)
    exact heq ▸ List.mem_map_of_mem hmod
  · exact absurd h h₆
  · exact absurd h h₅

theorem testBit_pf (l : List APIMod) :
    (modsToInt l).testBit 14 = true ↔ "PF" ∈ l.map (·.acronym) :=
  testBit_iff_mem (x := ("PF", 14)) (by decide) (by decide) (by decide)

theorem testBit_nc (l : List APIMod) :
    (modsToInt l).testBit 9 = true ↔ "NC" ∈ l.map (·.acronym) :=
  testBit_iff_mem (x := ("NC", 9)) (by decide) (by decide) (by decide)

/-- `mods_to_int` sets the implied bits. -/
theorem canonical_modsToInt (l : List APIMod) : Canonical (modsToInt l) := by
  constructor
  · intro h
    obtain ⟨mod, hmod, hacronym⟩ := List.mem_map.mp ((testBit_pf l).mp h)
    exact (testBit_modsToInt l 5).mpr ⟨mod, hmod, .inr (.inr ⟨hacronym, rfl⟩)⟩
  · intro h
    obtain ⟨mod, hmod, hacronym⟩ := List.mem_map.mp ((testBit_nc l).mp h)
    exact (testBit_modsToInt l 6).mpr ⟨mod, hmod, .inr (.inl ⟨hacronym, rfl⟩)⟩

theorem named_modsToInt (l : List APIMod) (acronym : String) :
    Named (modsToInt l) acronym ↔ Kept l acronym := by
  rw [Named, Kept, testBit_pf, testBit_nc]
  refine and_congr_left fun ⟨hsd, hdt⟩ => ?_
  constructor
  · rintro ⟨i, hi, hbit⟩
    refine ⟨?_, List.mem_map_of_mem (f := Prod.fst) hi⟩
    obtain ⟨mod, hmod, hset⟩ := (testBit_modsToInt l i).mp hbit
    rcases hset with hset | ⟨hacronym, rfl⟩ | ⟨hacronym, rfl⟩
    · have heq : mod.acronym = acronym := congrArg Prod.fst (bit_inj hset hi rfl)
      exact heq ▸ List.mem_map_of_mem hmod
    · have heq : acronym = "DT" := congrArg Prod.fst (bit_inj (y := ("DT", 6)) hi (by decide) rfl)
      exact absurd ⟨heq, hacronym ▸ List.mem_map_of_mem hmod⟩ hdt
    · have heq : acronym = "SD" := congrArg Prod.fst (bit_inj (y := ("SD", 5)) hi (by decide) rfl)
      exact absurd ⟨heq, hacronym ▸ List.mem_map_of_mem hmod⟩ hsd
  · rintro ⟨hmem, htable⟩
    obtain ⟨x, hx, rfl⟩ := List.mem_map.mp htable
    exact ⟨x.2, hx, testBit_of_mem hx hmem⟩

/-- Flags survive the round trip exactly if the implied bits are set, and mods always. -/
theorem legacy_round_trip (m : Nat) (l : List APIMod) :
    (RoundTrips m ↔ Canonical m) ∧
    ∃ l', intToMods (modsToInt l) = some l' ∧ l'.Nodup ∧
      ∀ mod, mod ∈ l' ↔ ∃ acronym, mod = legacyMod acronym ∧ Kept l acronym := by
  refine ⟨⟨fun ⟨l, hl, _⟩ => (intToMods_eq_some hl).1, fun h => ?_⟩, ?_⟩
  · obtain ⟨l, hl⟩ := intToMods_isSome h
    obtain ⟨-, hnodup, hmem⟩ := intToMods_eq_some hl
    refine ⟨l, hl, hnodup, Nat.eq_of_testBit_eq fun i => Bool.eq_iff_iff.mpr ?_⟩
    rw [testBit_modsToInt, ← named_setsBit_iff]
    constructor
    · rintro ⟨mod, hmod, hset⟩
      obtain ⟨acronym, rfl, hnamed⟩ := (hmem mod).mp hmod
      exact ⟨acronym, hnamed, hset⟩
    · rintro ⟨acronym, hnamed, hset⟩
      exact ⟨legacyMod acronym, (hmem _).mpr ⟨acronym, rfl, hnamed⟩, hset⟩
  · obtain ⟨l', hl'⟩ := intToMods_isSome (canonical_modsToInt l)
    obtain ⟨-, hnodup, hmem⟩ := intToMods_eq_some hl'
    exact ⟨l', hl', hnodup, fun mod => by simp only [hmem, named_modsToInt]⟩

/-- Perfect without Sudden Death: `list.remove` fails. -/
theorem perfect_alone_fails : intToMods (1 <<< 14) = none ∧ ¬ RoundTrips (1 <<< 14) := by
  have hnone : intToMods (1 <<< 14) = none := by decide +kernel
  refine ⟨hnone, fun ⟨l, hl, _⟩ => ?_⟩
  rw [hnone] at hl
  cases hl

end Soms.Mods

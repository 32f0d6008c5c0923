import Soms.Mods.Combination

/-!
# Mod configurations

A mod configuration as a player means it, against the key that `replay_mod_combination_key` makes
of it.
-/

namespace Soms.Mods

open Soms.Replays
open Soms.Scores (GameMode)

/-! ## The table -/

/-- Every mod of the table names its settings once, and one has a letter of its acronym in lower
case. -/
theorem table_checked : ∀ rulesetId ∈ [0, 1, 2, 3, 10, 11, 12, 13, 14],
    ∀ mod ∈ rulesetMods rulesetId, (mod.settings.map (·.name)).Nodup ∧
      (mod.acronym.toUpper = mod.acronym ∨ rulesetId = 10 ∧ mod.acronym = "Ex") := by
  decide +kernel

theorem toBaseRuleset_mem (mode : GameMode) :
    (toBaseRuleset mode).toInt ∈ [0, 1, 2, 3, 10, 11, 12, 13, 14] := by
  cases mode <;> decide

theorem nodup_settings (mode : GameMode) :
    ∀ mod ∈ rulesetMods (toBaseRuleset mode).toInt, (mod.settings.map (·.name)).Nodup :=
  fun mod hmod => (table_checked _ (toBaseRuleset_mem mode) mod hmod).1

theorem toUpper_acronym {mode : GameMode} (h : mode ≠ .sentakki) :
    ∀ mod ∈ rulesetMods (toBaseRuleset mode).toInt, mod.acronym.toUpper = mod.acronym := by
  intro mod hmod
  cases (table_checked _ (toBaseRuleset_mem mode) mod hmod).2 with
  | inl hupper => exact hupper
  | inr hex =>
    refine absurd hex.1 ?_
    cases mode <;> first | exact absurd rfl h | decide

/-- One acronym of `mods.json` has a letter in lower case. -/
theorem toUpper_acronym_sentakki :
    ∀ mod ∈ rulesetMods 10, mod.acronym = "Ex" ∨ mod.acronym.toUpper = mod.acronym := by
  intro mod hmod
  cases (table_checked 10 (by decide) mod hmod).2 with
  | inl hupper => exact .inr hupper
  | inr hex => exact .inl hex.2

theorem toUpper_ne_x (c : Char) : c.toUpper ≠ 'x' := by
  intro h
  have hv := congrArg Char.val h
  unfold Char.toUpper at hv
  split at hv
  · next hc =>
    have hsum : (c.val + ('A'.val - 'a'.val)).toNat = 120 := congrArg UInt32.toNat hv
    have hlow : 97 ≤ c.val.toNat := hc.1
    have hhigh : c.val.toNat ≤ 122 := hc.2
    rw [UInt32.toNat_add, show ('A'.val - 'a'.val).toNat = 4294967264 from rfl] at hsum
    omega
  · next hc =>
    rw [hv] at hc
    exact hc (by decide)

theorem toUpper_ne_ex (acronym : String) : acronym.toUpper ≠ "Ex" := by
  intro h
  have hlist : acronym.toUpper.toList = ['E', 'x'] := congrArg String.toList h
  rw [String.toUpper, String.toList_map] at hlist
  have hx : 'x' ∈ acronym.toList.map Char.toUpper := by rw [hlist]; simp
  obtain ⟨c, -, hc⟩ := List.mem_map.mp hx
  exact toUpper_ne_x c hc

/-! ## Configurations -/

/-- The settings of a mod, whatever the case of its acronym. -/
def definedSettings (rulesetId : Nat) (acronym : String) : List SettingDefinition :=
  ((rulesetMods rulesetId).reverse.find? fun mod =>
    mod.acronym.toUpper = acronym.toUpper).elim [] (·.settings)

/-- What a setting is when all defined ones are filled in and numbers are read as such. -/
def settingOf (definitions : List SettingDefinition) (supplied : List (String × Value))
    (name : String) : Option Value :=
  match definitions.find? fun item => item.name = name with
  | some item =>
    some (normaliseSettingValue ((supplied.lookup name).getD item.defaultValue) item.type)
  | none => supplied.lookup name

/-- The acronym of a mod in upper case with its settings. -/
def configuration (rulesetId : Nat) (mod : APIMod) : String × (String → Option Value) :=
  (mod.acronym.toUpper,
    settingOf (definedSettings rulesetId mod.acronym) (mod.settings.getD []))

/-- The mod configuration of a list of mods. -/
def configurations (gamemode : GameMode) (mods : List APIMod) :
    Multiset (String × (String → Option Value)) :=
  mods.map (configuration (toBaseRuleset gamemode).toInt)

/-- The settings of a mod are a dictionary. -/
def Dict (mod : APIMod) : Prop := ((mod.settings.getD []).map Prod.fst).Nodup

/-- A mod without the order of its settings. -/
def unordered (mod : APIMod) : String × Multiset (String × Value) :=
  (mod.acronym, ↑(mod.settings.getD []))

/-- The mods without any order. -/
def unorderedMods (mods : List APIMod) : Multiset (String × Multiset (String × Value)) :=
  mods.map unordered

section Settings

variable {definitions definitions' : List SettingDefinition}
  {supplied supplied' : List (String × Value)}

theorem find_name {item : SettingDefinition} (hitem : item ∈ definitions)
    (hnames : (definitions.map (·.name)).Nodup) :
    definitions.find? (fun other => other.name = item.name) = some item := by
  cases hfind : definitions.find? fun other => other.name = item.name with
  | none =>
    have hno := List.find?_eq_none.mp hfind item hitem
    exact absurd (decide_eq_true rfl) hno
  | some other =>
    have hother : other.name = item.name := by simpa using List.find?_some hfind
    exact congrArg some
      (List.inj_on_of_nodup_map hnames (List.mem_of_find?_eq_some hfind) hitem hother)

theorem lookup_map_name (definitions : List SettingDefinition) (value : SettingDefinition → Value)
    (name : String) : (definitions.map fun item => (item.name, value item)).lookup name =
      (definitions.find? fun item => item.name = name).map value := by
  induction definitions with
  | nil => rfl
  | cons item rest ih =>
    rw [List.map_cons, List.lookup_cons, List.find?_cons]
    by_cases h : item.name = name
    · simp [h]
    · simp [h, beq_false_of_ne (Ne.symm h), ih]

theorem lookup_filter_of_mem {α β : Type} [DecidableEq α] (p : α → Bool) (l : List (α × β)) {k : α}
    (hk : p k = true) : (l.filter fun x => p x.1).lookup k = l.lookup k := by
  induction l with
  | nil => rfl
  | cons x rest ih =>
    by_cases hx : p x.1 = true
    · rw [List.filter_cons_of_pos (p := fun x : α × β => p x.1) hx, List.lookup_cons, List.lookup_cons, ih]
    · have hne : k ≠ x.1 := fun h => hx (h ▸ hk)
      rw [List.filter_cons_of_neg (p := fun x : α × β => p x.1) hx, ih, List.lookup_cons, beq_false_of_ne hne]

/-- What the key fills in is what is meant, for the same definitions. -/
theorem lookup_expandSettings (definitions : List SettingDefinition)
    (supplied : List (String × Value)) (name : String) :
    (expandSettings definitions supplied).lookup name = settingOf definitions supplied name := by
  unfold expandSettings settingOf
  rw [List.lookup_append, lookup_map_name]
  cases hfind : definitions.find? fun item => item.name = name with
  | some item =>
    have hname : item.name = name := by simpa using List.find?_some hfind
    simp [hname]
  | none =>
    have hout : name ∉ definitions.map (·.name) := by simpa using hfind
    simpa using lookup_filter_of_mem (fun k => decide (k ∉ definitions.map (·.name))) supplied
      (decide_eq_true hout)

theorem nodup_expandSettings (hnames : (definitions.map (·.name)).Nodup)
    (hdict : (supplied.map Prod.fst).Nodup) :
    ((expandSettings definitions supplied).map Prod.fst).Nodup := by
  unfold expandSettings
  rw [List.map_append, List.map_map, List.nodup_append']
  refine ⟨hnames, hdict.sublist (List.filter_sublist.map _), ?_⟩
  intro name hname hout
  obtain ⟨x, hx, rfl⟩ := List.mem_map.mp hout
  have hnot : x.1 ∉ definitions.map (·.name) := by simpa using (List.mem_filter.mp hx).2
  exact hnot hname

/-- Two texts of settings are the same if the settings are. -/
theorem dumps_expandSettings_iff (hnames : (definitions.map (·.name)).Nodup)
    (hnames' : (definitions'.map (·.name)).Nodup) (hdict : (supplied.map Prod.fst).Nodup)
    (hdict' : (supplied'.map Prod.fst).Nodup) :
    dumpsSettings (expandSettings definitions supplied) =
        dumpsSettings (expandSettings definitions' supplied') ↔
      settingOf definitions supplied = settingOf definitions' supplied' := by
  have hnodup := nodup_expandSettings hnames hdict
  rw [dumpsSettings_eq_iff hnodup,
    Assoc.perm_iff_lookup hnodup (nodup_expandSettings hnames' hdict'), funext_iff]
  simp only [lookup_expandSettings]

/-- A setting written out at its default is a setting left out. -/
theorem settingOf_default (item : SettingDefinition) (hitem : item ∈ definitions)
    (hnames : (definitions.map (·.name)).Nodup) (hout : supplied.lookup item.name = none) :
    settingOf definitions (supplied ++ [(item.name, item.defaultValue)]) =
      settingOf definitions supplied := by
  funext name
  unfold settingOf
  rw [List.lookup_append]
  by_cases hname : name = item.name
  · subst hname
    simp [find_name hitem hnames, hout]
  · simp [List.lookup_cons, beq_false_of_ne hname]

end Settings

/-! ## Keys -/

section Keys

variable {gamemode : GameMode} {mod mod' : APIMod} {mods mods' : List APIMod}

theorem nodup_apiMods (gamemode : GameMode) (acronym : String) :
    (((apiMods (toBaseRuleset gamemode).toInt acronym).getD []).map (·.name)).Nodup := by
  unfold apiMods findMod
  cases hfind : (rulesetMods (toBaseRuleset gamemode).toInt).reverse.find? fun mod =>
      mod.acronym = acronym with
  | none => exact List.nodup_nil
  | some mod =>
    exact nodup_settings gamemode mod (List.mem_reverse.mp (List.mem_of_find?_eq_some hfind))

/-- The key looks the settings of a mod up under the acronym in upper case. -/
theorem definedSettings_eq (h : gamemode = .sentakki → mod.acronym.toUpper ≠ "EX") :
    definedSettings (toBaseRuleset gamemode).toInt mod.acronym =
      (apiMods (toBaseRuleset gamemode).toInt mod.acronym.toUpper).getD [] := by
  have hsame : ∀ other ∈ rulesetMods (toBaseRuleset gamemode).toInt,
      (other.acronym.toUpper = mod.acronym.toUpper ↔ other.acronym = mod.acronym.toUpper) := by
    intro other hother
    by_cases hmode : gamemode = .sentakki
    · subst hmode
      cases toUpper_acronym_sentakki other hother with
      | inl hex =>
        have hupper : "Ex".toUpper = "EX" := by decide +kernel
        rw [hex, hupper]
        exact ⟨fun h' => absurd h'.symm (h rfl), fun h' => absurd h'.symm (toUpper_ne_ex _)⟩
      | inr hupper => rw [hupper]
    · rw [toUpper_acronym hmode other hother]
  have hfind : (rulesetMods (toBaseRuleset gamemode).toInt).reverse.find? (fun other =>
      other.acronym.toUpper = mod.acronym.toUpper) =
      (rulesetMods (toBaseRuleset gamemode).toInt).reverse.find? fun other =>
        other.acronym = mod.acronym.toUpper := by
    rw [← List.head?_filter, ← List.head?_filter]
    exact congrArg List.head? (List.filter_congr fun other hother =>
      decide_eq_decide.mpr (hsame other (List.mem_reverse.mp hother)))
  unfold definedSettings apiMods findMod
  rw [hfind]
  cases (rulesetMods (toBaseRuleset gamemode).toInt).reverse.find? fun other =>
    other.acronym = mod.acronym.toUpper <;> rfl

/-- Normalised mods are the same if their settings are. -/
theorem normaliseMod_eq_iff (hdict : Dict mod) (hdict' : Dict mod') :
    normaliseMod (apiMods (toBaseRuleset gamemode).toInt) mod =
        normaliseMod (apiMods (toBaseRuleset gamemode).toInt) mod' ↔
      mod.acronym.toUpper = mod'.acronym.toUpper ∧
        settingOf ((apiMods (toBaseRuleset gamemode).toInt mod.acronym.toUpper).getD [])
            (mod.settings.getD []) =
          settingOf ((apiMods (toBaseRuleset gamemode).toInt mod'.acronym.toUpper).getD [])
            (mod'.settings.getD []) := by
  rw [normaliseMod, normaliseMod, Prod.mk.injEq]
  exact and_congr_right fun _ =>
    dumps_expandSettings_iff (nodup_apiMods _ _) (nodup_apiMods _ _) hdict hdict'

theorem normaliseMod_iff_configuration (hdict : Dict mod) (hdict' : Dict mod')
    (h : gamemode = .sentakki → mod.acronym.toUpper ≠ "EX")
    (h' : gamemode = .sentakki → mod'.acronym.toUpper ≠ "EX") :
    normaliseMod (apiMods (toBaseRuleset gamemode).toInt) mod =
        normaliseMod (apiMods (toBaseRuleset gamemode).toInt) mod' ↔
      configuration (toBaseRuleset gamemode).toInt mod =
        configuration (toBaseRuleset gamemode).toInt mod' := by
  rw [normaliseMod_eq_iff hdict hdict', configuration, configuration, Prod.mk.injEq,
    definedSettings_eq h, definedSettings_eq h']

/-- Away from the mod with an acronym in lower case the key is the configuration. -/
theorem key_iff_configurations (hdict : ∀ mod ∈ mods ++ mods', Dict mod)
    (h : gamemode = .sentakki → ∀ mod ∈ mods ++ mods', mod.acronym.toUpper ≠ "EX") :
    replayModCombinationKey apiMods gamemode mods = replayModCombinationKey apiMods gamemode mods' ↔
      configurations gamemode mods = configurations gamemode mods' := by
  rw [replayModCombinationKey_eq_iff, configurations, configurations, Multiset.coe_eq_coe]
  have hiff := fun mod (hmod : mod ∈ mods) mod' (hmod' : mod' ∈ mods') =>
    normaliseMod_iff_configuration (hdict mod (List.mem_append_left _ hmod))
      (hdict mod' (List.mem_append_right _ hmod'))
      (fun hmode => h hmode mod (List.mem_append_left _ hmod))
      (fun hmode => h hmode mod' (List.mem_append_right _ hmod'))
  exact ⟨Assoc.perm_map_of_kernel fun a ha b hb => (hiff a ha b hb).mp,
    Assoc.perm_map_of_kernel fun a ha b hb => (hiff a ha b hb).mpr⟩

/-- The order of the mods and that of their settings do not matter. -/
theorem key_of_unordered (hdict : ∀ mod ∈ mods ++ mods', Dict mod)
    (h : unorderedMods mods = unorderedMods mods') :
    replayModCombinationKey apiMods gamemode mods =
      replayModCombinationKey apiMods gamemode mods' := by
  refine replayModCombinationKey_eq_iff.mpr
    (Assoc.perm_map_of_kernel (fun mod hmod mod' hmod' heq => ?_) (Multiset.coe_eq_coe.mp h))
  have hdict₁ := hdict mod (List.mem_append_left _ hmod)
  have hdict₂ := hdict mod' (List.mem_append_right _ hmod')
  have hacronym : mod.acronym = mod'.acronym := congrArg Prod.fst heq
  have hperm : (mod.settings.getD []).Perm (mod'.settings.getD []) :=
    Multiset.coe_eq_coe.mp (congrArg Prod.snd heq)
  have hlookup := (Assoc.perm_iff_lookup hdict₁ hdict₂).mp hperm
  refine (normaliseMod_eq_iff hdict₁ hdict₂).mpr ⟨by rw [hacronym], ?_⟩
  funext name
  rw [hacronym, settingOf, settingOf, hlookup name]

end Keys

/-! ## The mod with an acronym in lower case -/

/-- The mod of Sentakki with an acronym in lower case, its settings left out. -/
def ex : APIMod := { acronym := "Ex" }

/-- The same with one setting at its default. -/
def exWithDefault : APIMod :=
  { acronym := "Ex", settings := some [("enable_slide_fans", .bool false)] }

theorem configurations_ex :
    configurations .sentakki [ex] = configurations .sentakki [exWithDefault] := by
  have hdefault : settingOf (definedSettings 10 "Ex")
      ([] ++ [("enable_slide_fans", .bool false)]) = settingOf (definedSettings 10 "Ex") [] := by
    refine settingOf_default (boolean "enable_slide_fans" false) ?_ ?_ rfl
    · decide +kernel
    · decide +kernel
  have hmods := congrArg (fun settings => [("Ex".toUpper, settings)]) hdefault.symm
  exact congrArg Multiset.ofList hmods

theorem key_ex : replayModCombinationKey apiMods .sentakki [ex] ≠
    replayModCombinationKey apiMods .sentakki [exWithDefault] := by
  decide +kernel

end Soms.Mods

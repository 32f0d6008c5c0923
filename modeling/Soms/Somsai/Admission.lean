import Soms.Somsai.Rounds

/-!
# The admission of scores

`somsai_score_service.py`.  The mods that a score may carry are worked out twice: by `select_map`
for the playlist item, and again from the pool slot when the score arrives.
-/

namespace Soms.Somsai

open Txn

/-! ## Settings -/

/-- The `Settings` of `API_MODS`, with no value for a null default. -/
abbrev ModDefaults := RulesetId → String → List (String × Option SettingValue)

/-- `key in defaults`. -/
def ModDefaults.has (defaults : ModDefaults) (rulesetId : RulesetId) (acronym key : String) :
    Bool :=
  (defaults rulesetId acronym).any fun setting => setting.1 = key

/-- `defaults.get(key)`. -/
def ModDefaults.get (defaults : ModDefaults) (rulesetId : RulesetId) (acronym key : String) :
    Option SettingValue :=
  ((defaults rulesetId acronym).reverse.find? fun setting => setting.1 = key).bind Prod.snd

/-- `settings.get(key)`. -/
def Mod.setting (mod : Mod) (key : String) : Option SettingValue :=
  (mod.settings.find? fun setting => setting.1 = key).map Prod.snd

/-- `isclose(a, b, rel_tol=1e-7, abs_tol=1e-7)`. -/
def isClose (a b : ℚ) : Bool := decide (|a - b| ≤ max (max |a| |b| / 10000000) (1 / 10000000))

/-- `_same_setting`: a truth value is not a number. -/
def sameSetting : Option SettingValue → Option SettingValue → Bool
  | some (.bool a), some (.bool b) => a == b
  | some (.number a), some (.number b) => isClose a b
  | some (.text a), some (.text b) => a == b
  | none, none => true
  | _, _ => false

def SettingValue.isBool : SettingValue → Bool
  | .bool _ => true
  | _ => false

/-- One turn of the loop of `_validate_settings`. -/
def validateSetting (defaults : ModDefaults) (rulesetId : RulesetId) (actual expected : Mod)
    (key : String) : Except Failure Unit :=
  let configured := expected.setting key
  let submitted := actual.setting key
  let value := defaults.get rulesetId actual.acronym key
  -- Pitch is cosmetic and has changed defaults across native client builds.
  if actual.acronym = "DT" ∧ key = "adjust_pitch" ∧ configured = none ∧
      submitted.any SettingValue.isBool = true then .ok ()
  else if configured = none ∧ defaults.has rulesetId actual.acronym key = false then
    .error (reject ("Unknown " ++ actual.acronym ++ " mod setting in the SOMSAI match.") 422)
  else if sameSetting (submitted.or value) (configured.or value) = false then
    .error (reject
      ("The " ++ actual.acronym ++ " mod settings do not match the SOMSAI beatmap.") 422)
  else .ok ()

/-- `_validate_settings`.  The keys are a set in the source; their order decides only which error
is raised. -/
def validateSettings (defaults : ModDefaults) (actual expected : Mod) (rulesetId : RulesetId) :
    Except Failure Unit :=
  ((actual.settings ++ expected.settings).map Prod.fst).forM
    (validateSetting defaults rulesetId actual expected)

/-! ## Submissions -/

/-- The item was issued while a room required NoFail. -/
def PlaylistItem.legacy (item : PlaylistItem) : Bool :=
  item.requiredMods.any fun mod => mod.acronym = "NF"

/-- The entries of `required`. -/
def requiredMods (slot : Slot) (item : PlaylistItem) : List Mod :=
  slot.mods ++ if item.legacy then [{ acronym := "NF" }] else []

/-- The entries of `approved`. -/
def approvedMods (slot : Slot) (item : PlaylistItem) : List Mod :=
  requiredMods slot item ++
    if slot.category = "FM" ∨ slot.category = "TB" then
      [{ acronym := "HD" }, { acronym := "HR" }]
    else []

/-- A dictionary keeps the last entry of a key. -/
def modOf (mods : List Mod) (acronym : String) : Option Mod :=
  mods.reverse.find? fun mod => mod.acronym = acronym

/-- The end of `validate_somsai_score_submission`, with the slot of the item. -/
def admitMods (defaults : ModDefaults) (slot : Slot) (item : PlaylistItem) (mods : List Mod) :
    Except Failure Unit :=
  let actual := mods.map (·.acronym)
  if ¬ actual.Nodup ∨ ¬ (∀ mod ∈ requiredMods slot item, mod.acronym ∈ actual) ∨
      ¬ ∀ acronym ∈ actual, acronym ∈ (approvedMods slot item).map (·.acronym) then
    .error (reject "The score mods do not match the selected SOMSAI slot." 422)
  else
    mods.forM fun mod =>
      match modOf (approvedMods slot item) mod.acronym with
      | none => .error (.other "KeyError")
      | some expected => validateSettings defaults mod expected item.rulesetId

/-- `validate_somsai_score_submission`. -/
def validateSomsaiScoreSubmission (defaults : ModDefaults) (w : World) (roomId : RoomId)
    (item : PlaylistItem) (uid : UserId) (mods : List Mod) (rulesetId : RulesetId) :
    Except Failure Unit :=
  match w.matchRows.find fun m => decide (m.roomId = roomId) with
  | none => .ok ()
  | some (_, m) =>
    if uid ∉ membersOf m then
      .error (reject "You are not participating in this SOMSAI match." 403)
    else if rulesetId ≠ item.rulesetId then
      .error (reject "The score mode does not match the SOMSAI beatmap." 422)
    else
      match m.state.slots.find? fun slot => slot.beatmapId = item.beatmapId with
      | none => .error (reject "The beatmap does not belong to this SOMSAI match pool." 422)
      | some slot => admitMods defaults slot item mods

/-! ## What an item admits -/

/-- The list has no duplicate acronym, every required mod, and only mods that the item requires or
allows. -/
structure PlaylistItem.Admits (item : PlaylistItem) (mods : List Mod) : Prop where
  nodup : (mods.map (·.acronym)).Nodup
  required : ∀ mod ∈ item.requiredMods, mod.acronym ∈ mods.map (·.acronym)
  allowed : ∀ mod ∈ mods, mod.acronym ∈ (item.requiredMods ++ item.allowedMods).map (·.acronym)

/-- Every setting that the mod names has its default value. -/
def Mod.Default (defaults : ModDefaults) (rulesetId : RulesetId) (mod : Mod) : Prop :=
  ∀ setting ∈ mod.settings, defaults.get rulesetId mod.acronym setting.1 = some setting.2

/-- A mod with default settings meets the settings of a mod. -/
def Mod.MetByDefault (defaults : ModDefaults) (rulesetId : RulesetId) (mod : Mod) : Prop :=
  ∀ setting ∈ mod.settings, sameSetting (defaults.get rulesetId mod.acronym setting.1)
    (mod.setting setting.1) = true

section Settings

variable {defaults : ModDefaults} {rulesetId : RulesetId} {actual expected mod : Mod}
  {key acronym : String}

theorem sameSetting_refl (value : Option SettingValue) : sameSetting value value = true := by
  cases value with
  | none => rfl
  | some value =>
    cases value with
    | bool b => exact beq_self_eq_true b
    | number q =>
      refine decide_eq_true ?_
      rw [sub_self, abs_zero]
      exact le_max_of_le_right (by norm_num)
    | text s => exact beq_self_eq_true s

theorem forM_eq_ok {α ε : Type} {l : List α} {f : α → Except ε Unit} :
    l.forM f = .ok () ↔ ∀ a ∈ l, f a = .ok () := by
  induction l with
  | nil => simp [List.forM, pure, Except.pure]
  | cons a rest ih =>
    have hcons : (a :: rest).forM f = f a >>= fun _ => rest.forM f := rfl
    rw [hcons, List.forall_mem_cons, ← ih]
    cases hfirst : f a with
    | error e => simp [bind, Except.bind]
    | ok u => simp [bind, Except.bind]

theorem setting_eq_some {value : SettingValue} (h : mod.setting key = some value) :
    (key, value) ∈ mod.settings := by
  obtain ⟨setting, hfind, rfl⟩ := Option.map_eq_some_iff.mp h
  have hkey : setting.1 = key := by simpa using List.find?_some hfind
  subst hkey
  exact List.mem_of_find?_eq_some hfind

theorem setting_isSome : (mod.setting key).isSome = true ↔ key ∈ mod.settings.map Prod.fst := by
  unfold Mod.setting
  rw [Option.isSome_map, List.find?_isSome]
  simp

theorem has_of_get {value : SettingValue} (h : defaults.get rulesetId acronym key = some value) :
    defaults.has rulesetId acronym key = true := by
  obtain ⟨setting, hfind, -⟩ := Option.bind_eq_some_iff.mp h
  exact List.any_eq_true.mpr ⟨setting, List.mem_reverse.mp (List.mem_of_find?_eq_some hfind),
    by simpa using List.find?_some hfind⟩

/-- With default settings only the settings of the expected mod decide. -/
theorem validateSetting_ok (hdefault : actual.Default defaults rulesetId)
    (hkey : key ∈ (actual.settings ++ expected.settings).map Prod.fst) :
    validateSetting defaults rulesetId actual expected key = .ok () ↔
      ∀ value, expected.setting key = some value →
        sameSetting (defaults.get rulesetId actual.acronym key) (some value) = true := by
  obtain ⟨d, hd⟩ : ∃ d, d = defaults.get rulesetId actual.acronym key := ⟨_, rfl⟩
  have hsubmitted : ∀ value, actual.setting key = some value → d = some value := fun value h =>
    hd.trans (hdefault _ (setting_eq_some h))
  have hvalue : (actual.setting key).or d = d := by
    cases hsetting : actual.setting key with
    | none => rfl
    | some value => rw [hsubmitted value hsetting]; rfl
  unfold validateSetting
  dsimp only
  rw [← hd, hvalue]
  cases hconfigured : expected.setting key with
  | some value =>
    rw [if_neg (by simp), if_neg (by simp), Option.some_or]
    cases hsame : sameSetting d (some value) <;> simp [hsame]
  | none =>
    -- the key was submitted, and has a default
    have hnamed : key ∈ actual.settings.map Prod.fst := by
      rw [List.map_append, List.mem_append] at hkey
      refine hkey.resolve_right fun hexpected => ?_
      rw [← setting_isSome, hconfigured] at hexpected
      simp at hexpected
    obtain ⟨value, hsetting⟩ := Option.isSome_iff_exists.mp (setting_isSome.mpr hnamed)
    have hhas := has_of_get (hd.symm.trans (hsubmitted value hsetting))
    simp [hhas, sameSetting_refl]

/-- With default settings the check passes if the expected settings are the defaults. -/
theorem validateSettings_ok (hdefault : actual.Default defaults rulesetId)
    (hacronym : expected.acronym = actual.acronym) :
    validateSettings defaults actual expected rulesetId = .ok () ↔
      expected.MetByDefault defaults rulesetId := by
  unfold validateSettings Mod.MetByDefault
  rw [forM_eq_ok, hacronym]
  constructor
  · intro h setting hsetting
    have hkey : setting.1 ∈ expected.settings.map Prod.fst := List.mem_map_of_mem hsetting
    obtain ⟨value, hvalue⟩ := Option.isSome_iff_exists.mp (setting_isSome.mpr hkey)
    have hmem : setting.1 ∈ (actual.settings ++ expected.settings).map Prod.fst := by
      rw [List.map_append]
      exact List.mem_append_right _ hkey
    rw [hvalue]
    exact (validateSetting_ok hdefault hmem).mp (h _ hmem) value hvalue
  · intro h key hkey
    refine (validateSetting_ok hdefault hkey).mpr fun value hvalue => ?_
    have hsetting := h _ (setting_eq_some hvalue)
    rwa [hvalue] at hsetting

end Settings

section Submissions

variable {defaults : ModDefaults} {ctx : Ctx} {w t v : World} {k : MatchId} {m m' : Match}
  {slot : Slot} {item : PlaylistItem} {mods : List Mod} {mod : Mod} {uid : UserId}
  {acronym : String}

theorem modOf_acronym (h : modOf mods acronym = some mod) : mod.acronym = acronym := by
  simpa using List.find?_some h

theorem modOf_isSome : (modOf mods acronym).isSome = true ↔ acronym ∈ mods.map (·.acronym) := by
  unfold modOf
  rw [List.find?_isSome]
  simp

/-- Which lists with default settings the slot admits. -/
theorem admitMods_ok (hmods : ∀ mod ∈ mods, mod.Default defaults item.rulesetId) :
    admitMods defaults slot item mods = .ok () ↔
      (mods.map (·.acronym)).Nodup ∧
      (∀ mod ∈ requiredMods slot item, mod.acronym ∈ mods.map (·.acronym)) ∧
      (∀ mod ∈ mods, mod.acronym ∈ (approvedMods slot item).map (·.acronym)) ∧
      ∀ mod ∈ mods, ∀ expected, modOf (approvedMods slot item) mod.acronym = some expected →
        expected.MetByDefault defaults item.rulesetId := by
  unfold admitMods
  dsimp only
  by_cases hlist : ¬ (mods.map (·.acronym)).Nodup ∨
      ¬ (∀ mod ∈ requiredMods slot item, mod.acronym ∈ mods.map (·.acronym)) ∨
      ¬ ∀ acronym ∈ mods.map (·.acronym), acronym ∈ (approvedMods slot item).map (·.acronym)
  · rw [if_pos hlist]
    refine iff_of_false (by simp) ?_
    rintro ⟨hnodup, hrequired, happroved, -⟩
    rcases hlist with hdup | hmissing | hforbidden
    · exact hdup hnodup
    · exact hmissing hrequired
    · exact hforbidden (List.forall_mem_map.mpr happroved)
  · rw [if_neg hlist, forM_eq_ok]
    push Not at hlist
    obtain ⟨hnodup, hrequired, happroved⟩ := hlist
    have happroved := List.forall_mem_map.mp happroved
    constructor
    · refine fun h => ⟨hnodup, hrequired, happroved, fun mod hmod expected hexpected => ?_⟩
      have hsettings := h mod hmod
      rw [hexpected] at hsettings
      exact (validateSettings_ok (hmods mod hmod) (modOf_acronym hexpected)).mp hsettings
    · rintro ⟨-, -, -, h⟩ mod hmod
      obtain ⟨expected, hexpected⟩ := Option.isSome_iff_exists.mp
        (modOf_isSome.mpr (happroved mod hmod))
      rw [hexpected]
      exact (validateSettings_ok (hmods mod hmod) (modOf_acronym hexpected)).mpr
        (h mod hmod expected hexpected)

/-- What `select_map` reads of a slot for its playlist item, apart from the revision. -/
def Slot.chart (slot : Slot) : Nat × String × List Mod := (slot.beatmapId, slot.category, slot.mods)

/-- A pool without a beatmap twice has one slot for an item. -/
theorem find_slot {slots : List Slot} (hslot : slot.chart ∈ slots.map Slot.chart)
    (hdistinct : (slots.map (·.beatmapId)).Nodup) :
    ∃ found, slots.find? (fun s => s.beatmapId = slot.beatmapId) = some found ∧
      found.chart = slot.chart := by
  obtain ⟨other, hother, hchart⟩ := List.mem_map.mp hslot
  have hbeatmap : other.beatmapId = slot.beatmapId := congrArg Prod.fst hchart
  cases hfind : slots.find? fun s => s.beatmapId = slot.beatmapId with
  | none =>
    have := List.find?_eq_none.mp hfind other hother
    simp [hbeatmap] at this
  | some found =>
    have hfound : found.beatmapId = slot.beatmapId := by simpa using List.find?_some hfind
    obtain rfl := List.inj_on_of_nodup_map hdistinct (List.mem_of_find?_eq_some hfind) hother
      (hfound.trans hbeatmap.symm)
    exact ⟨found, rfl, hchart⟩

theorem playlists_finishMatch (ctx : Ctx) (w : World) (k : MatchId) (winner : Option Team)
    (cancelled : Bool) (reason : String) :
    (w.finishMatch ctx k winner cancelled reason).playlists = w.playlists := by
  cases hrow : w.matchRows.row k with
  | none =>
    unfold World.finishMatch
    rw [hrow]
  | some m =>
    cases hlive : m.stage.final with
    | true =>
      unfold World.finishMatch
      simp only [hrow, hlive, if_true]
    | false =>
      obtain ⟨changes, activity, reservations, hframe⟩ :=
        World.finishMatch_frame ctx winner cancelled reason hrow hlive
      rw [hframe]
      rfl

/-- The item that `select_map` creates. -/
theorem selectMap_item {slotId : String} {u : Unit} (h : selectMap ctx k slotId w = (.ok u, t))
    (hcreated : item ∈ t.playlists) (hnew : item ∉ w.playlists) :
    ∃ m slot, w.matchRows.row k = some m ∧ m.state.findSlot slotId = some slot ∧
      item = selectedItem m slot := by
  obtain ⟨m, _, hget, h⟩ := bind_ok.mp h
  obtain ⟨hrow, rfl⟩ := getMatch_ok hget
  obtain ⟨slot, _, hreq, h⟩ := bind_ok.mp h
  obtain ⟨hslot, rfl⟩ := require_ok.mp hreq
  obtain rfl := write_ok.mp h
  refine ⟨m, slot, hrow, hslot, ?_⟩
  unfold World.selectSlot at hcreated
  split at hcreated
  · rw [playlists_finishMatch] at hcreated
    exact absurd hcreated hnew
  · exact List.mem_singleton.mp ((List.mem_append.mp hcreated).resolve_left hnew)

/-- The settings with which the mods of the slot are approved are the defaults. -/
def Slot.MetByDefault (defaults : ModDefaults) (slot : Slot) (item : PlaylistItem) : Prop :=
  ∀ acronym ∈ slot.mods.map (·.acronym), ∀ expected,
    modOf (approvedMods slot item) acronym = some expected →
      expected.MetByDefault defaults item.rulesetId

/-- Mods beside those of the slot are approved with the default settings. -/
theorem metByDefault_of_free {expected : Mod} (hfree : acronym ∉ slot.mods.map (·.acronym))
    (h : modOf (approvedMods slot item) acronym = some expected) :
    expected.MetByDefault defaults item.rulesetId := by
  have hacronym := modOf_acronym h
  have hplain : expected.settings = [] := by
    have hmem : expected ∈ approvedMods slot item :=
      List.mem_reverse.mp (List.mem_of_find?_eq_some h)
    unfold approvedMods requiredMods at hmem
    rcases List.mem_append.mp hmem with hreq | hadded
    · rcases List.mem_append.mp hreq with hslot | hlegacy
      · exact absurd (List.mem_map.mpr ⟨expected, hslot, hacronym⟩) hfree
      · split at hlegacy
        · rw [List.mem_singleton.mp hlegacy]
        · simp at hlegacy
    · split at hadded
      · rcases List.mem_cons.mp hadded with rfl | hlast
        · rfl
        · rw [List.mem_singleton.mp hlast]
      · simp at hadded
  intro setting hsetting
  rw [hplain] at hsetting
  simp at hsetting

section Item

variable (hitem : item.requiredMods = slot.mods)

include hitem

theorem mem_requiredMods : acronym ∈ (requiredMods slot item).map (·.acronym) ↔
    acronym ∈ slot.mods.map (·.acronym) := by
  unfold requiredMods
  rw [List.map_append, List.mem_append]
  refine ⟨fun h => h.elim id fun hlegacy => ?_, .inl⟩
  split at hlegacy
  · next hany =>
    rw [PlaylistItem.legacy, hitem, List.any_eq_true] at hany
    obtain ⟨mod, hmod, hacronym⟩ := hany
    have hname : acronym = "NF" := by simpa using hlegacy
    exact List.mem_map.mpr ⟨mod, hmod, (of_decide_eq_true hacronym).trans hname.symm⟩
  · simp at hlegacy

theorem mem_approvedMods : acronym ∈ (approvedMods slot item).map (·.acronym) ↔
    acronym ∈ slot.mods.map (·.acronym) ∨
      (slot.category = "FM" ∨ slot.category = "TB") ∧ (acronym = "HD" ∨ acronym = "HR") := by
  unfold approvedMods
  rw [List.map_append, List.mem_append, mem_requiredMods hitem]
  by_cases hfree : slot.category = "FM" ∨ slot.category = "TB"
  · simp [hfree]
  · simp [hfree]

/-- The slot admits what the item admits, but for EZ. -/
theorem admitMods_iff (hmods : ∀ mod ∈ mods, mod.Default defaults item.rulesetId)
    (hallowed : item.allowedMods = if slot.category = "FM" ∨ slot.category = "TB" then
      [{ acronym := "EZ" }, { acronym := "HD" }, { acronym := "HR" }] else []) :
    admitMods defaults slot item mods = .ok () ↔ item.Admits mods ∧
      ("EZ" ∈ mods.map (·.acronym) → "EZ" ∈ item.requiredMods.map (·.acronym)) ∧
      slot.MetByDefault defaults item := by
  have hadmitted : ∀ acronym, acronym ∈ (item.requiredMods ++ item.allowedMods).map (·.acronym) ↔
      acronym ∈ slot.mods.map (·.acronym) ∨ (slot.category = "FM" ∨ slot.category = "TB") ∧
        (acronym = "EZ" ∨ acronym = "HD" ∨ acronym = "HR") := fun acronym => by
    rw [hitem, hallowed, List.map_append, List.mem_append]
    by_cases hfree : slot.category = "FM" ∨ slot.category = "TB"
    · simp [hfree]
    · simp [hfree]
  rw [admitMods_ok hmods]
  constructor
  · rintro ⟨hnodup, hrequired, happroved, hmet⟩
    have hneeded : ∀ acronym ∈ slot.mods.map (·.acronym), acronym ∈ mods.map (·.acronym) :=
      fun acronym hacronym => by
        obtain ⟨mod, hmod, rfl⟩ := List.mem_map.mp ((mem_requiredMods hitem).mpr hacronym)
        exact hrequired mod hmod
    refine ⟨⟨hnodup, fun mod hmod => ?_, fun mod hmod => ?_⟩, fun hez => ?_,
      fun acronym hacronym expected hexpected => ?_⟩
    · exact hneeded _ (List.mem_map_of_mem (hitem ▸ hmod))
    · rw [hadmitted]
      exact ((mem_approvedMods hitem).mp (happroved mod hmod)).imp_right
        fun ⟨hfree, hname⟩ => ⟨hfree, .inr hname⟩
    · obtain ⟨mod, hmod, hname⟩ := List.mem_map.mp hez
      have := (mem_approvedMods hitem).mp (happroved mod hmod)
      rw [hname] at this
      rw [hitem]
      exact this.resolve_right fun h => by simp at h
    · obtain ⟨mod, hmod, rfl⟩ := List.mem_map.mp (hneeded acronym hacronym)
      exact hmet mod hmod expected hexpected
  · rintro ⟨hadmits, hez, hmet⟩
    refine ⟨hadmits.nodup, fun mod hmod => ?_, fun mod hmod => ?_, fun mod hmod expected
      hexpected => ?_⟩
    · obtain ⟨needed, hneeded, hname⟩ := List.mem_map.mp
        ((mem_requiredMods hitem).mp (List.mem_map_of_mem hmod))
      exact hname ▸ hadmits.required needed (hitem ▸ hneeded)
    · rw [mem_approvedMods hitem]
      rcases (hadmitted _).mp (hadmits.allowed mod hmod) with hslot | ⟨hfree, hname | hname⟩
      · exact .inl hslot
      · have hmods := hez (List.mem_map.mpr ⟨mod, hmod, hname⟩)
        rw [hitem] at hmods
        exact .inl (hname ▸ hmods)
      · exact .inr ⟨hfree, hname⟩
    · by_cases hslot : mod.acronym ∈ slot.mods.map (·.acronym)
      · exact hmet _ hslot expected hexpected
      · exact metByDefault_of_free hslot hexpected

end Item

theorem admitMods_chart {found : Slot} (h : found.chart = slot.chart) :
    admitMods defaults found item mods = admitMods defaults slot item mods := by
  obtain ⟨-, hrest⟩ := Prod.mk.inj h
  obtain ⟨hcategory, hmods⟩ := Prod.mk.inj hrest
  unfold admitMods approvedMods requiredMods
  rw [hcategory, hmods]

/-- **A playlist item promises more than the check of the submission.**  The two agree on a list
of mods with default settings except where the list has an EZ that the slot does not require, or
the slot requires settings that are not the defaults. -/
theorem submission_admits_iff {slotId : String} {u : Unit}
    (hselect : selectMap ctx k slotId w = (.ok u, t)) (hcreated : item ∈ t.playlists)
    (hnew : item ∉ w.playlists) :
    ∃ m slot, w.matchRows.row k = some m ∧ m.state.findSlot slotId = some slot ∧
      ((m.state.slots.map (·.beatmapId)).Nodup → ∀ defaults v m' uid mods,
        v.matchRows.find (fun row => decide (row.roomId = item.roomId)) = some (k, m') →
        m'.state.slots.map Slot.chart = m.state.slots.map Slot.chart → uid ∈ membersOf m' →
        (∀ mod ∈ mods, mod.Default defaults item.rulesetId) →
        ((validateSomsaiScoreSubmission defaults v item.roomId item uid mods item.rulesetId =
            .ok () ↔ item.Admits mods) ↔
          (item.Admits mods →
            ("EZ" ∈ mods.map (·.acronym) → "EZ" ∈ item.requiredMods.map (·.acronym)) ∧
            slot.MetByDefault defaults item))) := by
  obtain ⟨m, slot, hrow, hslot, hitem⟩ := selectMap_item hselect hcreated hnew
  refine ⟨m, slot, hrow, hslot, fun hdistinct defaults v m' uid mods hfind hpool huid hmods => ?_⟩
  have hstored : slot ∈ m.state.slots := List.mem_of_find?_eq_some hslot
  have hdistinct' : (m'.state.slots.map (·.beatmapId)).Nodup := by
    have hbeatmaps := congrArg (List.map Prod.fst) hpool
    rw [List.map_map, List.map_map] at hbeatmaps
    exact (congrArg List.Nodup hbeatmaps).mpr hdistinct
  obtain ⟨found, hfound, hchart⟩ :=
    find_slot (hpool ▸ List.mem_map_of_mem hstored : slot.chart ∈ m'.state.slots.map Slot.chart)
      hdistinct'
  have hvalidate : validateSomsaiScoreSubmission defaults v item.roomId item uid mods
      item.rulesetId = admitMods defaults slot item mods := by
    have hbeatmap : slot.beatmapId = item.beatmapId := hitem ▸ rfl
    unfold validateSomsaiScoreSubmission
    rw [hfind]
    dsimp only
    rw [if_neg (not_not.mpr huid), if_neg (not_not.mpr rfl), ← hbeatmap, hfound]
    exact admitMods_chart hchart
  rw [hvalidate, admitMods_iff (hitem ▸ rfl) hmods (hitem ▸ rfl)]
  exact ⟨fun h hadmits => (h.mpr hadmits).2,
    fun h => ⟨And.left, fun hadmits => ⟨hadmits, h hadmits⟩⟩⟩

/-! ## A free choice of mods -/

/-- A match of accounts 1 and 2 about to play its free slot. -/
def freeMatch : Match :=
  newMatch (.steady 0) 1
    { teams := ⟨[1], [2]⟩, format := .one, rulesetId := 0, variantId := 0, reservations := [] }
    { bestOf := 13, bansPerTeam := 2, poolRank := .archsom,
      slots := [{ id := "FM1", category := "FM", beatmapId := 5, checksum := "", mods := [] }] }
    3000 1

/-- The store with the match alone. -/
def freeStore : World :=
  { World.fresh (players 2) (.sample .archsom 3000) with matchRows := Table.empty.insert freeMatch }

/-- The store when the slot is selected. -/
def freeSelected : World := (selectMap (.steady 0) 1 "FM1" freeStore).2

/-- The playlist item of the free slot. -/
def freeItem : PlaylistItem :=
  { roomId := 1, id := 1, beatmapId := 5, rulesetId := 0, requiredMods := [],
    allowedMods := [{ acronym := "EZ" }, { acronym := "HD" }, { acronym := "HR" }] }

theorem freeSelected_created : selectMap (.steady 0) 1 "FM1" freeStore = (.ok (), freeSelected) ∧
    freeItem ∈ freeSelected.playlists ∧ freeItem ∉ freeStore.playlists :=
  ⟨ok_of_isOk (by decide +kernel), by decide +kernel, by decide +kernel⟩

theorem submission_refuses_easy :
    selectMap (.steady 0) 1 "FM1" freeStore = (.ok (), freeSelected) ∧
    freeItem ∈ freeSelected.playlists ∧ freeItem.Admits [{ acronym := "EZ" }] ∧
    validateSomsaiScoreSubmission (fun _ _ => []) freeSelected 1 freeItem 1
        [{ acronym := "EZ" }] 0 =
      .error (reject "The score mods do not match the selected SOMSAI slot." 422) :=
  ⟨freeSelected_created.1, freeSelected_created.2.1,
    ⟨by decide, by decide, by decide⟩, by decide +kernel⟩

theorem submission_admits_iff_hidden : ∃ slot : Slot,
    ((validateSomsaiScoreSubmission (fun _ _ => []) freeSelected 1 freeItem 1 [{ acronym := "HD" }]
        0 = .ok () ↔ freeItem.Admits [{ acronym := "HD" }]) ↔
      (freeItem.Admits [{ acronym := "HD" }] →
        ("EZ" ∈ ["HD"] → "EZ" ∈ ([] : List String)) ∧
        slot.MetByDefault (fun _ _ => []) freeItem)) := by
  obtain ⟨hselect, hcreated, hnew⟩ := freeSelected_created
  obtain ⟨m, slot, hrow, hslot, hiff⟩ := submission_admits_iff hselect hcreated hnew
  have hm : freeStore.matchRows.row 1 = some freeMatch := rfl
  obtain rfl := Option.some.inj (hrow.symm.trans hm)
  obtain ⟨m', hm'⟩ : ∃ m', freeSelected.matchRows.find (fun row => decide (row.roomId = 1)) =
      some (1, m') := by
    have hfirst : (freeSelected.matchRows.find fun row => decide (row.roomId = 1)).map Prod.fst =
        some 1 := by decide +kernel
    obtain ⟨⟨_, m'⟩, hfind, rfl⟩ := Option.map_eq_some_iff.mp hfirst
    exact ⟨m', hfind⟩
  have hstate : (freeSelected.matchRows.find fun row => decide (row.roomId = 1)).map (fun x =>
      (x.2.state.slots.map Slot.chart, membersOf x.2)) =
      some (freeMatch.state.slots.map Slot.chart, [1, 2]) := by decide +kernel
  rw [hm'] at hstate
  obtain ⟨hpool, hmembers⟩ := Prod.mk.inj (Option.some.inj hstate)
  refine ⟨slot, hiff (by decide) _ _ m' 1 [{ acronym := "HD" }] hm' hpool ?_ ?_⟩
  · rw [hmembers]
    exact List.mem_cons_self
  · intro mod hmod
    obtain rfl := List.mem_singleton.mp hmod
    intro setting hsetting
    simp at hsetting

end Submissions

end Soms.Somsai

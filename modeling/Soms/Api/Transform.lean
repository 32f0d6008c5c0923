import Mathlib.Data.List.AList
import Mathlib.Data.List.Nodup

/-!
# Responses and their documented types

`DatabaseModel.transform` builds the response for a row, and `generate_typeddict` the type that the
API documents for it.  Both read the include lists of an endpoint, each in its own way.
-/

namespace Soms.Api

abbrev Text := List Char
abbrev Dict (β : Type) := AList fun _ : Text => β

/-- What the annotation or the decorator makes of a field. -/
inductive Kind where
  | plain
  /-- `Exclude[T]` -/
  | excluded
  /-- `OnDemand[T]` -/
  | ondemandDatabase
  /-- `@included` -/
  | calculated
  /-- `@ondemand` -/
  | ondemandCalculated
  deriving DecidableEq, Repr

/-- A subclass of `DatabaseModel` with the values `V` of a row, its calculated fields and the types
`T` of its fields. -/
structure Model (V T : Type) where
  fields : List (Text × Kind)
  nodup : (fields.map Prod.fst).Nodup
  /-- `model_dump` of a field -/
  dump : Text → V
  /-- `call_awaitable_with_context`, with the includes for a nested model. -/
  call : Text → Option (List Text) → V
  /-- `_evaluate_type` of a database field -/
  annotation : Text → T
  /-- `_evaluate_type` of a calculated field, with the includes for a nested model. -/
  nested : Text → List Text → T

namespace Model

variable {V T : Type}

def named (model : Model V T) (p : Kind → Bool) : List Text :=
  (model.fields.filter fun field => p field.2).map Prod.fst

/-- `model_fields` -/
def modelFields (model : Model V T) : List Text :=
  model.named (· ∈ [Kind.plain, .excluded, .ondemandDatabase])

/-- `_CALCULATED_FIELDS` -/
def calculatedFields (model : Model V T) : List Text := model.named (· = .calculated)

/-- `_ONDEMAND_DATABASE_FIELDS` -/
def ondemandDatabaseFields (model : Model V T) : List Text := model.named (· = .ondemandDatabase)

/-- `_ONDEMAND_CALCULATED_FIELDS` -/
def ondemandCalculatedFields (model : Model V T) : List Text :=
  model.named (· = .ondemandCalculated)

/-- `_EXCLUDED_DATABASE_FIELDS` -/
def excludedDatabaseFields (model : Model V T) : List Text := model.named (· = .excluded)

end Model

/-! ### Include lists -/

def dotted (item : Text) : Bool := item.contains '.'

/-- `include.split(".", 1)` -/
def split (item : Text) : Text × Text :=
  (item.takeWhile (· ≠ '.'), (item.dropWhile (· ≠ '.')).tail)

/-- One entry of `sub_include_map`. -/
def addSubInclude (map : Dict (List Text)) (item : Text) : Dict (List Text) :=
  let (parent, subInclude) := split item
  map.insert parent ((map.lookup parent).getD [] ++ [subInclude])

/-! ### The response -/

/-- `for field in names: data[field] = value(field)` -/
def assign {β : Type} (value : Text → β) (data : Dict β) (names : List Text) : Dict β :=
  names.foldl (fun data field => data.insert field (value field)) data

/-- `del data[field]`, which raises if there is none. -/
def delete {β : Type} (data : Dict β) (field : Text) : Option (Dict β) :=
  if field ∈ data then some (data.erase field) else none

/-- The includes that name no field of a nested model. -/
def direct (includes : List Text) : List Text := includes.filter fun item => !dotted item

/-- `transform` up to the deletions. -/
def calculate {V T : Type} (model : Model V T) (includes : List Text) : Dict V :=
  let data := assign model.dump ∅ model.modelFields
  let data := assign (model.call · none) data model.calculatedFields
  let subIncludeMap := (includes.filter dotted).foldl addSubInclude ∅
  let data := subIncludeMap.entries.foldl (fun data entry =>
    if entry.1 ∈ model.ondemandCalculatedFields then
      data.insert entry.1 (model.call entry.1 (some entry.2))
    else data) data
  (direct includes).foldl (fun data item =>
    if item ∈ data then data
    else if item ∈ model.ondemandCalculatedFields then data.insert item (model.call item none)
    else data) data

/-- `transform`, none where it raises. -/
def transform {V T : Type} (model : Model V T) (includes : List Text) : Option (Dict V) := do
  let data ← model.ondemandDatabaseFields.foldlM (fun data field =>
    if field ∈ direct includes then some data else delete data field) (calculate model includes)
  return model.excludedDatabaseFields.foldl (fun data field =>
    if field ∈ data then data.erase field else data) data

/-! ### The documented type -/

/-- `direct_includes` and `sub_include_map` after one more include. -/
def addInclude (parsed : List Text × Dict (List Text)) (item : Text) :
    List Text × Dict (List Text) :=
  if dotted item then
    let parent := (split item).1
    (if parent ∈ parsed.1 then parsed.1 else parsed.1 ++ [parent], addSubInclude parsed.2 item)
  else (parsed.1 ++ [item], parsed.2)

def generateTypeddict {V T : Type} (model : Model V T) (includes : List Text) : Dict T :=
  let (directIncludes, subIncludeMap) := includes.foldl addInclude ([], ∅)
  let subIncludes (field : Text) := (subIncludeMap.lookup field).getD []
  let fields := assign model.annotation ∅ <| model.modelFields.filter fun field =>
    !(field ∈ model.ondemandDatabaseFields && field ∉ directIncludes)
  let fields := assign (fun field => model.nested field (subIncludes field)) fields
    model.calculatedFields
  assign (fun field => model.nested field (subIncludes field)) fields <|
    model.ondemandCalculatedFields.filter (· ∈ directIncludes)

variable {V T β : Type} {model : Model V T} {key : Text} {names includes : List Text}

/-! ### Kinds -/

namespace Model

theorem mem_named {k : Kind} (p : Kind → Bool) (h : (key, k) ∈ model.fields) :
    key ∈ model.named p ↔ p k = true := by
  rw [named, List.mem_map]
  constructor
  · intro ⟨field, hfield, hkey⟩
    obtain ⟨hmem, hp⟩ := List.mem_filter.mp hfield
    rwa [List.inj_on_of_nodup_map model.nodup hmem h hkey] at hp
  · intro hp
    exact ⟨(key, k), List.mem_filter.mpr ⟨h, hp⟩, rfl⟩

theorem exists_kind {p : Kind → Bool} (h : key ∈ model.named p) :
    ∃ k, (key, k) ∈ model.fields := by
  obtain ⟨⟨key, k⟩, hfield, rfl⟩ := List.mem_map.mp h
  exact ⟨k, List.mem_of_mem_filter hfield⟩

theorem nodup_named (p : Kind → Bool) : (model.named p).Nodup :=
  model.nodup.sublist (List.filter_sublist.map Prod.fst)

end Model

/-! ### Keys -/

theorem mem_assign (value : Text → β) (data : Dict β) (names : List Text) :
    key ∈ assign value data names ↔ key ∈ data ∨ key ∈ names := by
  induction names generalizing data with
  | nil => simp [assign]
  | cons name names ih =>
    show key ∈ assign value (data.insert name (value name)) names ↔ _
    rw [ih, AList.mem_insert, List.mem_cons, or_assoc, or_left_comm]

theorem mem_foldl_addSubInclude (items : List Text) (map : Dict (List Text)) :
    key ∈ items.foldl addSubInclude map ↔
      key ∈ map ∨ key ∈ items.map fun item => (split item).1 := by
  induction items generalizing map with
  | nil => simp
  | cons item items ih =>
    rw [List.foldl_cons, ih, addSubInclude, AList.mem_insert, List.map_cons, List.mem_cons,
      or_assoc, or_left_comm]

/-- The parents of the dotted includes. -/
def parents (includes : List Text) : List Text :=
  (includes.filter dotted).map fun item => (split item).1

theorem parents_cons (item : Text) (items : List Text) : parents (item :: items) =
    if dotted item then (split item).1 :: parents items else parents items := by
  unfold parents
  cases hdot : dotted item <;> simp [hdot]

theorem direct_cons (item : Text) (items : List Text) :
    direct (item :: items) = if dotted item then direct items else item :: direct items := by
  unfold direct
  cases hdot : dotted item <;> simp [hdot]

theorem mem_nestedCalls (model : Model V T) (entries : List (Sigma fun _ : Text => List Text))
    (data : Dict V) :
    key ∈ entries.foldl (fun data entry =>
      if entry.1 ∈ model.ondemandCalculatedFields then
        data.insert entry.1 (model.call entry.1 (some entry.2))
      else data) data ↔
      key ∈ data ∨ key ∈ model.ondemandCalculatedFields ∧ key ∈ entries.keys := by
  induction entries generalizing data with
  | nil => simp
  | cons entry entries ih =>
    rw [List.foldl_cons, ih, List.keys_cons, List.mem_cons]
    by_cases hentry : entry.1 ∈ model.ondemandCalculatedFields
    · rw [if_pos hentry, AList.mem_insert]
      by_cases hkey : key = entry.1
      · simp [hkey, hentry]
      · simp [hkey]
    · rw [if_neg hentry]
      by_cases hkey : key = entry.1
      · simp [hkey, hentry]
      · simp [hkey]

theorem mem_plainCalls (model : Model V T) (items : List Text) (data : Dict V) :
    key ∈ items.foldl (fun data item =>
      if item ∈ data then data
      else if item ∈ model.ondemandCalculatedFields then data.insert item (model.call item none)
      else data) data ↔
      key ∈ data ∨ key ∈ model.ondemandCalculatedFields ∧ key ∈ items := by
  induction items generalizing data with
  | nil => simp
  | cons item items ih =>
    rw [List.foldl_cons, ih, List.mem_cons]
    by_cases hitem : item ∈ data
    · rw [if_pos hitem]
      by_cases hkey : key = item
      · simp [hkey, hitem]
      · simp [hkey]
    · rw [if_neg hitem]
      by_cases hcalc : item ∈ model.ondemandCalculatedFields
      · rw [if_pos hcalc, AList.mem_insert]
        by_cases hkey : key = item
        · simp [hkey, hcalc]
        · simp [hkey]
      · rw [if_neg hcalc]
        by_cases hkey : key = item
        · simp [hkey, hcalc]
        · simp [hkey]

/-- The deletions find their fields, and no others go. -/
theorem foldlM_delete (includes : List Text) (hnodup : names.Nodup) {data : Dict V}
    (hdata : ∀ name ∈ names, name ∈ data) :
    ∃ rest, (names.foldlM (fun data field =>
        if field ∈ includes then some data else delete data field) data) = some rest ∧
      ∀ key, key ∈ rest ↔ key ∈ data ∧ ¬ (key ∈ names ∧ key ∉ includes) := by
  induction names generalizing data with
  | nil => exact ⟨data, rfl, by simp⟩
  | cons name names ih =>
    obtain ⟨hnew, hnodup⟩ := List.nodup_cons.mp hnodup
    obtain ⟨hname, hnames⟩ := List.forall_mem_cons.mp hdata
    rw [List.foldlM_cons]
    by_cases hinclude : name ∈ includes
    · rw [if_pos hinclude]
      obtain ⟨rest, hrest, hmem⟩ := ih hnodup hnames
      refine ⟨rest, hrest, fun key => ?_⟩
      rw [hmem, List.mem_cons]
      by_cases hkey : key = name
      · simp [hkey, hinclude]
      · simp [hkey]
    · rw [if_neg hinclude, delete, if_pos hname]
      have hothers : ∀ other ∈ names, other ∈ data.erase name := fun other hother =>
        AList.mem_erase.mpr ⟨fun h => hnew (h ▸ hother), hnames other hother⟩
      obtain ⟨rest, hrest, hmem⟩ := ih hnodup hothers
      refine ⟨rest, hrest, fun key => ?_⟩
      rw [hmem, AList.mem_erase, List.mem_cons]
      by_cases hkey : key = name
      · simp [hkey, hinclude]
      · simp [hkey]

theorem mem_foldl_exclude (names : List Text) (data : Dict V) :
    key ∈ names.foldl (fun data field => if field ∈ data then data.erase field else data) data ↔
      key ∈ data ∧ key ∉ names := by
  induction names generalizing data with
  | nil => simp
  | cons name names ih =>
    rw [List.foldl_cons, ih, List.mem_cons]
    by_cases hname : name ∈ data
    · rw [if_pos hname, AList.mem_erase]
      tauto
    · rw [if_neg hname]
      by_cases hkey : key = name
      · simp [hkey, hname]
      · simp [hkey]

theorem mem_directIncludes (items : List Text) (parsed : List Text × Dict (List Text)) :
    key ∈ (items.foldl addInclude parsed).1 ↔
      key ∈ parsed.1 ∨ key ∈ parents items ∨ key ∈ direct items := by
  induction items generalizing parsed with
  | nil => simp [parents, direct]
  | cons item items ih =>
    rw [List.foldl_cons, ih, addInclude]
    cases hdot : dotted item with
    | true =>
      rw [if_pos rfl, parents_cons, if_pos hdot, direct_cons, if_pos hdot, List.mem_cons]
      dsimp only
      by_cases hparent : (split item).1 ∈ parsed.1
      · rw [if_pos hparent]
        by_cases hkey : key = (split item).1
        · simp [hkey, hparent]
        · simp [hkey]
      · rw [if_neg hparent, List.mem_append, List.mem_singleton]
        tauto
    | false =>
      have hplain : ¬ dotted item = true := Bool.not_eq_true _ ▸ hdot
      rw [if_neg Bool.false_ne_true, parents_cons, if_neg hplain, direct_cons, if_neg hplain,
        List.mem_cons, List.mem_append, List.mem_singleton]
      tauto

/-! ### Both -/

theorem mem_calculate (model : Model V T) (includes : List Text) :
    key ∈ calculate model includes ↔
      key ∈ model.modelFields ∨ key ∈ model.calculatedFields ∨
        key ∈ model.ondemandCalculatedFields ∧
          (key ∈ parents includes ∨ key ∈ direct includes) := by
  have hsub : key ∈ ((includes.filter dotted).foldl addSubInclude ∅).entries.keys ↔
      key ∈ parents includes := by
    rw [← AList.keys, ← AList.mem_keys, mem_foldl_addSubInclude, parents]
    simp
  simp only [calculate]
  rw [mem_plainCalls, mem_nestedCalls, mem_assign, mem_assign, hsub]
  simp only [AList.notMem_empty, false_or]
  rw [and_or_left, or_assoc, or_assoc]

/-- No deletion fails. -/
theorem transform_keys (model : Model V T) (includes : List Text) :
    ∃ data, transform model includes = some data ∧ ∀ key, key ∈ data ↔
      (key ∈ calculate model includes ∧
        ¬ (key ∈ model.ondemandDatabaseFields ∧ key ∉ direct includes)) ∧
      key ∉ model.excludedDatabaseFields := by
  have hdatabase : ∀ name ∈ model.ondemandDatabaseFields, name ∈ calculate model includes := by
    intro name hname
    obtain ⟨k, hk⟩ := Model.exists_kind hname
    have hkind := (Model.mem_named _ hk).mp hname
    rw [mem_calculate]
    refine .inl ((Model.mem_named _ hk).mpr ?_)
    rw [of_decide_eq_true hkind]
    rfl
  obtain ⟨rest, hrest, hmem⟩ := foldlM_delete (direct includes)
    (model.nodup_named (· = .ondemandDatabase)) hdatabase
  refine ⟨_, congrArg (Option.bind · _) hrest, fun key => ?_⟩
  rw [mem_foldl_exclude, hmem]
  rfl

theorem mem_generateTypeddict (model : Model V T) (includes : List Text) :
    key ∈ generateTypeddict model includes ↔
      (key ∈ model.modelFields ∧ ¬ (key ∈ model.ondemandDatabaseFields ∧
          ¬ (key ∈ parents includes ∨ key ∈ direct includes))) ∨
        key ∈ model.calculatedFields ∨
        key ∈ model.ondemandCalculatedFields ∧
          (key ∈ parents includes ∨ key ∈ direct includes) := by
  have hdirect : key ∈ (includes.foldl addInclude ([], ∅)).1 ↔ _ :=
    mem_directIncludes includes ([], ∅)
  simp only [List.not_mem_nil, false_or] at hdirect
  simp only [generateTypeddict]
  rw [mem_assign, mem_assign, mem_assign]
  simp only [AList.notMem_empty, false_or, List.mem_filter, decide_eq_true_eq, Bool.not_eq_true',
    Bool.and_eq_false_iff, decide_eq_false_iff_not, hdirect]
  rw [not_and_or, or_assoc]

/-- A field has one kind. -/
theorem Model.disjoint {p q : Kind → Bool} (hpq : ∀ k, p k = true → q k = false)
    (h : key ∈ model.named p) : key ∉ model.named q := by
  intro hq
  obtain ⟨k, hk⟩ := exists_kind h
  have hkq := (mem_named q hk).mp hq
  rw [hpq k ((mem_named p hk).mp h)] at hkq
  cases hkq

theorem Model.mem_modelFields {p : Kind → Bool}
    (hp : ∀ k, p k = true → k ∈ [Kind.plain, .excluded, .ondemandDatabase])
    (h : key ∈ model.named p) : key ∈ model.modelFields := by
  obtain ⟨k, hk⟩ := exists_kind h
  exact (mem_named _ hk).mpr (decide_eq_true (hp k ((mem_named p hk).mp h)))

/-- The response has the documented fields if and only if no field is excluded and every on-demand
database field that a dotted include names is included by itself, too. -/
theorem keys_agree_iff (model : Model V T) (includes : List Text) :
    (∃ data, transform model includes = some data ∧
        ∀ key, key ∈ data ↔ key ∈ generateTypeddict model includes) ↔
      model.excludedDatabaseFields = [] ∧
        ∀ field ∈ model.ondemandDatabaseFields, field ∈ parents includes →
          field ∈ direct includes := by
  obtain ⟨data, hdata, hmem⟩ := transform_keys model includes
  constructor
  · intro ⟨other, hother, hagree⟩
    obtain rfl : data = other := Option.some.inj (hdata.symm.trans hother)
    refine ⟨List.eq_nil_iff_forall_not_mem.mpr fun field hfield => ?_,
      fun field hfield hparent => ?_⟩
    · have htype : field ∈ generateTypeddict model includes :=
        (mem_generateTypeddict model includes).mpr (.inl
          ⟨Model.mem_modelFields (by simp) hfield,
            fun h => Model.disjoint (by simp) hfield h.1⟩)
      exact ((hmem field).mp ((hagree field).mpr htype)).2 hfield
    · by_contra hdirect
      have htype : field ∈ generateTypeddict model includes :=
        (mem_generateTypeddict model includes).mpr (.inl
          ⟨Model.mem_modelFields (by simp) hfield, fun h => h.2 (.inl hparent)⟩)
      exact ((hmem field).mp ((hagree field).mpr htype)).1.2 ⟨hfield, hdirect⟩
  · intro ⟨hexcluded, hdirect⟩
    refine ⟨data, hdata, fun key => ?_⟩
    rw [hmem, mem_calculate, mem_generateTypeddict, hexcluded]
    by_cases hdatabase : key ∈ model.ondemandDatabaseFields
    · have hcalculated : key ∉ model.calculatedFields := Model.disjoint (by simp) hdatabase
      have hondemand : key ∉ model.ondemandCalculatedFields := Model.disjoint (by simp) hdatabase
      have hincluded : key ∈ parents includes ∨ key ∈ direct includes ↔ key ∈ direct includes :=
        or_iff_right_of_imp (hdirect key hdatabase)
      simp [hdatabase, hcalculated, hondemand, hincluded]
    · simp [hdatabase]

/-- `id` and `db_id` of `Playlist`. -/
def playlist : Model Unit Unit where
  fields := [(['i', 'd'], .plain), (['d', 'b', '_', 'i', 'd'], .excluded)]
  nodup := by decide
  dump := fun _ => ()
  call := fun _ _ => ()
  annotation := fun _ => ()
  nested := fun _ _ => ()

/-- The documented type has `db_id`, the response has not. -/
theorem not_keys_agree_playlist :
    ¬ ∃ data, transform playlist [] = some data ∧
      ∀ key, key ∈ data ↔ key ∈ generateTypeddict playlist [] := by
  intro ⟨data, hdata, hagree⟩
  obtain ⟨other, hother, hmem⟩ := transform_keys playlist []
  obtain rfl : data = other := Option.some.inj (hdata.symm.trans hother)
  have htype : ['d', 'b', '_', 'i', 'd'] ∈ generateTypeddict playlist [] := by decide
  exact ((hmem _).mp ((hagree _).mpr htype)).2 (by decide)

end Soms.Api

import Mathlib

/-!
# The parts of a tournament pool

`somsai_admin.py`: the categories and the slots of a pool, and the checks a slot goes through.
-/

namespace Soms.Pools

abbrev Text := List Char

local instance lawfulBEq_text : LawfulBEq Text := inferInstance

/-- A value that `json.loads` can return. -/
inductive Json where
  | null
  | bool (value : Bool)
  | int (value : Int)
  | float (value : ℚ)
  | str (value : Text)
  | arr (items : List Json)
  | obj (entries : List (String × Json))

/-- How a request ends without an answer. -/
inductive Failure where
  | raised
  | http (status : Nat) (detail : String)
  /-- An answer that lists what is wrong. -/
  | errors (status : Nat) (message : String) (errors : List Text)
  deriving DecidableEq, Repr

theorem Failure.bind_eq_ok {α β : Type} {x : Except Failure α} {f : α → Except Failure β} {b : β}
    (h : x >>= f = .ok b) : ∃ a, x = .ok a ∧ f a = .ok b := by
  cases x with
  | error failure => cases h
  | ok a => exact ⟨a, rfl, h⟩

namespace Json

/-- `dict.get(key, default)` -/
def getD (entries : List (String × Json)) (key : String) (default : Json) : Json :=
  ((entries.find? fun entry => entry.1 == key).map Prod.snd).getD default

/-- `for item in value` -/
def iterate : Json → Except Failure (List Json)
  | arr items => .ok items
  | obj entries => .ok (entries.map fun entry => .str entry.1.toList)
  | str text => .ok (text.map fun c => .str [c])
  | _ => .error .raised

/-- `value.get(key, default)` on a value that need not be a `dict`. -/
def get (value : Json) (key : String) (default : Json) : Except Failure Json :=
  match value with
  | obj entries => .ok (getD entries key default)
  | _ => .error .raised

/-- `bool(value)` -/
def truthy : Json → Bool
  | null => false
  | bool value => value
  | int value => value != 0
  | float value => value != 0
  | str text => !text.isEmpty
  | arr items => !items.isEmpty
  | obj entries => !entries.isEmpty

def isDict : Json → Bool
  | obj _ => true
  | _ => false

/-- `value == text` -/
def eqText (value : Json) (text : Text) : Bool :=
  match value with
  | str value => value == text
  | _ => false

end Json

/-- What the code needs to know of `str`, `str.upper` and the stripping of blanks. -/
structure Strings where
  str : Json → Text
  upper : Text → Text
  isSpace : Char → Bool
  str_str : ∀ text, str (.str text) = text
  alphanum_not_space : ∀ c, c.isAlphanum = true → isSpace c = false

/-- Texts of the plain letters. -/
def plainStrings : Strings where
  str
    | .str text => text
    | _ => []
  upper text := text.map Char.toUpper
  isSpace c := c == ' '
  str_str _ := rfl
  alphanum_not_space c h := by
    rw [beq_eq_false_iff_ne]
    rintro rfl
    exact absurd h (by decide)

/-- `str_strip_whitespace` -/
def Strings.strip (strings : Strings) (text : Text) : Text :=
  (text.dropWhile strings.isSpace).rdropWhile strings.isSpace

inductive Category where
  | nm | hd | hr | dt | fm | tb
  deriving DecidableEq, Repr

namespace Category

def name : Category → Text
  | nm => ['N', 'M']
  | hd => ['H', 'D']
  | hr => ['H', 'R']
  | dt => ['D', 'T']
  | fm => ['F', 'M']
  | tb => ['T', 'B']

def all : List Category := [nm, hd, hr, dt, fm, tb]

/-- The category of a name. -/
def ofName (text : Text) : Option Category := all.find? fun category => category.name == text

theorem name_injective : Function.Injective name := by
  intro a b h
  cases a <;> cases b <;> first | rfl | exact absurd h (by decide)

theorem length_name (category : Category) : category.name.length = 2 := by
  cases category <;> rfl

end Category

/-- The pattern of `SomsaiSlotSpec.id`. -/
def idPattern : Text → Bool
  | ['T', 'B'] => true
  | [a, b, d] => (([a, b] : Text) ∈ (Category.all.erase .tb).map Category.name) &&
      d.isDigit && d != '0'
  | [a, b, d, e] => (([a, b] : Text) ∈ (Category.all.erase .tb).map Category.name) &&
      d.isDigit && d != '0' && e.isDigit
  | _ => false

/-- The pattern of `SomsaiSlotSpec.checksum`. -/
def checksumPattern (text : Text) : Bool :=
  text.length == 32 && text.all fun c => c.isDigit || ('a' ≤ c && c ≤ 'f')

/-- `SomsaiSlotSpec` -/
structure SlotSpec where
  id : Text
  beatmapId : Int
  checksum : Option Text
  sourceUrl : Option Text
  deriving DecidableEq, Repr

namespace SlotSpec

/-- The beatmap id of a slot, a positive `int` and nothing else. -/
def parseBeatmapId : Json → Option Int
  | .int n => if 0 < n then some n else none
  | _ => none

def parseChecksum (strings : Strings) : Json → Option (Option Text)
  | .null => some none
  | .str text =>
    if checksumPattern (strings.strip text) then some (some (strings.strip text)) else none
  | _ => none

/-- `SomsaiSlotSpec(id=…, beatmap_id=…, checksum=…, source_url=…)`, none where it raises. -/
def validate (strings : Strings) (id : Text) (beatmapId checksum : Json)
    (sourceUrl : Option Text) : Option SlotSpec := do
  let id := strings.strip id
  guard (idPattern id)
  let beatmapId ← parseBeatmapId beatmapId
  let checksum ← parseChecksum strings checksum
  let sourceUrl := sourceUrl.map strings.strip
  guard (sourceUrl.all fun url => url.length ≤ 500)
  return { id, beatmapId, checksum, sourceUrl }

end SlotSpec

/-- The label of the `n`th map of a category. -/
def label (category : Category) (n : Nat) : Text :=
  if category = .tb then category.name else category.name ++ Nat.toDigits 10 n

theorem rdropWhile_eq_self {p : Char → Bool} {text : Text} (h : ∀ c ∈ text, p c = false) :
    text.rdropWhile p = text := by
  rw [List.rdropWhile_eq_self_iff]
  intro hne
  simp [h _ (List.getLast_mem hne)]

/-- A label has no blanks. -/
theorem strip_label (strings : Strings) (category : Category) (n : Nat) :
    strings.strip (label category n) = label category n := by
  have halphanum : ∀ c ∈ label category n, c.isAlphanum = true := by
    have hname : ∀ c ∈ category.name, c.isAlphanum = true := by
      apply List.all_eq_true.mp
      cases category <;> decide
    intro c hc
    rw [label] at hc
    split at hc
    · exact hname c hc
    · rw [List.mem_append] at hc
      cases hc with
      | inl hc => exact hname c hc
      | inr hc =>
        have hdigit : c.isDigit = true := Nat.isDigit_of_mem_toDigits (by omega) (by omega) hc
        simp [Char.isAlphanum, hdigit]
  have hspace : ∀ c ∈ label category n, strings.isSpace c = false := fun c hc =>
    strings.alphanum_not_space c (halphanum c hc)
  have hdrop : (label category n).dropWhile strings.isSpace = label category n := by
    cases htext : label category n with
    | nil => rfl
    | cons c cs =>
      rw [List.dropWhile_cons_of_neg]
      simp [hspace c (htext ▸ List.mem_cons_self)]
  rw [Strings.strip, hdrop, rdropWhile_eq_self hspace]

/-- Two maps have one label only if they have one category and, unless it is the tiebreak, one
number. -/
theorem label_eq {a b : Category} {m n : Nat} (h : label a m = label b n) :
    a = b ∧ (a = .tb ∨ m = n) := by
  have htake : ∀ (category : Category) (k : Nat), (label category k).take 2 = category.name := by
    intro category k
    have hlength := category.length_name
    rw [label]
    split
    · rw [← hlength, List.take_length]
    · rw [← hlength, List.take_left]
  have hname : a = b := by
    apply Category.name_injective
    rw [← htake a m, ← htake b n, h]
  subst hname
  refine ⟨rfl, ?_⟩
  by_cases htb : a = .tb
  · exact .inl htb
  · right
    rw [label, label, if_neg htb, if_neg htb] at h
    have hdigits := List.append_cancel_left h
    rw [← Nat.ofDigitChars_ten_toDigits (n := m), hdigits, Nat.ofDigitChars_ten_toDigits]

theorem validate_id {strings : Strings} {category : Category} {n : Nat} {beatmapId checksum : Json}
    {sourceUrl : Option Text} {slot : SlotSpec}
    (h : SlotSpec.validate strings (label category n) beatmapId checksum sourceUrl = some slot) :
    slot.id = label category n := by
  simp only [SlotSpec.validate, Option.bind_eq_bind, Option.bind_eq_some_iff, Option.pure_def,
    Option.some.injEq] at h
  obtain ⟨_, _, _, _, _, _, _, _, rfl⟩ := h
  exact strip_label strings category n

end Soms.Pools

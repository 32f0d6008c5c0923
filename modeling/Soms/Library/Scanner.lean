import Mathlib.Data.List.Basic
import Mathlib.Data.Sum.Basic

/-!
# Scanning a text for a pattern

A pattern is tried at every place of a text from left to right, and the search goes on behind
each match.  The matches are found, or replaced.
-/

namespace Scanner

variable {γ β : Type*}

/-- A pattern tried at the front of a text: what it matches, and the text behind the match. -/
structure Matcher (γ β : Type*) where
  front : List γ → Option (β × List γ)
  suffix : ∀ {c : γ} {cs rest : List γ} {found : β},
    front (c :: cs) = some (found, rest) → rest <:+ cs

namespace Matcher

variable (m : Matcher γ β)

/-- The items outside the matches and the matches, in the order of the text.  The first `skip`
items belong to the match before. -/
def scan : Nat → List γ → List (γ ⊕ β)
  | _, [] => []
  | skip + 1, _ :: cs => scan skip cs
  | 0, c :: cs =>
    match m.front (c :: cs) with
    | some (found, rest) => .inr found :: scan (cs.length - rest.length) cs
    | none => .inl c :: scan 0 cs

def pieces (text : List γ) : List (γ ⊕ β) := m.scan 0 text

/-- The matches of a text. -/
def findAll (text : List γ) : List β := (m.pieces text).filterMap Sum.getRight?

/-- The text with every match replaced. -/
def sub (replacement : β → List γ) (text : List γ) : List γ :=
  (m.pieces text).flatMap (Sum.elim (fun c => [c]) replacement)

theorem scan_append (skipped rest : List γ) :
    m.scan skipped.length (skipped ++ rest) = m.scan 0 rest := by
  induction skipped with
  | nil => rfl
  | cons c cs ih => exact ih

variable {m}

@[simp]
theorem pieces_nil : m.pieces [] = [] := rfl

theorem pieces_some {c : γ} {cs rest : List γ} {found : β}
    (h : m.front (c :: cs) = some (found, rest)) :
    m.pieces (c :: cs) = .inr found :: m.pieces rest := by
  obtain ⟨skipped, rfl⟩ := m.suffix h
  have hskip : (skipped ++ rest).length - rest.length = skipped.length := by simp
  rw [pieces, scan, h]
  simp only [hskip, scan_append]
  rfl

theorem pieces_none {c : γ} {cs : List γ} (h : m.front (c :: cs) = none) :
    m.pieces (c :: cs) = .inl c :: m.pieces cs := by
  rw [pieces, scan, h]
  rfl

/-- A text is read one item at a time where the pattern does not match, and a match at a time
where it does. -/
theorem text_induction (m : Matcher γ β) {motive : List γ → Prop} (nil : motive [])
    (item : ∀ c cs, m.front (c :: cs) = none → motive cs → motive (c :: cs))
    (found : ∀ c cs b rest, m.front (c :: cs) = some (b, rest) → motive rest → motive (c :: cs))
    (text : List γ) : motive text := by
  generalize hlength : text.length = n
  induction n using Nat.strongRecOn generalizing text with
  | ind n ih =>
    cases text with
    | nil => exact nil
    | cons c cs =>
      cases hfront : m.front (c :: cs) with
      | none =>
        refine item c cs hfront (ih cs.length ?_ cs rfl)
        rw [← hlength, List.length_cons]
        omega
      | some match_ =>
        obtain ⟨b, rest⟩ := match_
        refine found c cs b rest hfront (ih rest.length ?_ rest rfl)
        have hle : rest.length ≤ cs.length := (m.suffix hfront).length_le
        rw [← hlength, List.length_cons]
        omega

@[simp]
theorem sub_nil {replacement : β → List γ} : m.sub replacement [] = [] := rfl

theorem sub_some {replacement : β → List γ} {c : γ} {cs rest : List γ} {found : β}
    (h : m.front (c :: cs) = some (found, rest)) :
    m.sub replacement (c :: cs) = replacement found ++ m.sub replacement rest := by
  simp [sub, pieces_some h]

theorem sub_none {replacement : β → List γ} {c : γ} {cs : List γ}
    (h : m.front (c :: cs) = none) :
    m.sub replacement (c :: cs) = c :: m.sub replacement cs := by
  simp [sub, pieces_none h]

@[simp]
theorem findAll_nil : m.findAll [] = [] := rfl

theorem findAll_some {c : γ} {cs rest : List γ} {found : β}
    (h : m.front (c :: cs) = some (found, rest)) :
    m.findAll (c :: cs) = found :: m.findAll rest := by
  simp [findAll, pieces_some h]

theorem findAll_none {c : γ} {cs : List γ} (h : m.front (c :: cs) = none) :
    m.findAll (c :: cs) = m.findAll cs := by
  rw [findAll, pieces_none h, List.filterMap_cons_none (by rfl)]
  rfl

theorem sub_congr {f g : β → List γ} {text : List γ}
    (h : ∀ found ∈ m.findAll text, f found = g found) : m.sub f text = m.sub g text := by
  induction text using m.text_induction with
  | nil => rfl
  | item c cs hnone ih =>
    rw [findAll_none hnone] at h
    rw [sub_none hnone, sub_none hnone, ih h]
  | found c cs first rest hsome ih =>
    rw [findAll_some hsome] at h
    rw [sub_some hsome, sub_some hsome, h first List.mem_cons_self,
      ih fun b hb => h b (List.mem_cons_of_mem _ hb)]

end Matcher

section Word

variable [DecidableEq γ]

/-- The text behind a word at the front. -/
def after (word text : List γ) : Option (List γ) :=
  if word <+: text then some (text.drop word.length) else none

theorem after_eq_some {word text rest : List γ} :
    after word text = some rest ↔ text = word ++ rest := by
  rw [after]
  constructor
  · intro h
    split at h
    · rename_i hfront
      obtain ⟨behind, rfl⟩ := hfront
      rw [List.drop_left, Option.some.injEq] at h
      rw [h]
    · cases h
  · rintro rfl
    rw [if_pos (List.prefix_append word rest), List.drop_left]

theorem after_append (word rest : List γ) : after word (word ++ rest) = some rest :=
  after_eq_some.mpr rfl

theorem after_eq_none {word text : List γ} : after word text = none ↔ ¬ word <+: text := by
  rw [after]
  split <;> simp_all

/-- The pattern of one word, which is `first` and then `others`. -/
def word (first : γ) (others : List γ) : Matcher γ Unit where
  front text := (after (first :: others) text).map fun rest => ((), rest)
  suffix := by
    intro c cs rest found h
    simp only [Option.map_eq_some_iff] at h
    obtain ⟨behind, hbehind, heq⟩ := h
    cases heq
    rw [after_eq_some, List.cons_append, List.cons_eq_cons] at hbehind
    rw [hbehind.2]
    exact List.suffix_append _ _

variable {first : γ} {others : List γ} {replacement : List γ}

theorem sub_word_append (rest : List γ) :
    (word first others).sub (fun _ => replacement) (first :: others ++ rest) =
      replacement ++ (word first others).sub (fun _ => replacement) rest := by
  have hfront : (word first others).front (first :: (others ++ rest)) = some ((), rest) := by
    simp [word, after_eq_some]
  exact Matcher.sub_some hfront

theorem sub_word_of_not_front {c : γ} {cs : List γ} (h : ¬ first :: others <+: c :: cs) :
    (word first others).sub (fun _ => replacement) (c :: cs) =
      c :: (word first others).sub (fun _ => replacement) cs := by
  have hfront : (word first others).front (c :: cs) = none := by
    simp [word, after_eq_none.mpr h]
  exact Matcher.sub_none hfront

theorem sub_word_of_ne {c : γ} {cs : List γ} (h : c ≠ first) :
    (word first others).sub (fun _ => replacement) (c :: cs) =
      c :: (word first others).sub (fun _ => replacement) cs := by
  apply sub_word_of_not_front
  rw [List.cons_prefix_cons]
  exact fun hfront => h hfront.1.symm

theorem sub_word_append_of_not_mem {before : List γ} (h : first ∉ before) (behind : List γ) :
    (word first others).sub (fun _ => replacement) (before ++ behind) =
      before ++ (word first others).sub (fun _ => replacement) behind := by
  induction before with
  | nil => rfl
  | cons c cs ih =>
    rw [List.mem_cons, not_or] at h
    rw [List.cons_append, sub_word_of_ne (Ne.symm h.1), ih h.2]
    rfl

/-- A text is read a word or an item at a time. -/
theorem word_induction (first : γ) (others : List γ) {motive : List γ → Prop} (nil : motive [])
    (item : ∀ c cs, ¬ first :: others <+: c :: cs → motive cs → motive (c :: cs))
    (found : ∀ rest, motive rest → motive (first :: others ++ rest)) (text : List γ) :
    motive text := by
  induction text using (word first others).text_induction with
  | nil => exact nil
  | item c cs hfront ih =>
    refine item c cs (after_eq_none.mp ?_) ih
    simpa [word] using hfront
  | found c cs _ rest hfront ih =>
    simp only [word, Option.map_eq_some_iff] at hfront
    obtain ⟨behind, hbehind, heq⟩ := hfront
    cases heq
    rw [after_eq_some.mp hbehind]
    exact found rest ih

theorem sub_word_of_not_infix {text : List γ} (h : ¬ first :: others <:+: text) :
    (word first others).sub (fun _ => replacement) text = text := by
  induction text with
  | nil => rfl
  | cons c cs ih =>
    rw [List.infix_cons_iff, not_or] at h
    rw [sub_word_of_not_front h.1, ih h.2]

/-- A longer replacement makes a text no shorter. -/
theorem length_le_sub_word (h : (first :: others).length ≤ replacement.length) (text : List γ) :
    text.length ≤ ((word first others).sub (fun _ => replacement) text).length := by
  induction text using word_induction first others with
  | nil => exact Nat.zero_le _
  | item c cs hfront ih =>
    rw [sub_word_of_not_front hfront, List.length_cons, List.length_cons]
    omega
  | found rest ih =>
    rw [sub_word_append, List.length_append, List.length_append]
    omega

theorem sub_word_length_le (h : replacement.length ≤ (first :: others).length) (text : List γ) :
    ((word first others).sub (fun _ => replacement) text).length ≤ text.length := by
  induction text using word_induction first others with
  | nil => exact Nat.zero_le _
  | item c cs hfront ih =>
    rw [sub_word_of_not_front hfront, List.length_cons, List.length_cons]
    omega
  | found rest ih =>
    rw [sub_word_append, List.length_append, List.length_append]
    omega

/-- A text is left as it is only if the word is not in it. -/
theorem sub_word_eq_self_iff (hne : replacement ≠ first :: others) (text : List γ) :
    (word first others).sub (fun _ => replacement) text = text ↔ ¬ first :: others <:+: text := by
  refine ⟨fun h => ?_, sub_word_of_not_infix⟩
  induction text using word_induction first others with
  | nil => simp
  | item c cs hfront ih =>
    rw [sub_word_of_not_front hfront, List.cons_eq_cons] at h
    rw [List.infix_cons_iff, not_or]
    exact ⟨hfront, ih h.2⟩
  | found rest ih =>
    rw [sub_word_append] at h
    have hlength := congrArg List.length h
    rw [List.length_append, List.length_append] at hlength
    -- the replacement is as long as the word, or else the text behind would have to make up for it
    have hsame : replacement.length = (first :: others).length := by
      cases Nat.le_total replacement.length (first :: others).length with
      | inl hle =>
        have hrest := sub_word_length_le hle rest
        omega
      | inr hle =>
        have hrest := length_le_sub_word hle rest
        omega
    exact absurd (List.append_inj_left h hsame) hne

omit [DecidableEq γ] in
/-- A word ends before an item that is not in it. -/
theorem prefix_of_prefix_append_cons {w before behind : List γ} {c : γ} (hc : c ∉ w)
    (h : w <+: before ++ c :: behind) : w <+: before := by
  cases Nat.lt_or_ge before.length w.length with
  | inr hle => exact List.prefix_of_prefix_length_le h (List.prefix_append _ _) hle
  | inl hlt =>
    have hbefore : before ++ [c] <+: before ++ c :: behind := ⟨behind, by simp⟩
    have hfront : before ++ [c] <+: w :=
      List.prefix_of_prefix_length_le hbefore h (by rw [List.length_append]; exact hlt)
    exact absurd (hfront.subset (by simp)) hc

/-- An item that is not in the word parts the text. -/
theorem sub_word_append_cons {c : γ} (hc : c ∉ first :: others) (before behind : List γ) :
    (word first others).sub (fun _ => replacement) (before ++ c :: behind) =
      (word first others).sub (fun _ => replacement) before ++
        c :: (word first others).sub (fun _ => replacement) behind := by
  have hfirst : c ≠ first := fun h => hc (h ▸ List.mem_cons_self)
  induction before using word_induction first others with
  | nil => exact sub_word_of_ne hfirst
  | item d ds hfront ih =>
    have hnot : ¬ first :: others <+: d :: (ds ++ c :: behind) := by
      intro h
      exact hfront (prefix_of_prefix_append_cons hc h)
    rw [List.cons_append, sub_word_of_not_front hnot, sub_word_of_not_front hfront, ih]
    rfl
  | found rest ih =>
    rw [List.append_assoc, sub_word_append, sub_word_append, ih, List.append_assoc]

end Word

end Scanner

import Mathlib.Data.List.DropRight

/-!
# Texts of the BBCode service

What `str` and the patterns of `bbcode_service` need to know about characters, and the parts of
its patterns that more than one of them has.
-/

namespace Soms.Bbcode

abbrev Text := List Char

/-- The tables of Unicode behind `\w`, `str.strip`, `str.lower` and IGNORECASE. -/
structure Unicode where
  isWord : Char → Bool
  isSpace : Char → Bool
  lower : Text → Text
  sameCase : Char → Char → Bool
  sameCase_self : ∀ c, sameCase c c = true
  word_close : isWord ']' = false
  word_equals : isWord '=' = false
  word_slash : isWord '/' = false

/-- The tables on ASCII. -/
def ascii : Unicode where
  isWord c := c.isAlphanum || c == '_'
  isSpace c := c.isWhitespace
  lower := List.map Char.toLower
  sameCase a b := a.toLower == b.toLower
  sameCase_self := by simp
  word_close := by decide
  word_equals := by decide
  word_slash := by decide

namespace Unicode

variable (u : Unicode)

/-- `str.strip` -/
def strip (text : Text) : Text := (text.dropWhile u.isSpace).rdropWhile u.isSpace

/-- The text behind a word of a pattern, whatever the case of its letters. -/
def literal : Text → Text → Option Text
  | [], cs => some cs
  | _ :: _, [] => none
  | p :: ps, c :: cs => if u.sameCase p c then literal ps cs else none

/-- The text before the first place of a word, and the text behind it. -/
def splitFirst (word : Text) : Text → Option (Text × Text)
  | [] => none
  | c :: cs =>
    match u.literal word (c :: cs) with
    | some rest => some ([], rest)
    | none => (splitFirst word cs).map fun split => (c :: split.1, split.2)

/-- `str.split` without a separator. -/
def split : Text → List Text
  | [] => []
  | c :: cs =>
    if u.isSpace c then split cs
    else if cs.head?.all u.isSpace then [c] :: split cs
    else match split cs with
      | [] => [[c]]
      | first :: others => (c :: first) :: others

/-- `^https?://` -/
def httpFront (text : Text) : Option Text :=
  (u.literal "https://".toList text).or (u.literal "http://".toList text)

variable {u}

theorem literal_cons (p c : Char) (ps cs : Text) :
    u.literal (p :: ps) (c :: cs) = if u.sameCase p c then u.literal ps cs else none :=
  rfl

theorem literal_suffix {word text rest : Text} (h : u.literal word text = some rest) :
    rest <:+ text := by
  induction word generalizing text with
  | nil =>
    cases h
    exact List.suffix_refl _
  | cons p ps ih =>
    cases text with
    | nil => cases h
    | cons c cs =>
      rw [literal_cons] at h
      split at h
      · exact (ih h).trans (List.suffix_cons c cs)
      · cases h

theorem literal_append (word text : Text) : u.literal word (word ++ text) = some text := by
  induction word with
  | nil => rfl
  | cons p ps ih => rw [List.cons_append, literal_cons, if_pos (u.sameCase_self p), ih]

/-- What a word of a pattern matches does not depend on the text behind. -/
theorem literal_eq_some {word text rest : Text} :
    u.literal word text = some rest ↔ ∃ found, u.literal word found = some [] ∧
      text = found ++ rest := by
  induction word generalizing text with
  | nil =>
    simp only [literal, Option.some.injEq]
    constructor
    · intro h
      exact ⟨[], rfl, h⟩
    · rintro ⟨found, rfl, h⟩
      exact h
  | cons p ps ih =>
    constructor
    · intro h
      cases text with
      | nil => cases h
      | cons c cs =>
        rw [literal_cons] at h
        split at h
        · rename_i hc
          obtain ⟨found, hfound, rfl⟩ := ih.mp h
          exact ⟨c :: found, by rw [literal_cons, if_pos hc, hfound], rfl⟩
        · cases h
    · rintro ⟨found, hfound, rfl⟩
      cases found with
      | nil => cases hfound
      | cons c cs =>
        rw [literal_cons] at hfound
        split at hfound
        · rename_i hc
          rw [List.cons_append, literal_cons, if_pos hc]
          exact ih.mpr ⟨cs, hfound, rfl⟩
        · cases hfound

theorem literal_eq_none_of_append {word text rest : Text}
    (h : u.literal word (text ++ rest) = none) : u.literal word text = none := by
  cases htext : u.literal word text with
  | none => rfl
  | some behind =>
    obtain ⟨found, hfound, rfl⟩ := literal_eq_some.mp htext
    rw [List.append_assoc, literal_eq_some.mpr ⟨found, hfound, rfl⟩] at h
    cases h

theorem length_of_literal {word found : Text} (h : u.literal word found = some []) :
    found.length = word.length := by
  induction word generalizing found with
  | nil =>
    cases h
    rfl
  | cons p ps ih =>
    cases found with
    | nil => cases h
    | cons c cs =>
      rw [literal_cons] at h
      split at h
      · rw [List.length_cons, List.length_cons, ih h]
      · cases h

theorem literal_append_eq_none {word text : Text} (hlength : word.length ≤ text.length)
    (h : u.literal word text = none) (rest : Text) : u.literal word (text ++ rest) = none := by
  induction word generalizing text with
  | nil => cases h
  | cons p ps ih =>
    cases text with
    | nil => simp at hlength
    | cons c cs =>
      rw [literal_cons] at h
      rw [List.cons_append, literal_cons]
      split at h
      · rename_i hc
        rw [if_pos hc]
        exact ih (by simpa using hlength) h
      · rename_i hc
        rw [if_neg hc]

/-- A text up to the first match of a word, and the match. -/
structure EndsAtFirst (u : Unicode) (word before close : Text) : Prop where
  matches_close : u.literal word close = some []
  first : ∀ i < before.length, u.literal word ((before ++ close).drop i) = none

/-- Where the first match of a word is does not depend on the text behind it. -/
theorem splitFirst_eq_some {word text before rest : Text} (hword : word ≠ []) :
    u.splitFirst word text = some (before, rest) ↔
      ∃ close, u.EndsAtFirst word before close ∧ text = before ++ close ++ rest := by
  constructor
  · intro h
    induction text generalizing before with
    | nil => cases h
    | cons c cs ih =>
      rw [splitFirst] at h
      split at h
      · rename_i hliteral
        cases h
        obtain ⟨close, hclose, htext⟩ := literal_eq_some.mp hliteral
        exact ⟨close, ⟨hclose, fun i hi => absurd hi (Nat.not_lt_zero i)⟩, htext⟩
      · rename_i hliteral
        simp only [Option.map_eq_some_iff] at h
        obtain ⟨split, hsplit, heq⟩ := h
        cases heq
        obtain ⟨close, hends, htext⟩ := ih hsplit
        refine ⟨close, ⟨hends.matches_close, ?_⟩, by rw [htext]; rfl⟩
        intro i hi
        cases i with
        | zero =>
          rw [htext, ← List.cons_append, ← List.cons_append] at hliteral
          exact literal_eq_none_of_append hliteral
        | succ i => exact hends.first i (by simpa using hi)
  · rintro ⟨close, hends, rfl⟩
    have hlength : close.length = word.length := length_of_literal hends.matches_close
    induction before with
    | nil =>
      have hliteral : u.literal word (close ++ rest) = some rest :=
        literal_eq_some.mpr ⟨close, hends.matches_close, rfl⟩
      rw [List.nil_append]
      cases close with
      | nil => exact absurd (List.length_eq_zero_iff.mp hlength.symm) hword
      | cons c cs =>
        rw [List.cons_append] at hliteral ⊢
        rw [splitFirst, hliteral]
    | cons c cs ih =>
      have hnone : u.literal word (c :: cs ++ close ++ rest) = none := by
        refine literal_append_eq_none ?_ (hends.first 0 (by simp)) rest
        simp only [List.drop_zero, List.length_append, List.length_cons]
        omega
      have hrec := ih ⟨hends.matches_close, fun i hi => hends.first (i + 1) (by simpa using hi)⟩
      rw [List.cons_append, List.cons_append] at hnone ⊢
      rw [splitFirst, hnone, hrec]
      rfl

theorem splitFirst_suffix {word text before rest : Text}
    (h : u.splitFirst word text = some (before, rest)) : rest <:+ text := by
  induction text generalizing before with
  | nil => cases h
  | cons c cs ih =>
    rw [splitFirst] at h
    split at h
    · rename_i hliteral
      cases h
      exact literal_suffix hliteral
    · rename_i hliteral
      simp only [Option.map_eq_some_iff] at h
      obtain ⟨split, hsplit, heq⟩ := h
      cases heq
      exact (ih hsplit).trans (List.suffix_cons c cs)

end Unicode

/-- Where `str.splitlines` ends a line. -/
def isLineBreak (c : Char) : Bool :=
  c ∈ ['\n', '\r', '\x0b', '\x0c', '\x1c', '\x1d', '\x1e', '\x85', '\u2028', '\u2029']

/-- `str.splitlines` -/
def splitlines : Text → List Text
  | [] => []
  | '\r' :: '\n' :: cs => [] :: splitlines cs
  | c :: cs =>
    if isLineBreak c then [] :: splitlines cs
    else match splitlines cs with
      | [] => [[c]]
      | first :: others => (c :: first) :: others

/-- `(?:=[^\]]+)?\]`: the text behind the end of a tag. -/
def tagEnd : Text → Option Text
  | ']' :: rest => some rest
  | '=' :: c :: cs =>
    if c = ']' then none
    else match cs.dropWhile (· != ']') with
      | [] => none
      | _ :: rest => some rest
  | _ => none

/-- What `(?:=[^\]]+)?` matches. -/
def IsValue (value : Text) : Prop :=
  value = [] ∨ ∃ chars, value = '=' :: chars ∧ chars ≠ [] ∧ ']' ∉ chars

theorem tagEnd_eq_some {text rest : Text} :
    tagEnd text = some rest ↔ ∃ value, IsValue value ∧ text = value ++ ']' :: rest := by
  constructor
  · intro h
    unfold tagEnd at h
    split at h
    · cases h
      exact ⟨[], .inl rfl, rfl⟩
    · rename_i c cs
      split at h
      · cases h
      · rename_i hc
        split at h
        · cases h
        · rename_i close behind hdrop
          cases h
          have hclose : close = ']' := by
            have hhead := List.head?_dropWhile_not (· != ']') cs
            simpa [hdrop] using hhead
          have hcs : cs.takeWhile (· != ']') ++ ']' :: rest = cs := by
            rw [hclose] at hdrop
            rw [← hdrop, List.takeWhile_append_dropWhile]
          refine ⟨'=' :: c :: cs.takeWhile (· != ']'), .inr ⟨_, rfl, by simp, ?_⟩, ?_⟩
          · intro hmem
            cases List.mem_cons.mp hmem with
            | inl h => exact hc h.symm
            | inr h => simpa using List.mem_takeWhile_imp h
          · rw [List.cons_append, List.cons_append, hcs]
    · cases h
  · rintro ⟨value, rfl | ⟨chars, rfl, hne, hclose⟩, rfl⟩
    · rfl
    · cases chars with
      | nil => exact absurd rfl hne
      | cons c cs =>
        simp only [List.mem_cons, not_or] at hclose
        have hcs : ∀ a ∈ cs, (a != ']') = true := by
          intro a ha
          simpa using fun h : a = ']' => hclose.2 (h ▸ ha)
        have hdrop : (cs ++ ']' :: rest).dropWhile (· != ']') = ']' :: rest := by
          rw [List.dropWhile_append_of_pos hcs]
          rfl
        rw [List.cons_append, List.cons_append, tagEnd, if_neg (Ne.symm hclose.1), hdrop]

theorem tagEnd_suffix {text rest : Text} (h : tagEnd text = some rest) : rest <:+ text := by
  obtain ⟨value, _, rfl⟩ := tagEnd_eq_some.mp h
  exact (List.suffix_cons _ _).trans (List.suffix_append _ _)

end Soms.Bbcode

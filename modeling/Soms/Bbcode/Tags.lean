import Soms.Bbcode.Text
import Soms.Library.Nested
import Soms.Library.Scanner

/-!
# The validation of BBCode

`validate_bbcode` keeps a stack of the open tags.  It finds no fault with the tags of a text
exactly if they are well nested.
-/

namespace Soms.Bbcode

open Nested Scanner

/-- A match of `tag_pattern`, with the name in lower case. -/
structure Tag where
  isClosing : Bool
  tagName : Text
  deriving DecidableEq, Repr

inductive ValidationError where
  | onlyQuotes
  | withoutOpening (tagName : Text)
  | mismatched (tagName expected : Text)
  | unclosed (tagName : Text)
  deriving DecidableEq, Repr

namespace ValidationError

def message : ValidationError → Text
  | onlyQuotes => "Content cannot contain only quotes".toList
  | withoutOpening tagName =>
    "Closing tag '[/".toList ++ tagName ++ "]' without opening tag".toList
  | mismatched tagName expected =>
    "Mismatched closing tag '[/".toList ++ tagName ++ "]', expected '[/".toList ++ expected ++
      "]'".toList
  | unclosed tagName => "Unclosed tag '[".toList ++ tagName ++ "]'".toList

/-- A fault of the nesting or the closing of tags. -/
def OfTags (error : ValidationError) : Prop := error ≠ onlyQuotes

end ValidationError

namespace Unicode

variable (u : Unicode)

/-- `(\w+)(?:=[^\]]+)?\]`: the name of a tag and the text behind the tag.  A shorter name would
end in front of a character of words, with which no end of a tag begins. -/
def tagBody (text : Text) : Option (Text × Text) :=
  match text.takeWhile u.isWord with
  | [] => none
  | c :: cs => (tagEnd (text.dropWhile u.isWord)).map fun rest => (u.lower (c :: cs), rest)

variable {u}

/-- The body of a tag is a word, a value or none, and the closing bracket. -/
theorem tagBody_eq_some {text rest name : Text} :
    u.tagBody text = some (name, rest) ↔ ∃ word value, word ≠ [] ∧ (∀ c ∈ word, u.isWord c) ∧
      IsValue value ∧ name = u.lower word ∧ text = word ++ (value ++ ']' :: rest) := by
  constructor
  · intro h
    rw [tagBody] at h
    split at h
    · cases h
    · rename_i c cs htake
      simp only [Option.map_eq_some_iff] at h
      obtain ⟨behind, hbehind, heq⟩ := h
      cases heq
      obtain ⟨value, hvalue, hdrop⟩ := tagEnd_eq_some.mp hbehind
      refine ⟨c :: cs, value, List.cons_ne_nil c cs, ?_, hvalue, rfl, ?_⟩
      · intro a ha
        exact List.mem_takeWhile_imp (htake ▸ ha)
      · rw [← hdrop, ← htake, List.takeWhile_append_dropWhile]
  · rintro ⟨word, value, hne, hword, hvalue, rfl, rfl⟩
    have hhead : ∀ c ∈ (value ++ ']' :: rest).head?, u.isWord c = false := by
      obtain rfl | ⟨chars, rfl, _, _⟩ := hvalue
      · simpa using u.word_close
      · simpa using u.word_equals
    have hbehind : (value ++ ']' :: rest).takeWhile u.isWord = [] ∧
        (value ++ ']' :: rest).dropWhile u.isWord = value ++ ']' :: rest := by
      cases hrest : value ++ ']' :: rest with
      | nil => exact ⟨rfl, rfl⟩
      | cons c cs =>
        rw [hrest] at hhead
        have hc : u.isWord c = false := hhead c rfl
        constructor
        · rw [List.takeWhile_cons_of_neg (by simp [hc])]
        · rw [List.dropWhile_cons_of_neg (by simp [hc])]
    have hend : tagEnd (value ++ ']' :: rest) = some rest := tagEnd_eq_some.mpr ⟨value, hvalue, rfl⟩
    rw [tagBody, List.takeWhile_append_of_pos hword, List.dropWhile_append_of_pos hword,
      hbehind.1, hbehind.2, List.append_nil, hend]
    cases word with
    | nil => exact absurd rfl hne
    | cons c cs => rfl

variable (u)

/-- `tag_pattern` -/
def tagFront : Text → Option (Tag × Text)
  | '[' :: '/' :: text => (u.tagBody text).map fun found => (⟨true, found.1⟩, found.2)
  | '[' :: text => (u.tagBody text).map fun found => (⟨false, found.1⟩, found.2)
  | _ => none

variable {u}

theorem tagBody_suffix {text rest name : Text} (h : u.tagBody text = some (name, rest)) :
    rest <:+ text := by
  obtain ⟨word, value, _, _, _, _, rfl⟩ := tagBody_eq_some.mp h
  exact ((List.suffix_cons _ _).trans (List.suffix_append _ _)).trans (List.suffix_append _ _)

/-- A tag is a bracket, a slash if it closes, and a body.  The slash is no character of words, so
that the tag cannot be read without it. -/
theorem tagFront_eq_some {text rest : Text} {tag : Tag} :
    u.tagFront text = some (tag, rest) ↔ ∃ body, u.tagBody body = some (tag.tagName, rest) ∧
      text = '[' :: ((if tag.isClosing then ['/'] else []) ++ body) := by
  obtain ⟨isClosing, tagName⟩ := tag
  constructor
  · intro h
    unfold tagFront at h
    split at h
    · rename_i body
      simp only [Option.map_eq_some_iff] at h
      obtain ⟨found, hfound, heq⟩ := h
      cases heq
      exact ⟨body, hfound, rfl⟩
    · rename_i body _
      simp only [Option.map_eq_some_iff] at h
      obtain ⟨found, hfound, heq⟩ := h
      cases heq
      exact ⟨body, hfound, rfl⟩
    · cases h
  · rintro ⟨body, hbody, rfl⟩
    cases isClosing with
    | true => simp [tagFront, hbody]
    | false =>
      have hslash : ∀ behind, body ≠ '/' :: behind := by
        intro behind h
        obtain ⟨word, value, hne, hword, _, _, htext⟩ := tagBody_eq_some.mp hbody
        cases word with
        | nil => exact hne rfl
        | cons c cs =>
          rw [h, List.cons_append] at htext
          cases htext
          simpa [u.word_slash] using hword '/' List.mem_cons_self
      rw [if_neg Bool.false_ne_true, List.nil_append]
      unfold tagFront
      split
      · rename_i behind heq
        cases heq
        exact absurd rfl (hslash behind)
      · rename_i behind _ heq
        cases heq
        simp [hbody]
      · rename_i hnot
        exact absurd rfl (hnot body)

variable (u)

def tagPattern : Matcher Char Tag where
  front := u.tagFront
  suffix := by
    intro c cs rest found h
    obtain ⟨body, hbody, heq⟩ := tagFront_eq_some.mp h
    have hbehind : rest <:+ body := tagBody_suffix hbody
    rw [List.cons_eq_cons] at heq
    rw [heq.2]
    exact hbehind.trans (List.suffix_append _ _)

/-- The recognised tags of a text in their order. -/
def tags (text : Text) : List Tag := u.tagPattern.findAll text

/-- `\[quote(?:=[^\]]+)?\].*?\[/quote\]` -/
def quoteFront (text : Text) : Option (Unit × Text) := do
  let name ← u.literal "[quote".toList text
  let content ← tagEnd name
  let split ← u.splitFirst "[/quote]".toList content
  return ((), split.2)

def quotePattern : Matcher Char Unit where
  front := u.quoteFront
  suffix := by
    intro c cs rest found h
    simp only [quoteFront, Option.bind_eq_bind, Option.bind_eq_some_iff, Option.pure_def,
      Option.some.injEq, Prod.mk.injEq, true_and] at h
    obtain ⟨name, hname, content, hcontent, split, hsplit, rfl⟩ := h
    have hbehind : content <:+ name := tagEnd_suffix hcontent
    have hcs : name <:+ cs := by
      rw [show "[quote".toList = '[' :: "quote".toList from rfl, literal] at hname
      split at hname
      · exact literal_suffix hname
      · cases hname
    exact ((splitFirst_suffix hsplit).trans hbehind).trans hcs

/-- `_remove_block_quotes` -/
def removeBlockQuotes (text : Text) : Text :=
  u.strip (u.quotePattern.sub (fun _ => []) text)

end Unicode

/-- The loop of `validate_bbcode` over the tags, and the tags still open behind it.  The last
open tag is the first of `tagStack`. -/
def checkTags : List Text → List Tag → List ValidationError
  | tagStack, [] => tagStack.reverse.map .unclosed
  | tagStack, ⟨true, tagName⟩ :: rest =>
    match tagStack with
    | [] => .withoutOpening tagName :: checkTags [] rest
    | top :: below =>
      if top ≠ tagName then .mismatched tagName top :: checkTags (top :: below) rest
      else checkTags below rest
  | tagStack, ⟨false, tagName⟩ :: rest =>
    -- Self-closing tags
    if tagName ≠ ['*'] then checkTags (tagName :: tagStack) rest else checkTags tagStack rest

def Unicode.validateBbcode (u : Unicode) (content : Text) : List ValidationError :=
  let contentWithoutQuotes := u.removeBlockQuotes content
  (if u.strip content ≠ [] ∧ u.strip contentWithoutQuotes = [] then [.onlyQuotes] else []) ++
    checkTags [] (u.tags content)

/-- The bracket a tag is.  A list item is none. -/
def Tag.bracket : Tag → Option (Bracket Text)
  | ⟨true, tagName⟩ => some (.closing tagName)
  | ⟨false, tagName⟩ => if tagName ≠ ['*'] then some (.opening tagName) else none

theorem checkTags_eq_nil (tagStack : List Text) (found : List Tag) :
    checkTags tagStack found = [] ↔ Closes tagStack (found.filterMap Tag.bracket) := by
  induction found generalizing tagStack with
  | nil => simp [checkTags]
  | cons tag rest ih =>
    obtain ⟨isClosing, tagName⟩ := tag
    cases isClosing with
    | true =>
      have hbracket : Tag.bracket ⟨true, tagName⟩ = some (.closing tagName) := rfl
      rw [List.filterMap_cons_some hbracket]
      cases tagStack with
      | nil => simp [checkTags]
      | cons top below =>
        rw [checkTags, closes_closing]
        by_cases htop : top = tagName
        · rw [if_neg (by simp [htop]), ih]
          simp [htop]
        · rw [if_pos htop]
          simp [Ne.symm htop]
    | false =>
      rw [checkTags]
      by_cases hstar : tagName = ['*']
      · have hbracket : Tag.bracket ⟨false, tagName⟩ = none := by simp [Tag.bracket, hstar]
        rw [if_neg (by simp [hstar]), List.filterMap_cons_none hbracket, ih]
      · have hbracket : Tag.bracket ⟨false, tagName⟩ = some (.opening tagName) := by
          simp [Tag.bracket, hstar]
        rw [if_pos hstar, List.filterMap_cons_some hbracket, closes_opening, ih]

theorem checkTags_ofTags {tagStack : List Text} {found : List Tag} {error : ValidationError}
    (h : error ∈ checkTags tagStack found) : error.OfTags := by
  induction found generalizing tagStack with
  | nil =>
    simp only [checkTags, List.mem_map] at h
    obtain ⟨tagName, _, rfl⟩ := h
    exact nofun
  | cons tag rest ih =>
    obtain ⟨isClosing, tagName⟩ := tag
    cases isClosing with
    | true =>
      cases tagStack with
      | nil =>
        rw [checkTags, List.mem_cons] at h
        cases h with
        | inl h => subst h; exact nofun
        | inr h => exact ih h
      | cons top below =>
        rw [checkTags] at h
        split at h
        · rw [List.mem_cons] at h
          cases h with
          | inl h => subst h; exact nofun
          | inr h => exact ih h
        · exact ih h
    | false =>
      rw [checkTags] at h
      split at h
      · exact ih h
      · exact ih h

/-- Validation finds no fault of nesting or closing exactly if the recognised tags, list items
apart, are well nested. -/
theorem validateBbcode_wellNested (u : Unicode) (content : Text) :
    (∀ error ∈ u.validateBbcode content, ¬ error.OfTags) ↔
      WellNested ((u.tags content).filterMap Tag.bracket) := by
  have hstack : checkTags [] (u.tags content) = [] ↔
      WellNested ((u.tags content).filterMap Tag.bracket) := by
    rw [checkTags_eq_nil, closes_nil_left]
  rw [← hstack]
  constructor
  · intro h
    apply List.eq_nil_iff_forall_not_mem.mpr
    intro error herror
    exact h error (List.mem_append_right _ herror) (checkTags_ofTags herror)
  · intro h error herror
    rw [Unicode.validateBbcode, h, List.append_nil] at herror
    split at herror
    · rw [List.mem_singleton] at herror
      simp [herror, ValidationError.OfTags]
    · cases herror

end Soms.Bbcode

import Soms.Bbcode.Html
import Soms.Library.Scanner

/-!
# Image maps

`_parse_imagemap` replaces the blocks of a document.  A block it cannot read is replaced by the
whole document, so that what stands for a block depends on its content alone exactly in the
documents whose blocks can all be read.
-/

namespace Soms.Bbcode

open Scanner

namespace Unicode

variable (u : Unicode) (unescape : Text → Text)

/-- `redirect_pattern`, matched against a word of a line. -/
def isRedirect (redirect : Text) : Bool :=
  redirect == ['#'] ||
    ((u.httpFront redirect).or (u.literal "mailto:".toList redirect)).any (· ≠ [])

/-- The tag for one line below the address of the image.  A line with too few parts or with no
address has none. -/
def imagemapLink (line : Text) : Option Text :=
  match u.split (u.strip line) with
  | x :: y :: width :: height :: redirect :: rest =>
    let title := " ".toList.intercalate rest
    if u.isRedirect redirect then
      some (makeTag (if redirect = ['#'] then "span" else "a") []
        [("href", redirect),
          ("style", "left: ".toList ++ x ++ "%; top: ".toList ++ y ++ "%; width: ".toList ++
            width ++ "%; height: ".toList ++ height ++ "%;".toList),
          ("title", title), ("class", "imagemap__link".toList)] true)
    else none
  | _ => none

/-- The lines of a block. -/
def imagemapLines (content : Text) : List Text := splitlines (u.strip (unescape content))

/-- `replace_imagemap`.  Where it cannot read the block it returns `text`, the document. -/
def replaceImagemap (text content : Text) : Text :=
  match u.imagemapLines unescape content with
  | first :: second :: lines =>
    let imageUrl := u.strip first
    if (u.httpFront imageUrl).isNone then text
    else
      "<div class='imagemap'>".toList ++
        makeTag "img" [] [("src", imageUrl), ("loading", "lazy".toList),
          ("class", "imagemap__image".toList)] true ++
        (second :: lines).flatMap (fun line => (u.imagemapLink line).getD []) ++ "</div>".toList
  | _ => text

/-- `\[imagemap\]((?:(?!\[/imagemap\]).)*?)\[/imagemap\]` -/
def imagemapFront (text : Text) : Option (Text × Text) :=
  (u.literal "[imagemap]".toList text).bind (u.splitFirst "[/imagemap]".toList)

theorem imagemapFront_eq_some {u : Unicode} {text content rest : Text} :
    u.imagemapFront text = some (content, rest) ↔ ∃ opening close,
      u.literal "[imagemap]".toList opening = some [] ∧
      u.EndsAtFirst "[/imagemap]".toList content close ∧
      text = opening ++ (content ++ close) ++ rest := by
  simp only [imagemapFront, Option.bind_eq_some_iff]
  constructor
  · rintro ⟨behind, hbehind, hsplit⟩
    obtain ⟨opening, hopening, rfl⟩ := literal_eq_some.mp hbehind
    obtain ⟨close, hclose, rfl⟩ := (splitFirst_eq_some (by decide)).mp hsplit
    exact ⟨opening, close, hopening, hclose, (List.append_assoc _ _ _).symm⟩
  · rintro ⟨opening, close, hopening, hclose, rfl⟩
    refine ⟨content ++ close ++ rest, ?_, (splitFirst_eq_some (by decide)).mpr ⟨close, hclose, rfl⟩⟩
    rw [List.append_assoc]
    exact literal_eq_some.mpr ⟨opening, hopening, rfl⟩

def imagemapPattern : Matcher Char Text where
  front := u.imagemapFront
  suffix := by
    intro c cs rest content h
    obtain ⟨opening, close, hopening, _, heq⟩ := imagemapFront_eq_some.mp h
    cases opening with
    | nil => cases hopening
    | cons o os =>
      rw [List.cons_append, List.cons_append, List.cons_eq_cons] at heq
      rw [heq.2]
      exact List.suffix_append _ _

/-- The contents of the blocks of a document. -/
def imagemaps (text : Text) : List Text := u.imagemapPattern.findAll text

def parseImagemap (text : Text) : Text :=
  u.imagemapPattern.sub (u.replaceImagemap unescape text) text

/-- A block that can be read: two lines or more, and an address of an image in the first. -/
def Readable (content : Text) : Prop :=
  ∃ first second lines, u.imagemapLines unescape content = first :: second :: lines ∧
    (u.httpFront (u.strip first)).isSome

/-- The blocks of the document are replaced by texts that depend on their own contents, and all
else stays: one function does so for the document and for every other with no other blocks. -/
def Local (text : Text) : Prop :=
  ∃ replacement : Text → Text, ∀ other,
    (∀ content ∈ u.imagemaps other, content ∈ u.imagemaps text) →
      u.parseImagemap unescape other = u.imagemapPattern.sub replacement other

variable {u unescape}

theorem replaceImagemap_of_readable {content : Text} (h : u.Readable unescape content)
    (text other : Text) :
    u.replaceImagemap unescape text content = u.replaceImagemap unescape other content := by
  obtain ⟨first, second, lines, hlines, hhttp⟩ := h
  have hsome : ¬ (u.httpFront (u.strip first)).isNone := by
    simpa [Option.isSome_iff_ne_none] using hhttp
  simp only [replaceImagemap, hlines, hsome, if_false, Bool.false_eq_true]

theorem replaceImagemap_of_not_readable {content : Text} (h : ¬ u.Readable unescape content)
    (text : Text) : u.replaceImagemap unescape text content = text := by
  unfold replaceImagemap
  split
  · rename_i first second lines hlines
    have hnone : (u.httpFront (u.strip first)).isNone := by
      by_contra hsome
      exact h ⟨first, second, lines, hlines, by simpa [Option.isSome_iff_ne_none] using hsome⟩
    rw [if_pos hnone]
  · rfl

/-- A block of a document, taken out of it, is a document with just that block. -/
theorem exists_block {text content : Text} (h : content ∈ u.imagemaps text) :
    ∃ block, block ≠ [] ∧ ∀ rest, u.imagemapFront (block ++ rest) = some (content, rest) := by
  induction text using u.imagemapPattern.text_induction with
  | nil => cases h
  | item c cs hnone ih =>
    rw [imagemaps, Matcher.findAll_none hnone] at h
    exact ih h
  | found c cs first rest hsome ih =>
    rw [imagemaps, Matcher.findAll_some hsome, List.mem_cons] at h
    cases h with
    | inr h => exact ih h
    | inl h =>
      subst h
      obtain ⟨opening, close, hopening, hclose, _⟩ := imagemapFront_eq_some.mp hsome
      refine ⟨opening ++ (content ++ close), ?_, fun rest => ?_⟩
      · cases opening with
        | nil => cases hopening
        | cons o os => exact List.cons_ne_nil _ _
      · exact imagemapFront_eq_some.mpr ⟨opening, close, hopening, hclose, rfl⟩

theorem sub_block {replacement : Text → Text} {block content : Text} (hne : block ≠ [])
    (h : ∀ rest, u.imagemapFront (block ++ rest) = some (content, rest)) (rest : Text) :
    u.imagemapPattern.sub replacement (block ++ rest) =
      replacement content ++ u.imagemapPattern.sub replacement rest := by
  cases block with
  | nil => exact absurd rfl hne
  | cons c cs => exact Matcher.sub_some (h rest)

theorem imagemaps_block {block content : Text} (hne : block ≠ [])
    (h : ∀ rest, u.imagemapFront (block ++ rest) = some (content, rest)) (rest : Text) :
    u.imagemaps (block ++ rest) = content :: u.imagemaps rest := by
  cases block with
  | nil => exact absurd rfl hne
  | cons c cs => exact Matcher.findAll_some (h rest)

/-- A block that cannot be read stands for the document around it. -/
theorem Local.readable {text content : Text} (hlocal : u.Local unescape text)
    (h : content ∈ u.imagemaps text) : u.Readable unescape content := by
  by_contra hnot
  obtain ⟨replacement, hreplacement⟩ := hlocal
  obtain ⟨block, hne, hblock⟩ := exists_block h
  have hempty : u.imagemaps [] = [] := rfl
  have honce : block ++ [] = replacement content ++ [] := by
    have hsame := hreplacement (block ++ []) (by
      intro other hother
      rw [imagemaps_block hne hblock, hempty, List.mem_singleton] at hother
      exact hother ▸ h)
    rw [parseImagemap, sub_block hne hblock, sub_block hne hblock,
      replaceImagemap_of_not_readable hnot] at hsame
    simpa using hsame
  have htwice :
      (block ++ block) ++ (block ++ block) = replacement content ++ replacement content := by
    have hsame := hreplacement (block ++ (block ++ [])) (by
      intro other hother
      rw [imagemaps_block hne hblock, imagemaps_block hne hblock, hempty] at hother
      have heq : other = content := by simpa using hother
      exact heq ▸ h)
    rw [parseImagemap, sub_block hne hblock, sub_block hne hblock, sub_block hne hblock,
      sub_block hne hblock, replaceImagemap_of_not_readable hnot] at hsame
    simpa using hsame
  have hcontent : replacement content = block := by simpa using honce.symm
  have hlength := congrArg List.length htwice
  have hpos : 0 < block.length := List.length_pos_iff.mpr hne
  rw [hcontent] at hlength
  simp only [List.length_append] at hlength
  omega

/-- Image maps are local exactly in the documents all of whose blocks can be read. -/
theorem local_iff (u : Unicode) (unescape : Text → Text) (text : Text) :
    u.Local unescape text ↔ ∀ content ∈ u.imagemaps text, u.Readable unescape content := by
  constructor
  · intro hlocal content h
    exact hlocal.readable h
  · intro h
    refine ⟨u.replaceImagemap unescape [], fun other hother => ?_⟩
    rw [parseImagemap]
    apply Matcher.sub_congr
    intro content hcontent
    exact replaceImagemap_of_readable (h content (hother content hcontent)) other []

end Unicode

/-- The text in front of an empty block is repeated in its place. -/
theorem not_local_empty :
    ascii.parseImagemap id "secret [imagemap][/imagemap]".toList =
        "secret secret [imagemap][/imagemap]".toList ∧
      ascii.parseImagemap id "[imagemap][/imagemap]".toList = "[imagemap][/imagemap]".toList ∧
      ¬ ascii.Local id "secret [imagemap][/imagemap]".toList := by
  have hfirst : ascii.parseImagemap id "secret [imagemap][/imagemap]".toList =
      "secret secret [imagemap][/imagemap]".toList := by decide
  have hsecond : ascii.parseImagemap id "[imagemap][/imagemap]".toList =
      "[imagemap][/imagemap]".toList := by decide
  refine ⟨hfirst, hsecond, ?_⟩
  rintro ⟨replacement, h⟩
  have hdocument := h "secret [imagemap][/imagemap]".toList fun _ hc => hc
  have hblock := h "[imagemap][/imagemap]".toList (by decide)
  have hpieces : ascii.imagemapPattern.pieces "secret [imagemap][/imagemap]".toList =
      "secret ".toList.map Sum.inl ++ [.inr []] := by decide
  have hpiece : ascii.imagemapPattern.pieces "[imagemap][/imagemap]".toList = [.inr []] := by decide
  rw [hfirst, Matcher.sub, hpieces] at hdocument
  rw [hsecond, Matcher.sub, hpiece] at hblock
  simp only [List.flatMap_singleton, Sum.elim_inr] at hblock
  simp [← hblock] at hdocument

end Soms.Bbcode

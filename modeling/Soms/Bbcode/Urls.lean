import Mathlib
import Soms.Bbcode.Passes

/-!
# URLs of the BBCode service

What becomes of the URL of a tag.  The passes of the other tags leave a text with one tag as it
is, and the attribute is what the pass of the tag writes.
-/

namespace Soms.Bbcode

open Scanner Tables

/-! ## Texts of the output -/

theorem escape_append (text other : Text) : escape (text ++ other) = escape text ++ escape other :=
  List.flatMap_append

/-- The characters `html.escape` writes with a reference. -/
def special : Text := ['&', '<', '>', '"', '\'']

/-- A condition on the characters of a fixed text, which can be run over them. -/
theorem forall_mem_of_all {p : Char → Prop} [DecidablePred p] {text : Text}
    (h : text.all (fun c => decide (p c)) = true) : ∀ c ∈ text, p c := fun c hc =>
  of_decide_eq_true (List.all_eq_true.mp h c hc)

theorem escape_eq_self {text : Text} (h : ∀ c ∈ text, c ∉ special) : escape text = text := by
  induction text with
  | nil => rfl
  | cons c cs ih =>
    have hc : escapeChar c = [c] := by
      have hspecial := h c List.mem_cons_self
      unfold escapeChar
      split
      all_goals first | rfl | exact absurd (by decide) hspecial
    rw [escape, List.flatMap_cons, hc, List.singleton_append]
    exact congrArg (c :: ·) (ih fun d hd => h d (List.mem_cons_of_mem _ hd))

/-- The characters of the references `html.escape` writes. -/
def referenceChars : Text :=
  ['&', 'a', 'm', 'p', ';', 'l', 't', 'g', 'q', 'u', 'o', '#', 'x', '2', '7']

theorem mem_escape {text : Text} {c : Char} (h : c ∈ escape text) :
    (c ∈ text ∧ c ∉ special) ∨ c ∈ referenceChars := by
  obtain ⟨d, hd, hc⟩ := List.mem_flatMap.mp h
  by_cases hspecial : d ∈ special
  · right
    have hall : ∀ d ∈ special, escapeChar d ⊆ referenceChars := forall_mem_of_all (by decide)
    exact hall d hspecial hc
  · have hplain : escape [d] = [d] := escape_eq_self (by simpa using hspecial)
    have hself : c ∈ [d] := by
      rw [← hplain]
      simpa [escape] using hc
    obtain rfl := List.mem_singleton.mp hself
    exact .inl ⟨hd, hspecial⟩

theorem escape_ne_nil {text : Text} (h : text ≠ []) : escape text ≠ [] := by
  cases text with
  | nil => exact absurd rfl h
  | cons c cs =>
    have hc : escapeChar c ≠ [] := by
      unfold escapeChar
      split <;> exact List.cons_ne_nil _ _
    exact List.append_ne_nil_of_left_ne_nil hc _

/-- A character that is in no reference is in an escaped text only if it was in the text. -/
theorem not_mem_escape {text : Text} {c : Char} (hc : c ∉ text ∨ c ∈ special)
    (href : c ∉ referenceChars) : c ∉ escape text := by
  intro h
  cases mem_escape h with
  | inl h => exact hc.elim (fun hnot => hnot h.1) fun hspecial => h.2 hspecial
  | inr h => exact href h

theorem not_mem_attrPart {entry : String × Text} {c : Char} (hname : c ∉ entry.1.toList)
    (hvalue : c ∉ escape entry.2) (hc : c ∉ " =\"".toList) : c ∉ attrPart entry := by
  have hall : c ≠ ' ' ∧ c ≠ '=' ∧ c ≠ '"' := by simpa using hc
  simp [attrPart, hname, hvalue, hall]

theorem not_mem_makeTag {tag : String} {content : Text} {attributes : List (String × Text)}
    {c : Char} (selfClosing : Bool) (htag : c ∉ tag.toList) (hcontent : c ∉ content)
    (hattributes : ∀ entry ∈ attributes, c ∉ entry.1.toList ∧ c ∉ escape entry.2)
    (hc : c ∉ "<>/ =\"".toList) : c ∉ makeTag tag content attributes selfClosing := by
  have hall : c ≠ '<' ∧ c ≠ '>' ∧ c ≠ '/' ∧ c ≠ ' ' ∧ c ≠ '=' ∧ c ≠ '"' := by simpa using hc
  have hparts : c ∉ attributes.flatMap attrPart := by
    intro h
    obtain ⟨entry, hentry, hmem⟩ := List.mem_flatMap.mp h
    have hquote : c ∉ " =\"".toList := by simp [hall]
    exact not_mem_attrPart (hattributes entry hentry).1 (hattributes entry hentry).2 hquote hmem
  cases selfClosing <;> simp [makeTag, htag, hcontent, hparts, hall]

/-- A tag up to the value of one of its attributes. -/
theorem makeTag_eq (tag : String) (content : Text) (leading : List (String × Text)) (name : String)
    (value : Text) (trailing : List (String × Text)) (selfClosing : Bool) :
    ∃ rest, makeTag tag content (leading ++ (name, value) :: trailing) selfClosing =
      ('<' :: tag.toList ++ leading.flatMap attrPart) ++
        (' ' :: name.toList ++ "=\"".toList ++ (escape value ++ '"' :: rest)) := by
  refine ⟨trailing.flatMap attrPart ++ (if selfClosing then " />".toList
    else '>' :: content ++ "</".toList ++ tag.toList ++ ['>']), ?_⟩
  simp only [makeTag, attrPart, List.flatMap_append, List.flatMap_cons, List.append_assoc,
    List.cons_append, List.nil_append]
  rfl

theorem lineBreaks_append (text other : Text) :
    lineBreaks (text ++ other) = lineBreaks text ++ lineBreaks other := List.flatMap_append

theorem lineBreaks_eq_self {text : Text} (h : '\n' ∉ text) : lineBreaks text = text := by
  induction text with
  | nil => rfl
  | cons c cs ih =>
    rw [List.mem_cons, not_or] at h
    rw [lineBreaks, List.flatMap_cons, if_neg (Ne.symm h.1), List.singleton_append]
    exact congrArg (c :: ·) (ih h.2)

theorem not_mem_lineBreaks {text : Text} {c : Char} (h : c ∉ text) (hc : c ∉ "<br />".toList) :
    c ∉ lineBreaks text := by
  intro hmem
  obtain ⟨d, hd, hcd⟩ := List.mem_flatMap.mp hmem
  split at hcd
  · exact hc hcd
  · exact h (List.mem_singleton.mp hcd ▸ hd)

theorem unescape_eq_self (reference : Front Char Text) {text : Text} (h : '&' ∉ text) :
    unescape reference text = text := by
  refine Matcher.Quiet.sub_eq (fun c cs hsuffix => ?_) id
  have hc : ¬ ['&'] <+: c :: (cs ++ []) := by
    intro hbegins
    rw [List.cons_prefix_cons] at hbegins
    exact h (hsuffix.subset (hbegins.1 ▸ List.mem_cons_self))
  simp only [referencePattern, after_eq_none.mpr hc, Option.bind_none]

/-! ## The smilies -/

theorem smilies_front {c : Char} {cs : Text} (h : ¬ ['<', '!'] <+: c :: cs) :
    smiliesPattern.front (c :: cs) = none := by
  have hword : ¬ "<!-- s".toList <+: c :: cs := by
    intro hbegins
    exact h (List.IsPrefix.trans ⟨"-- s".toList, rfl⟩ hbegins)
  simp only [smiliesPattern, after_eq_none.mpr hword, Option.bind_none]

theorem smilies_quiet {text : Text} (h : '<' ∉ text) (behind : Text) :
    smiliesPattern.Quiet text behind := by
  intro c cs hsuffix
  apply smilies_front
  rw [List.cons_prefix_cons]
  rintro ⟨rfl, _⟩
  exact h (hsuffix.subset List.mem_cons_self)

theorem smilies_quiet_tag {c : Char} {text : Text} (hc : c ≠ '!') (h : '<' ∉ c :: text)
    (behind : Text) : smiliesPattern.Quiet ('<' :: c :: text) behind := by
  rw [Matcher.quiet_cons]
  refine ⟨smilies_front ?_, smilies_quiet h behind⟩
  rw [List.cons_append, List.cons_prefix_cons, List.cons_prefix_cons]
  exact fun hbegins => hc hbegins.2.1.symm

theorem smilies_quiet_makeTag {tag : String} {content : Text} {attributes : List (String × Text)}
    {c : Char} {cs : Text} (selfClosing : Bool) (htag : tag.toList = c :: cs) (hc : c ≠ '!')
    (hless : '<' ∉ c :: cs) (hcontent : '<' ∉ content)
    (hattributes : ∀ entry ∈ attributes, '<' ∉ entry.1.toList) (behind : Text) :
    smiliesPattern.Quiet (makeTag tag content attributes selfClosing) behind := by
  have hparts : '<' ∉ attributes.flatMap attrPart := by
    intro h
    obtain ⟨entry, hentry, hmem⟩ := List.mem_flatMap.mp h
    have hvalue : '<' ∉ escape entry.2 := not_mem_escape (.inr (by decide)) (by decide)
    exact not_mem_attrPart (hattributes entry hentry) hvalue (by decide) hmem
  have hopening : ∀ text, '<' ∉ text →
      '<' ∉ c :: (cs ++ attributes.flatMap attrPart ++ text) := by
    intro text htext
    rw [List.mem_cons, not_or] at hless
    simp [hless.1, hless.2, hparts, htext]
  cases selfClosing with
  | true =>
    have hshape : makeTag tag content attributes true =
        '<' :: c :: (cs ++ attributes.flatMap attrPart ++ " />".toList) := by
      simp [makeTag, htag]
    rw [hshape]
    exact smilies_quiet_tag hc (hopening _ (by decide)) behind
  | false =>
    have hshape : makeTag tag content attributes false =
        '<' :: c :: (cs ++ attributes.flatMap attrPart ++ '>' :: content) ++
          '<' :: '/' :: (c :: cs ++ ['>']) := by
      simp [makeTag, htag]
    rw [hshape, Matcher.quiet_append]
    refine ⟨smilies_quiet_tag hc (hopening _ (by simp [hcontent])) _, ?_⟩
    refine smilies_quiet_tag (by decide) ?_ behind
    rw [List.mem_cons, not_or] at hless
    simp [hless.1, hless.2]

/-! ## Attributes of the output -/

/-- An attribute, and its value up to the quotation mark. -/
def attributePattern (name : String) : Matcher Char Text where
  front text := (after (' ' :: name.toList ++ "=\"".toList) text).map fun rest =>
    (rest.takeWhile (· != '"'), rest.dropWhile (· != '"'))
  suffix := by
    intro c cs rest found h
    simp only [Option.map_eq_some_iff, Prod.mk.injEq] at h
    obtain ⟨behind, hbehind, _, rfl⟩ := h
    rw [after_eq_some, List.cons_append, List.cons_append, List.cons_eq_cons] at hbehind
    rw [hbehind.2]
    exact (List.dropWhile_suffix _).trans (List.suffix_append _ _)

/-- The value of the first attribute of a name. -/
def firstValue (name : String) (html : Text) : Option Text :=
  ((attributePattern name).findAll html).head?

theorem attribute_front {name : String} {c : Char} {cs : Text}
    (h : ¬ ' ' :: name.toList ++ "=\"".toList <+: c :: cs) :
    (attributePattern name).front (c :: cs) = none := by
  simp only [attributePattern, after_eq_none.mpr h, Option.map_none]

/-- No attribute begins in a text without quotation marks in front of a tag. -/
theorem attribute_quiet {name : String} (hname : '<' ∉ name.toList) {text : Text}
    (htext : '"' ∉ text) (behind : Text) : (attributePattern name).Quiet text ('<' :: behind) := by
  intro c cs hsuffix
  apply attribute_front
  intro hbegins
  rw [← List.cons_append] at hbegins
  have hshort := prefix_of_prefix_append_cons (by simp [hname]) hbegins
  exact htext (hsuffix.subset (hshort.subset (by simp)))

/-- Where no attribute begins before the place of the first, that is the one found. -/
theorem firstValue_eq {name : String} {before value rest : Text} (hvalue : '"' ∉ value)
    (hquiet : (attributePattern name).Quiet before
      (' ' :: name.toList ++ "=\"".toList ++ (value ++ '"' :: rest))) :
    firstValue name
      (before ++ (' ' :: name.toList ++ "=\"".toList ++ (value ++ '"' :: rest))) = some value := by
  have hall : ∀ c ∈ value, (c != '"') = true := by
    intro c hc
    simpa using fun heq : c = '"' => hvalue (heq ▸ hc)
  have htake : (value ++ '"' :: rest).takeWhile (· != '"') = value := by
    rw [List.takeWhile_append_of_pos hall, List.takeWhile_cons_of_neg (by decide), List.append_nil]
  have hfront : (attributePattern name).front
      (' ' :: (name.toList ++ "=\"".toList ++ (value ++ '"' :: rest))) =
        some (value, (value ++ '"' :: rest).dropWhile (· != '"')) := by
    have hafter : after (' ' :: name.toList ++ "=\"".toList)
        (' ' :: (name.toList ++ "=\"".toList ++ (value ++ '"' :: rest))) =
          some (value ++ '"' :: rest) := after_append _ _
    simp only [attributePattern, hafter, Option.map_some, htake]
  rw [firstValue, hquiet.findAll_append]
  simp only [List.cons_append]
  rw [Matcher.findAll_some hfront, List.head?_cons]

/-- No attribute of the name begins in a text in front of such an attribute.  That there is none
is seen without the value. -/
theorem attribute_quiet_of_tails {name : String} {text : Text}
    (h : ∀ t ∈ text.tails, t = [] ∨
      ¬ ' ' :: name.toList ++ "=\"".toList <+: t ++ (' ' :: name.toList ++ "=\"".toList))
    (rest : Text) :
    (attributePattern name).Quiet text (' ' :: name.toList ++ "=\"".toList ++ rest) := by
  intro c cs hsuffix
  apply attribute_front
  intro hbegins
  rw [← List.cons_append, ← List.append_assoc] at hbegins
  have hlong : (' ' :: name.toList ++ "=\"".toList).length ≤
      (c :: cs ++ (' ' :: name.toList ++ "=\"".toList)).length :=
    (List.sublist_append_right _ _).length_le
  have hclosed := List.prefix_of_prefix_length_le hbegins (List.prefix_append _ _) hlong
  cases h (c :: cs) ((List.mem_tails _ _).mpr hsuffix) with
  | inl hnil => cases hnil
  | inr hnot => exact hnot hclosed

/-! ## Tags with a URL -/

/-- The ways to write a URL in a tag.  A title stands between the tag and its end. -/
inductive UrlTag where
  | url
  | urlTitled (title : Text)
  | img
  | audio
  | email
  | emailTitled (title : Text)

namespace UrlTag

def opening : UrlTag → Text
  | url => "url]".toList
  | urlTitled _ => "url=".toList
  | img => "img]".toList
  | audio => "audio]".toList
  | email => "email]".toList
  | emailTitled _ => "email=".toList

def title : UrlTag → Text
  | urlTitled title | emailTitled title => title
  | _ => []

/-- What is between the URL and the end of the tag. -/
def middle : UrlTag → Text
  | urlTitled title | emailTitled title => ']' :: title
  | _ => []

def closing : UrlTag → Text
  | url | urlTitled _ => "/url]".toList
  | img => "/img]".toList
  | audio => "/audio]".toList
  | email | emailTitled _ => "/email]".toList

/-- The tag with a URL. -/
def write (tag : UrlTag) (url : Text) : Text :=
  '[' :: tag.opening ++ (url ++ (tag.middle ++ '[' :: tag.closing))

/-- The bracket that ends a URL. -/
def delimiter : UrlTag → Char
  | urlTitled _ | emailTitled _ => ']'
  | _ => '['

theorem delimiter_eq (tag : UrlTag) : tag.delimiter = '[' ∨ tag.delimiter = ']' := by
  cases tag with
  | urlTitled title => exact .inr rfl
  | emailTitled title => exact .inr rfl
  | url => exact .inl rfl
  | img => exact .inl rfl
  | audio => exact .inl rfl
  | email => exact .inl rfl

theorem delimiter_not_mem (tag : UrlTag) : tag.delimiter ∉ referenceChars := by
  have hbrackets : '[' ∉ referenceChars ∧ ']' ∉ referenceChars := by decide
  cases tag.delimiter_eq with
  | inl h => exact h ▸ hbrackets.1
  | inr h => exact h ▸ hbrackets.2

def attributeName : UrlTag → String
  | img | audio => "src"
  | _ => "href"

/-- The address a URL is meant to be. -/
def address (u : Tables) : UrlTag → Text → Text
  | url, link | urlTitled _, link => link
  | img, link | audio, link => u.strip link
  | email, link | emailTitled _, link => "mailto:".toList ++ link

theorem bracket_not_mem (tag : UrlTag) : '[' ∉ tag.opening ∧ '[' ∉ tag.closing := by
  have hurl : '[' ∉ "url]".toList ∧ '[' ∉ "url=".toList ∧ '[' ∉ "/url]".toList := by decide
  have himg : '[' ∉ "img]".toList ∧ '[' ∉ "/img]".toList := by decide
  have haudio : '[' ∉ "audio]".toList ∧ '[' ∉ "/audio]".toList := by decide
  have hemail : '[' ∉ "email]".toList ∧ '[' ∉ "email=".toList ∧ '[' ∉ "/email]".toList := by decide
  cases tag with
  | url => exact ⟨hurl.1, hurl.2.2⟩
  | urlTitled title => exact hurl.2
  | img => exact himg
  | audio => exact haudio
  | email => exact ⟨hemail.1, hemail.2.2⟩
  | emailTitled title => exact hemail.2

/-- What the pass of the tag writes for it, from the escaped texts. -/
def html (u : Tables) (link : Text) : UrlTag → Text
  | url => replaceUrl link link
  | urlTitled title => replaceUrl link (escape title)
  | img => u.replaceImage link
  | audio => u.replaceAudio link
  | email => replaceEmail link link
  | emailTitled title => replaceEmail link (escape title)

/-- The pattern that reads the tag. -/
def rule (u : Tables) : UrlTag → Rule
  | url => u.urlRule
  | urlTitled _ => u.urlTitledRule
  | img => u.imageRule
  | audio => u.audioRule
  | email => u.emailRule
  | emailTitled _ => u.emailTitledRule

/-- The patterns tried before the one of the tag. -/
def earlier (u : Tables) (tag : UrlTag) : List (Matcher Char Text) :=
  let upToStyle := u.blockRules ++ u.audioRule :: u.styleRules
  let upToLine := u.imagemapPattern :: u.firstRules.map u.rule ++
    u.sizePattern :: u.rule sizeEnd :: lineRules.map u.rule
  match tag with
  | audio => u.imagemapPattern :: u.blockRules.map u.rule
  | email => u.imagemapPattern :: upToStyle.map u.rule
  | emailTitled _ => u.imagemapPattern :: (upToStyle ++ [u.emailRule]).map u.rule
  | img => u.imagemapPattern :: (upToStyle ++ [u.emailRule, u.emailTitledRule]).map u.rule
  | url => upToLine
  | urlTitled _ => upToLine ++ [u.rule u.urlRule]

end UrlTag

/-- A text without tags. -/
def Plain (text : Text) : Prop := '[' ∉ text ∧ ']' ∉ text

instance (text : Text) : Decidable (Plain text) := inferInstanceAs (Decidable (_ ∧ _))

/-- The tag is read with the URL: the URL ends where the tag says, and no pattern tried before
takes a part of it for another tag. -/
structure Accepts (u : Tables) (tag : UrlTag) (url after : Text) : Prop where
  ne_nil : url ≠ []
  delimiter : tag.delimiter ∉ url
  title : Plain tag.title ∧ '\n' ∉ tag.title
  earlier : '[' ∈ url → ∀ m ∈ tag.earlier u,
    m.Quiet (escape url) (escape (tag.middle ++ '[' :: tag.closing ++ after))

variable {u : Tables} {tag : UrlTag} {before url after : Text}

theorem escape_write (tag : UrlTag) (before url after : Text) :
    escape (before ++ (tag.write url ++ after)) = escape before ++ ('[' :: tag.opening ++
      (escape url ++ escape (tag.middle ++ '[' :: tag.closing ++ after))) := by
  have hopening : escape tag.opening = tag.opening := by
    cases tag <;> rfl
  have hbracket : ∀ text, escape ('[' :: text) = '[' :: escape text := fun _ => rfl
  simp only [UrlTag.write, escape_append, hbracket, hopening, List.cons_append, List.append_assoc]

theorem escape_tail (tag : UrlTag) (after : Text) :
    escape (tag.middle ++ '[' :: tag.closing ++ after) =
      escape tag.middle ++ ('[' :: tag.closing ++ escape after) := by
  have hbracket : ∀ text, escape ('[' :: text) = '[' :: escape text := fun _ => rfl
  have hclosing : escape tag.closing = tag.closing := by
    cases tag <;> rfl
  simp only [escape_append, hbracket, hclosing, List.append_assoc]

theorem opens_rules {opening closing : Text} {rules : List Rule}
    (h : (rules.all fun r => clash r.name opening && clash r.name closing) = true) :
    ∀ m ∈ rules.map u.rule,
      ∃ name, u.Opens m name ∧ clash name opening = true ∧ clash name closing = true := by
  intro m hm
  obtain ⟨r, hr, rfl⟩ := List.mem_map.mp hm
  have hclash := List.all_eq_true.mp h r hr
  rw [Bool.and_eq_true] at hclash
  exact ⟨r.name, opens_rule r, hclash⟩

theorem earlier_opens : ∀ m ∈ tag.earlier u, ∃ name, u.Opens m name ∧
    clash name tag.opening = true ∧ clash name tag.closing = true := by
  have himagemap : clash "imagemap]".toList tag.opening = true ∧
      clash "imagemap]".toList tag.closing = true := by
    cases tag <;> exact ⟨rfl, rfl⟩
  have hsize : clash "size=".toList tag.opening = true ∧
      clash "size=".toList tag.closing = true := by
    cases tag <;> exact ⟨rfl, rfl⟩
  have hend : clash sizeEnd.name tag.opening = true ∧ clash sizeEnd.name tag.closing = true := by
    cases tag <;> exact ⟨rfl, rfl⟩
  cases tag with
  | audio => exact List.forall_mem_cons.mpr ⟨⟨_, opens_imagemap, himagemap⟩, opens_rules rfl⟩
  | email => exact List.forall_mem_cons.mpr ⟨⟨_, opens_imagemap, himagemap⟩, opens_rules rfl⟩
  | emailTitled title =>
    exact List.forall_mem_cons.mpr ⟨⟨_, opens_imagemap, himagemap⟩, opens_rules rfl⟩
  | img => exact List.forall_mem_cons.mpr ⟨⟨_, opens_imagemap, himagemap⟩, opens_rules rfl⟩
  | url =>
    refine List.forall_mem_append.mpr ⟨List.forall_mem_cons.mpr
      ⟨⟨_, opens_imagemap, himagemap⟩, opens_rules rfl⟩, ?_⟩
    exact List.forall_mem_cons.mpr ⟨⟨_, opens_matcher _ _, hsize⟩,
      List.forall_mem_cons.mpr ⟨⟨_, opens_rule _, hend⟩, opens_rules rfl⟩⟩
  | urlTitled title =>
    refine List.forall_mem_append.mpr ⟨List.forall_mem_append.mpr ⟨List.forall_mem_cons.mpr
      ⟨⟨_, opens_imagemap, himagemap⟩, opens_rules rfl⟩, ?_⟩, ?_⟩
    · exact List.forall_mem_cons.mpr ⟨⟨_, opens_matcher _ _, hsize⟩,
        List.forall_mem_cons.mpr ⟨⟨_, opens_rule _, hend⟩, opens_rules rfl⟩⟩
    · exact @opens_rules u _ _ [u.urlRule] rfl

/-- Before its own pass the tag is left as it was written. -/
theorem earlier_quiet (hbefore : Plain before) (hafter : Plain after)
    (haccepts : Accepts u tag url after) : ∀ m ∈ tag.earlier u,
      m.Quiet (escape (before ++ (tag.write url ++ after))) [] := by
  intro m hm
  obtain ⟨name, hopens, hopening, hclosing⟩ := earlier_opens m hm
  have hescape : ∀ {text : Text}, '[' ∉ text → '[' ∉ escape text := fun htext =>
    not_mem_escape (.inl htext) (by decide)
  have hinside : m.Quiet (escape url) (escape (tag.middle ++ '[' :: tag.closing ++ after)) := by
    by_cases hurl : '[' ∈ url
    · exact haccepts.earlier hurl m hm
    · exact hopens.quiet (hescape hurl) _
  have hmiddle : '[' ∉ tag.middle := by
    have htitle := haccepts.title.1.1
    cases tag <;> simp_all [UrlTag.middle, UrlTag.title]
  rw [escape_tail] at hinside
  rw [escape_write, escape_tail]
  refine Matcher.quiet_append.mpr ⟨hopens.quiet (hescape hbefore.1) _, ?_⟩
  refine Matcher.quiet_append.mpr ⟨hopens.quiet_tag hopening tag.bracket_not_mem.1 _, ?_⟩
  refine Matcher.quiet_append.mpr ⟨by rwa [List.append_nil], ?_⟩
  refine Matcher.quiet_append.mpr ⟨hopens.quiet (hescape hmiddle) _, ?_⟩
  exact Matcher.quiet_append.mpr ⟨hopens.quiet_tag hclosing tag.bracket_not_mem.2 _,
    hopens.quiet (hescape hafter.1) _⟩

/-! ## The pass of the tag -/

theorem word_append (w : String) (rest : Text) :
    (u.word w).read (w.toList ++ rest) = some ((), rest) := by
  simp only [Tables.word, Unicode.literal_append, Option.map_some]

theorem unbracketed_read {close : String} {cs link : Text} (replace : Text → Text) (rest : Text)
    (hclose : close.toList = '[' :: cs) (hne : link ≠ []) (hlink : '[' ∉ link) :
    (u.unbracketed close replace).read (link ++ (close.toList ++ rest)) =
      some (replace link, rest) := by
  have hmany : (Front.many1 (· != '[')).read (link ++ (close.toList ++ rest)) =
      some (link, close.toList ++ rest) := by
    refine Front.many1_read hne ?_ ?_
    · intro c hc
      simpa using fun heq : c = '[' => hlink (heq ▸ hc)
    · simp [hclose]
  simp only [unbracketed, Front.read_bind, hmany, Option.bind_some, word_append, Front.read_pure]

theorem titled_read {close : String} {cs link title : Text} (replace : Text → Text → Text)
    (rest : Text) (hclose : close.toList = '[' :: cs) (hne : link ≠ []) (hlink : ']' ∉ link)
    (htitle : '[' ∉ title) (hline : '\n' ∉ title) :
    (u.titled close replace).read (link ++ ("]".toList ++ (title ++ (close.toList ++ rest)))) =
      some (replace link title, rest) := by
  have hmany : (Front.many1 (· != ']')).read
      (link ++ ("]".toList ++ (title ++ (close.toList ++ rest)))) =
        some (link, "]".toList ++ (title ++ (close.toList ++ rest))) := by
    refine Front.many1_read hne ?_ ?_
    · intro c hc
      simpa using fun heq : c = ']' => hlink (heq ▸ hc)
    · simp
  have hlazily : (Front.lazily dot fun content => do
      u.word close
      pure (replace link content)).read (title ++ (close.toList ++ rest)) =
        some (replace link title, rest) := by
    refine Front.lazily_read ?_ ?_ ?_
    · intro c hc
      simpa [dot] using fun heq : c = '\n' => hline (heq ▸ hc)
    · intro first c behind heq
      have hc : c ≠ '[' := fun h => htitle (heq ▸ by simp [h])
      simp only [Front.read_bind, Tables.word, hclose, List.cons_append, literal_bracket hc,
        Option.map_none, Option.bind_none]
    · simp only [Front.read_bind, word_append, Option.bind_some, Front.read_pure]
  simp only [titled, Front.read_bind, hmany, Option.bind_some, word_append, hlazily]

/-- A rule that reads at the only place where it can begin. -/
theorem apply_eq {r : Rule} {first text rest replaced : Text}
    (hfirst : '[' ∉ first) (hrest : '[' ∉ rest)
    (hread : r.behind.read text = some (replaced, rest)) :
    u.apply (first ++ ('[' :: r.name ++ text)) r = first ++ (replaced ++ rest) := by
  have hfront : (u.matcher r.name r.behind).front ('[' :: (r.name ++ text)) =
      some (replaced, rest) := by
    have hliteral : u.literal ('[' :: r.name) ('[' :: (r.name ++ text)) = some text :=
      Unicode.literal_append ('[' :: r.name) text
    simp only [matcher, hliteral, Option.bind_some, hread]
  have hquiet : (u.matcher r.name r.behind).Quiet first ('[' :: r.name ++ text) :=
    (opens_rule r).quiet hfirst _
  have hbehind : (u.matcher r.name r.behind).sub id rest = rest :=
    ((opens_rule r).quiet hrest []).sub_eq id
  rw [apply, hquiet.sub_append, List.cons_append, Matcher.sub_some hfront, hbehind]
  rfl

theorem apply_write (hbefore : Plain before) (hafter : Plain after)
    (haccepts : Accepts u tag url after) :
    u.apply (escape (before ++ (tag.write url ++ after))) (tag.rule u) =
      escape before ++ (tag.html u (escape url) ++ escape after) := by
  have hescape : ∀ {text : Text}, '[' ∉ text → '[' ∉ escape text := fun htext =>
    not_mem_escape (.inl htext) (by decide)
  have hne : escape url ≠ [] := escape_ne_nil haccepts.ne_nil
  have hdelimiter : tag.delimiter ∉ escape url :=
    not_mem_escape (.inl haccepts.delimiter) tag.delimiter_not_mem
  have htitle : '[' ∉ escape tag.title ∧ '\n' ∉ escape tag.title :=
    ⟨hescape haccepts.title.1.1, not_mem_escape (.inl haccepts.title.2) (by decide)⟩
  rw [escape_write, escape_tail]
  cases tag with
  | url =>
    exact apply_eq (hescape hbefore.1) (hescape hafter.1)
      (unbracketed_read _ (escape after) rfl hne hdelimiter)
  | urlTitled title =>
    exact apply_eq (hescape hbefore.1) (hescape hafter.1)
      (titled_read _ (escape after) rfl hne hdelimiter htitle.1 htitle.2)
  | img =>
    exact apply_eq (hescape hbefore.1) (hescape hafter.1)
      (unbracketed_read _ (escape after) rfl hne hdelimiter)
  | audio =>
    exact apply_eq (hescape hbefore.1) (hescape hafter.1)
      (unbracketed_read _ (escape after) rfl hne hdelimiter)
  | email =>
    exact apply_eq (hescape hbefore.1) (hescape hafter.1)
      (unbracketed_read _ (escape after) rfl hne hdelimiter)
  | emailTitled title =>
    exact apply_eq (hescape hbefore.1) (hescape hafter.1)
      (titled_read _ (escape after) rfl hne hdelimiter htitle.1 htitle.2)

/-! ## Behind the pass of the tag -/

theorem strip_subset (v : Unicode) (text : Text) : v.strip text ⊆ text := by
  intro c hc
  exact (List.dropWhile_suffix _).subset ((List.rdropWhile_prefix _ _).subset hc)

namespace UrlTag

/-- The characters that no part of a tag has that the service writes itself. -/
def foreign : Text := ['[', ']', '\n']

theorem not_mem_html (tag : UrlTag) {link : Text} {c : Char} (hc : c ∈ foreign) (hlink : c ∉ link)
    (htitle : c ∉ escape tag.title) : c ∉ tag.html u link := by
  have href : c ∉ referenceChars := by
    have hall : ∀ c ∈ foreign, c ∉ referenceChars := forall_mem_of_all (by decide)
    exact hall c hc
  have hmarks : c ∉ "<>/ =\"".toList := by
    have hall : ∀ c ∈ foreign, c ∉ "<>/ =\"".toList := forall_mem_of_all (by decide)
    exact hall c hc
  have hescape : ∀ {text : Text}, c ∉ text → c ∉ escape text := fun htext =>
    not_mem_escape (.inl htext) href
  have hstrip : c ∉ u.strip link := fun hmem => hlink (strip_subset _ _ hmem)
  have hfixed : ∀ word : String, foreign.all (fun c => decide (c ∉ word.toList)) = true →
      c ∉ word.toList := fun _ hword => forall_mem_of_all hword c hc
  have hentry : ∀ {name : String} {value : Text},
      foreign.all (fun c => decide (c ∉ name.toList)) = true → c ∉ value →
        c ∉ name.toList ∧ c ∉ escape value := fun hname hvalue =>
    ⟨hfixed _ hname, hescape hvalue⟩
  have hrel : c ∉ "rel".toList ∧ c ∉ escape "nofollow".toList :=
    hentry (by decide) (hfixed _ (by decide))
  have hmail : c ∉ "mailto:".toList ++ link :=
    List.not_mem_append (hfixed _ (by decide)) hlink
  have hlinked : ∀ {content address : Text}, c ∉ content → c ∉ address →
      c ∉ makeTag "a" content [("rel", "nofollow".toList), ("href", address)] false := by
    intro content address hcontent haddress
    refine not_mem_makeTag false (hfixed _ (by decide)) hcontent ?_ hmarks
    simp only [List.forall_mem_cons]
    exact ⟨hrel, hentry (by decide) haddress, nofun⟩
  cases tag with
  | url => exact hlinked hlink hlink
  | urlTitled title => exact hlinked htitle hlink
  | email => exact hlinked hlink hmail
  | emailTitled title => exact hlinked htitle hmail
  | img =>
    refine not_mem_makeTag true (hfixed _ (by decide)) nofun ?_ hmarks
    simp only [List.forall_mem_cons]
    exact ⟨hentry (by decide) (hfixed _ (by decide)), hentry (by decide) hstrip,
      hentry (by decide) nofun, hentry (by decide) (hfixed _ (by decide)), nofun⟩
  | audio =>
    refine not_mem_makeTag false (hfixed _ (by decide)) nofun ?_ hmarks
    simp only [List.forall_mem_cons]
    exact ⟨hentry (by decide) nofun, hentry (by decide) (hfixed _ (by decide)),
      hentry (by decide) hstrip, nofun⟩

theorem smilies_quiet_html (tag : UrlTag) {link : Text} (hlink : '<' ∉ link) (behind : Text) :
    smiliesPattern.Quiet (tag.html u link) behind := by
  have hlinked : ∀ {content address : Text}, '<' ∉ content → smiliesPattern.Quiet
      (makeTag "a" content [("rel", "nofollow".toList), ("href", address)] false) behind := by
    intro content address hcontent
    refine smilies_quiet_makeTag false rfl (by decide) (by decide) hcontent ?_ behind
    simp only [List.forall_mem_cons]
    exact ⟨by decide, by decide, nofun⟩
  have hescape : ∀ text, '<' ∉ escape text := fun text =>
    not_mem_escape (.inr (by decide)) (by decide)
  cases tag with
  | url => exact hlinked hlink
  | urlTitled title => exact hlinked (hescape title)
  | email => exact hlinked hlink
  | emailTitled title => exact hlinked (hescape title)
  | img =>
    refine smilies_quiet_makeTag true rfl (by decide) (by decide) List.not_mem_nil ?_ behind
    simp only [List.forall_mem_cons]
    exact ⟨by decide, by decide, by decide, by decide, nofun⟩
  | audio =>
    refine smilies_quiet_makeTag false rfl (by decide) (by decide) List.not_mem_nil ?_ behind
    simp only [List.forall_mem_cons]
    exact ⟨by decide, by decide, by decide, nofun⟩

/-- The tag up to the attribute with the URL. -/
def head : UrlTag → Text
  | img => '<' :: "img".toList ++ [("loading", "lazy".toList)].flatMap attrPart
  | audio =>
    '<' :: "audio".toList ++ [("controls", []), ("preload", "none".toList)].flatMap attrPart
  | _ => '<' :: "a".toList ++ [("rel", "nofollow".toList)].flatMap attrPart

theorem head_tails (tag : UrlTag) : ∀ t ∈ tag.head.tails, t = [] ∨
    ¬ ' ' :: tag.attributeName.toList ++ "=\"".toList <+:
      t ++ (' ' :: tag.attributeName.toList ++ "=\"".toList) := by
  have hlinked : ∀ t ∈ (head url).tails, t = [] ∨
      ¬ ' ' :: "href".toList ++ "=\"".toList <+: t ++ (' ' :: "href".toList ++ "=\"".toList) := by
    decide
  cases tag with
  | img => decide
  | audio => decide
  | url => exact hlinked
  | urlTitled title => exact hlinked
  | email => exact hlinked
  | emailTitled title => exact hlinked

theorem html_eq (tag : UrlTag) (link : Text) : ∃ rest, tag.html u link = tag.head ++
    (' ' :: tag.attributeName.toList ++ "=\"".toList ++
      (escape (tag.address u link) ++ '"' :: rest)) := by
  cases tag with
  | url => exact makeTag_eq "a" link [("rel", "nofollow".toList)] "href" link [] false
  | urlTitled title =>
    exact makeTag_eq "a" (escape title) [("rel", "nofollow".toList)] "href" link [] false
  | email =>
    exact makeTag_eq "a" link [("rel", "nofollow".toList)] "href" ("mailto:".toList ++ link) []
      false
  | emailTitled title =>
    exact makeTag_eq "a" (escape title) [("rel", "nofollow".toList)] "href"
      ("mailto:".toList ++ link) [] false
  | img =>
    exact makeTag_eq "img" [] [("loading", "lazy".toList)] "src" (u.strip link)
      [("alt", []), ("style", "max-width: 100%; height: auto;".toList)] true
  | audio =>
    exact makeTag_eq "audio" [] [("controls", []), ("preload", "none".toList)] "src"
      (u.strip link) [] false

end UrlTag

theorem delimiter_not_mem_result (hbefore : Plain before) (hafter : Plain after)
    (haccepts : Accepts u tag url after) :
    tag.delimiter ∉ escape before ++ (tag.html u (escape url) ++ escape after) := by
  have hescape : ∀ {text : Text}, tag.delimiter ∉ text → tag.delimiter ∉ escape text := fun htext =>
    not_mem_escape (.inl htext) tag.delimiter_not_mem
  have hplain : ∀ {text : Text}, Plain text → tag.delimiter ∉ text := by
    intro text htext
    cases tag.delimiter_eq with
    | inl h => exact h ▸ htext.1
    | inr h => exact h ▸ htext.2
  have hforeign : tag.delimiter ∈ UrlTag.foreign := by
    cases tag.delimiter_eq with
    | inl h => exact h ▸ by decide
    | inr h => exact h ▸ by decide
  refine List.not_mem_append (hescape (hplain hbefore)) (List.not_mem_append ?_
    (hescape (hplain hafter)))
  exact tag.not_mem_html hforeign (hescape haccepts.delimiter) (hescape (hplain haccepts.title.1))

/-- The patterns behind the pass of the tag find nothing.  A URL with an opening bracket stands in
a text without a closing one. -/
theorem later_quiet {β : Type} {m : Matcher Char β} {name : Text} (hbefore : Plain before)
    (hafter : Plain after) (haccepts : Accepts u tag url after) (hopens : u.Opens m name)
    (hcloses : tag.delimiter = ']' → Closes m) :
    m.Quiet (escape before ++ (tag.html u (escape url) ++ escape after)) [] := by
  have hdelimiter := delimiter_not_mem_result hbefore hafter haccepts
  cases tag.delimiter_eq with
  | inl h =>
    rw [h] at hdelimiter
    exact hopens.quiet hdelimiter []
  | inr h =>
    rw [h] at hdelimiter
    exact (hcloses h).quiet (by rwa [List.append_nil])

theorem later_quiet_rules {rules : List Rule} (hbefore : Plain before)
    (hafter : Plain after) (haccepts : Accepts u tag url after)
    (hcloses : tag.delimiter = ']' → ∀ r ∈ rules, Closes (u.rule r)) : ∀ m ∈ rules.map u.rule,
      m.Quiet (escape before ++ (tag.html u (escape url) ++ escape after)) [] := by
  intro m hm
  obtain ⟨r, hr, rfl⟩ := List.mem_map.mp hm
  exact later_quiet hbefore hafter haccepts (opens_rule r) fun h => hcloses h r hr

theorem closes_rules {rules : List Rule}
    (h : (rules.all fun r => decide (']' ∈ r.name)) = true) : ∀ r ∈ rules, Closes (u.rule r) := by
  intro r hr
  exact closes_of_name (of_decide_eq_true (List.all_eq_true.mp h r hr)) r.behind

theorem closes_sizePattern : Closes u.sizePattern :=
  closes_of_behind fun _ hplain => read_close _ _ hplain

theorem closes_lastRules : ∀ r ∈ u.lastRules, Closes (u.rule r) := by
  refine List.forall_mem_append.mpr ⟨closes_rules rfl, List.forall_mem_cons.mpr
    ⟨closes_of_name (show ']' ∈ "url]".toList by decide) _, List.forall_mem_cons.mpr
      ⟨closes_of_behind fun _ hplain => read_close _ _ hplain,
        List.forall_mem_append.mpr ⟨closes_rules rfl, ?_⟩⟩⟩⟩
  exact List.forall_mem_singleton.mpr (closes_of_behind fun _ hplain => read_close _ _ hplain)

/-! ## The whole text with a tag -/

variable (reference : Front Char Text)

/-- A tag of the passes before the size. -/
theorem parseBbcode_first (hbefore : Plain before) (hafter : Plain after)
    (haccepts : Accepts u tag url after) (earlier later : List Rule)
    (hrules : u.firstRules = earlier ++ tag.rule u :: later)
    (hearlier : tag.earlier u = u.imagemapPattern :: earlier.map u.rule)
    (hcloses : tag.delimiter = ']' → ∀ r ∈ later, Closes (u.rule r)) :
    u.parseBbcode reference (before ++ (tag.write url ++ after)) =
      some (lineBreaks (escape before ++ (tag.html u (escape url) ++ escape after))) := by
  have hquiet := earlier_quiet hbefore hafter haccepts
  rw [hearlier, List.forall_mem_cons] at hquiet
  have hsize : u.parseSize (escape before ++ (tag.html u (escape url) ++ escape after)) =
      some (escape before ++ (tag.html u (escape url) ++ escape after)) :=
    parseSize_of_quiet
      (later_quiet hbefore hafter haccepts (opens_matcher _ _) fun _ => closes_sizePattern)
      (later_quiet hbefore hafter haccepts (opens_rule _) fun _ => closes_of_name (by decide) _)
  have hsmilies : parseSmilies (escape before ++ (tag.html u (escape url) ++ escape after)) =
      escape before ++ (tag.html u (escape url) ++ escape after) := by
    have hescape : ∀ text, '<' ∉ escape text := fun text =>
      not_mem_escape (.inr (by decide)) (by decide)
    have hhtml : smiliesPattern.Quiet (escape before ++
        (tag.html u (escape url) ++ escape after)) [] :=
      Matcher.quiet_append.mpr ⟨smilies_quiet (hescape before) _, Matcher.quiet_append.mpr
        ⟨tag.smilies_quiet_html (hescape url) _, smilies_quiet (hescape after) _⟩⟩
    exact hhtml.sub_eq id
  rw [parseBbcode_eq, parseImagemap_of_quiet hquiet.1, hrules,
    rewrite_around hquiet.2 (apply_write hbefore hafter haccepts)
      (later_quiet_rules hbefore hafter haccepts hcloses), hsize, Option.map_some, hsmilies,
    rewrite_of_quiet
      (later_quiet_rules hbefore hafter haccepts fun _ => closes_lastRules)]
  cases before <;> exact List.cons_ne_nil _ _

/-- A tag of the passes behind the smilies. -/
theorem parseBbcode_last (hbefore : Plain before) (hafter : Plain after)
    (haccepts : Accepts u tag url after) (earlier later : List Rule)
    (hrules : u.lastRules = (lineRules ++ earlier) ++ tag.rule u :: later)
    (hearlier : tag.earlier u = u.imagemapPattern :: u.firstRules.map u.rule ++
      u.sizePattern :: u.rule sizeEnd :: lineRules.map u.rule ++ earlier.map u.rule)
    (hcloses : ∀ r ∈ later, Closes (u.rule r)) :
    u.parseBbcode reference (before ++ (tag.write url ++ after)) =
      some (lineBreaks (escape before ++ (tag.html u (escape url) ++ escape after))) := by
  have hquiet := earlier_quiet hbefore hafter haccepts
  simp only [hearlier, List.forall_mem_append, List.forall_mem_cons] at hquiet
  obtain ⟨⟨⟨himagemap, hfirst⟩, hsize, hend, hline⟩, hearlier⟩ := hquiet
  have hsmilies : parseSmilies (escape (before ++ (tag.write url ++ after))) =
      escape (before ++ (tag.write url ++ after)) :=
    (smilies_quiet (not_mem_escape (.inr (by decide)) (by decide)) []).sub_eq id
  have hbefore' : ∀ m ∈ (lineRules ++ earlier).map u.rule,
      m.Quiet (escape (before ++ (tag.write url ++ after))) [] := by
    rw [List.map_append, List.forall_mem_append]
    exact ⟨hline, hearlier⟩
  rw [parseBbcode_eq, parseImagemap_of_quiet himagemap, rewrite_of_quiet hfirst,
    parseSize_of_quiet hsize hend, Option.map_some, hsmilies, hrules,
    rewrite_around hbefore' (apply_write hbefore hafter haccepts)
      (later_quiet_rules hbefore hafter haccepts fun _ => hcloses)]
  cases before <;> exact List.cons_ne_nil _ _

theorem parseBbcode_write (hbefore : Plain before) (hafter : Plain after)
    (haccepts : Accepts u tag url after) :
    u.parseBbcode reference (before ++ (tag.write url ++ after)) =
      some (lineBreaks (escape before ++ (tag.html u (escape url) ++ escape after))) := by
  cases tag with
  | audio =>
    exact parseBbcode_first reference hbefore hafter haccepts _ _ rfl rfl
      fun h => absurd h (by decide)
  | email =>
    exact parseBbcode_first reference hbefore hafter haccepts _ _
      (List.append_assoc _ (_ :: _) _).symm rfl fun h => absurd h (by decide)
  | emailTitled title =>
    refine parseBbcode_first reference hbefore hafter haccepts
      (u.blockRules ++ u.audioRule :: u.styleRules ++ [u.emailRule]) u.imageRules ?_ rfl
      fun _ => closes_rules rfl
    simp only [firstRules, List.append_assoc, List.cons_append, List.nil_append]
    rfl
  | img =>
    refine parseBbcode_first reference hbefore hafter haccepts
      (u.blockRules ++ u.audioRule :: u.styleRules ++ [u.emailRule, u.emailTitledRule]) italicRules
      ?_ rfl fun h => absurd h (by decide)
    simp only [firstRules, imageRules, List.append_assoc, List.cons_append, List.nil_append]
    rfl
  | url =>
    refine parseBbcode_last reference hbefore hafter haccepts [] (u.urlTitledRule :: u.embedRules)
      rfl ?_ fun r hr => closes_lastRules r ?_
    · exact (List.append_nil _).symm
    · exact List.mem_append_right _ (List.mem_cons_of_mem _ hr)
  | urlTitled title =>
    refine parseBbcode_last reference hbefore hafter haccepts [u.urlRule] u.embedRules ?_ rfl
      fun r hr => closes_lastRules r ?_
    · simp only [lastRules, List.append_assoc, List.cons_append, List.nil_append]
      rfl
    · exact List.mem_append_right _ (List.mem_cons_of_mem _ (List.mem_cons_of_mem _ hr))

/-- The value of the attribute is the address of the escaped URL, escaped again. -/
theorem firstValue_write (before after : Text)
    (haccepts : Accepts u tag url after) (hline : '\n' ∉ url) :
    firstValue tag.attributeName
      (lineBreaks (escape before ++ (tag.html u (escape url) ++ escape after))) =
        some (escape (tag.address u (escape url))) := by
  have hescape : ∀ {text : Text}, '\n' ∉ text → '\n' ∉ escape text := fun htext =>
    not_mem_escape (.inl htext) (by decide)
  have hhtml : '\n' ∉ tag.html u (escape url) :=
    tag.not_mem_html (by decide) (hescape hline) (hescape haccepts.title.2)
  have hquote : ∀ text, '"' ∉ escape text := fun text =>
    not_mem_escape (.inr (by decide)) (by decide)
  obtain ⟨rest, hrest⟩ := tag.html_eq (u := u) (escape url)
  obtain ⟨behind, hhead⟩ : ∃ behind, tag.head = '<' :: behind := by
    cases tag <;> exact ⟨_, rfl⟩
  have hname : '<' ∉ tag.attributeName.toList := by
    have hnames : '<' ∉ "src".toList ∧ '<' ∉ "href".toList := by decide
    cases tag <;> first | exact hnames.1 | exact hnames.2
  rw [lineBreaks_append, lineBreaks_append, lineBreaks_eq_self hhtml, hrest, List.append_assoc,
    List.append_assoc, List.append_assoc (escape _), List.cons_append, ← List.append_assoc]
  refine firstValue_eq (hquote _) (Matcher.quiet_append.mpr ⟨?_, ?_⟩)
  · rw [hhead]
    exact attribute_quiet hname (not_mem_lineBreaks (hquote before) (by decide)) _
  · exact attribute_quiet_of_tails tag.head_tails _

/-- The text with the tag has an output, and the attribute of the tag, unescaped once, is the
address. -/
def Keeps (u : Tables) (reference : Front Char Text) (tag : UrlTag)
    (before after url address : Text) : Prop :=
  ∃ html value, u.parseBbcode reference (before ++ (tag.write url ++ after)) = some html ∧
    firstValue tag.attributeName html = some value ∧ unescape reference value = address

theorem toLower_of_not_isUpper {c : Char} (h : ¬ c.isUpper = true) : c.toLower = c := by
  simp only [Char.isUpper, decide_eq_true_eq] at h
  rw [Char.toLower, dif_neg h]

theorem isLower_toLower {c : Char} (h : c.isUpper = true) : c.toLower.isLower = true := by
  simp only [Char.isUpper, decide_eq_true_eq] at h
  rw [Char.toLower, dif_pos h]
  simp only [Char.isLower]
  grind [UInt32.le_iff_toNat_le, UInt32.toNat_add]

theorem toLower_eq_iff {a b : Char} (h : a.isAlpha = false) : a.toLower = b.toLower ↔ b = a := by
  rw [Char.isAlpha, Bool.or_eq_false_iff] at h
  rw [toLower_of_not_isUpper (by simp [h.1])]
  by_cases hb : b.isUpper = true
  · constructor
    · intro heq
      rw [heq, isLower_toLower hb] at h
      cases h.2
    · rintro rfl
      rw [hb] at h
      cases h.1
  · rw [toLower_of_not_isUpper hb]
    exact eq_comm

def asciiTables : Tables where
  toUnicode := ascii
  digit c := if c.isDigit then some (c.toNat - '0'.toNat) else none
  isBlank := Char.isWhitespace
  sameCase_ascii _ _ _ _ := rfl
  sameCase_uncased _ _ _ halpha := beq_iff_eq.trans (toLower_eq_iff halpha)

/-- The references that `html.escape` writes. -/
def escapeReference : Front Char Text :=
  let read (word : String) (c : Char) : Front Char Text := do
    Front.exact word.toList
    pure [c]
  (((read "amp;" '&').or (read "lt;" '<')).or (read "gt;" '>')).or
    ((read "quot;" '"').or (read "#x27;" '\''))

end Soms.Bbcode

import Soms.Bbcode.Patterns

/-!
# Where the passes find a tag

A pattern finds a match only where a bracket opens with its word, so that most passes leave a
text as it is.
-/

namespace Soms.Bbcode

open Scanner

/-! ## Where a pattern begins -/

/-- The words differ in a place by more than the case of a letter. -/
def clash : Text → Text → Bool
  | p :: ps, c :: cs =>
    (decide (p.toNat < 128) && decide (c.toNat < 128) && p.toLower != c.toLower) || clash ps cs
  | _, _ => false

namespace Tables

variable {u : Tables} {β : Type} {m : Matcher Char β} {name : Text}

theorem literal_of_clash {w other : Text} (h : clash w other = true) (rest : Text) :
    u.literal w (other ++ rest) = none := by
  induction w generalizing other with
  | nil => cases h
  | cons p ps ih =>
    cases other with
    | nil => cases h
    | cons c cs =>
      rw [List.cons_append, Unicode.literal]
      split
      · rename_i hc
        simp only [clash, Bool.or_eq_true, Bool.and_eq_true, decide_eq_true_eq, bne_iff_ne] at h
        cases h with
        | inl h =>
          rw [u.sameCase_ascii p c h.1.1 h.1.2, beq_iff_eq] at hc
          exact absurd hc h.2
        | inr h => exact ih h
      · rfl

theorem literal_bracket {c : Char} (hc : c ≠ '[') (cs : Text) :
    u.literal ('[' :: name) (c :: cs) = none := by
  have hcase : ¬ u.sameCase '[' c = true := by
    rw [u.sameCase_uncased '[' c (by decide) (by decide)]
    exact hc
  rw [Unicode.literal, if_neg hcase]

/-- A character without case is in what a word with it matches. -/
theorem mem_of_literal {w text rest : Text} {a : Char} (ha : a.toNat < 128)
    (halpha : a.isAlpha = false) (hmem : a ∈ w) (h : u.literal w text = some rest) : a ∈ text := by
  induction w generalizing text with
  | nil => cases hmem
  | cons p ps ih =>
    cases text with
    | nil => cases h
    | cons c cs =>
      rw [Unicode.literal] at h
      split at h
      · rename_i hc
        cases List.mem_cons.mp hmem with
        | inl heq =>
          subst heq
          rw [(u.sameCase_uncased a c ha halpha).mp hc]
          exact List.mem_cons_self
        | inr hps => exact List.mem_cons_of_mem _ (ih hps h)
      · cases h

/-- The pattern matches only behind an opening bracket and a word. -/
def Opens (u : Tables) (m : Matcher Char β) (name : Text) : Prop :=
  ∀ text, u.literal ('[' :: name) text = none → m.front text = none

theorem opens_matcher (name : Text) (behind : Front Char β) :
    u.Opens (u.matcher name behind) name := by
  intro text h
  simp [matcher, h]

theorem opens_imagemap : u.Opens u.imagemapPattern "imagemap]".toList := by
  intro text h
  rw [Unicode.imagemapPattern]
  exact Option.bind_eq_none_iff.mpr fun rest hrest => nomatch h.symm.trans hrest

theorem Opens.quiet (h : u.Opens m name) {text : Text} (hplain : '[' ∉ text) (behind : Text) :
    m.Quiet text behind := by
  intro c cs hsuffix
  have hc : c ≠ '[' := fun heq => hplain (hsuffix.subset (heq ▸ List.mem_cons_self))
  exact h _ (literal_bracket hc _)

theorem Opens.quiet_tag (h : u.Opens m name) {other : Text} (hclash : clash name other = true)
    (hplain : '[' ∉ other) (behind : Text) : m.Quiet ('[' :: other) behind := by
  rw [Matcher.quiet_cons]
  refine ⟨h _ ?_, h.quiet hplain behind⟩
  rw [Unicode.literal, if_pos (u.sameCase_self '[')]
  exact literal_of_clash hclash behind

/-- The pattern matches only a text with a closing bracket. -/
def Closes (m : Matcher Char β) : Prop := ∀ text, ']' ∉ text → m.front text = none

theorem Closes.quiet (h : Closes m) {text behind : Text} (hplain : ']' ∉ text ++ behind) :
    m.Quiet text behind := by
  intro c cs hsuffix
  refine h _ fun hmem => hplain ?_
  rw [← List.cons_append] at hmem
  cases List.mem_append.mp hmem with
  | inl hmem => exact List.mem_append_left _ (hsuffix.subset hmem)
  | inr hmem => exact List.mem_append_right _ hmem

theorem closes_of_name (hname : ']' ∈ name) (behind : Front Char β) :
    Closes (u.matcher name behind) := by
  intro text hplain
  rw [matcher, Option.bind_eq_none_iff]
  intro rest hrest
  exact absurd (mem_of_literal (by decide) (by decide) (List.mem_cons_of_mem _ hname) hrest) hplain

theorem closes_of_behind {behind : Front Char β}
    (h : ∀ text, ']' ∉ text → behind.read text = none) : Closes (u.matcher name behind) := by
  intro text hplain
  rw [matcher, Option.bind_eq_none_iff]
  intro rest hrest
  exact h rest fun hmem => hplain ((Unicode.literal_suffix hrest).subset hmem)

/-- A reader that goes on with a closing bracket. -/
theorem read_close {α : Type} (x : Front Char α) (k : α → Unit → Front Char β) {text : Text}
    (hplain : ']' ∉ text) : (x >>= fun a => u.word "]" >>= k a).read text = none := by
  simp only [Front.read_bind, Option.bind_eq_none_iff]
  intro first hfirst behind hbehind
  simp only [word, Option.map_eq_some_iff] at hbehind
  obtain ⟨rest, hrest, _⟩ := hbehind
  have hmem : ']' ∈ first.2 := mem_of_literal (by decide) (by decide) (by decide) hrest
  exact absurd ((x.suffix hfirst).subset hmem) hplain

/-! ## The order of the passes -/

def rule (u : Tables) (r : Rule) : Matcher Char Text := u.matcher r.name r.behind

theorem opens_rule (r : Rule) : u.Opens (u.rule r) r.name := opens_matcher r.name r.behind

theorem apply_of_quiet {r : Rule} {text : Text} (h : (u.rule r).Quiet text []) :
    u.apply text r = text := h.sub_eq id

theorem rewrite_append (first others : List Rule) (text : Text) :
    u.rewrite (first ++ others) text = u.rewrite others (u.rewrite first text) :=
  List.foldl_append

theorem rewrite_of_quiet {rules : List Rule} {text : Text}
    (h : ∀ m ∈ rules.map u.rule, m.Quiet text []) : u.rewrite rules text = text := by
  induction rules with
  | nil => rfl
  | cons r rs ih =>
    rw [List.map_cons, List.forall_mem_cons] at h
    rw [rewrite, List.foldl_cons, apply_of_quiet h.1]
    exact ih h.2

theorem rewrite_nil (text : Text) : u.rewrite [] text = text := by rw [rewrite, List.foldl_nil]

theorem rewrite_cons (r : Rule) (rs : List Rule) (text : Text) :
    u.rewrite (r :: rs) text = u.rewrite rs (u.apply text r) := by
  rw [rewrite, rewrite, List.foldl_cons]

/-- The patterns of one rule among others that find nothing. -/
theorem rewrite_around {before after : List Rule} {r : Rule} {text result : Text}
    (hbefore : ∀ m ∈ before.map u.rule, m.Quiet text []) (happly : u.apply text r = result)
    (hafter : ∀ m ∈ after.map u.rule, m.Quiet result []) :
    u.rewrite (before ++ r :: after) text = result := by
  rw [rewrite_append, rewrite_of_quiet hbefore, rewrite, List.foldl_cons, happly]
  exact rewrite_of_quiet hafter

variable (u)

def blockRules : List Rule :=
  u.boxRules ++ u.codeRules ++ u.listRules ++ u.noticeRules ++ u.quoteRules ++ u.headingRules

/-- The patterns between the audio tag and the address tags. -/
def styleRules : List Rule := boldRules ++ centreRules ++ inlineCodeRules ++ u.colourRules

/-- The patterns behind the address tags, before the size. -/
def imageRules : List Rule := u.imageRule :: italicRules

def sizeEnd : Rule := .plain "/size]" "</span>"

/-- The patterns between the smilies and the link tags. -/
def lineRules : List Rule := spoilerRules ++ strikeRules ++ underlineRules

def embedRules : List Rule := u.youtubeRules ++ u.profileRules

/-- The patterns before the size. -/
def firstRules : List Rule :=
  u.blockRules ++ u.audioRule ::
    (u.styleRules ++ u.emailRule :: u.emailTitledRule :: u.imageRules)

/-- The patterns behind the smilies. -/
def lastRules : List Rule := lineRules ++ u.urlRule :: u.urlTitledRule :: u.embedRules

variable {u}

theorem parseBbcode_eq (reference : Front Char Text) {text : Text} (h : text ≠ []) :
    u.parseBbcode reference text =
      (u.parseSize (u.rewrite u.firstRules
        (u.parseImagemap (unescape reference) (escape text)))).map fun text =>
          lineBreaks (u.rewrite u.lastRules (parseSmilies text)) := by
  rw [parseBbcode, if_neg h]
  simp only [parseBox, parseCode, parseList, parseNotice, parseQuote, parseHeading, parseAudio,
    parseBold, parseCentre, parseInlineCode, parseColour, parseEmail, parseImage, parseItalic,
    parseSpoiler, parseStrike, parseUnderline, parseUrl, parseYoutube, parseProfile, firstRules,
    lastRules, blockRules, styleRules, imageRules, lineRules, embedRules, rewrite_append,
    rewrite_cons, rewrite_nil, Option.bind_eq_bind, Option.map_eq_bind, Option.pure_def, Function.comp_def]

theorem parseImagemap_of_quiet {unescape : Text → Text} {text : Text}
    (h : u.imagemapPattern.Quiet text []) : u.parseImagemap unescape text = text :=
  h.sub_eq _

theorem parseSize_of_quiet {text : Text} (hsize : u.sizePattern.Quiet text [])
    (hend : (u.rule sizeEnd).Quiet text []) : u.parseSize text = some text := by
  have hrewrite : u.rewrite [sizeEnd] text = text := rewrite_of_quiet (by simpa using hend)
  rw [parseSize, hsize.findAll_eq, hsize.sub_eq, if_pos nofun]
  exact congrArg some hrewrite

end Tables

end Soms.Bbcode

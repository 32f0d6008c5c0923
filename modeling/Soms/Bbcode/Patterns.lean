import Soms.Bbcode.Html
import Soms.Bbcode.Imagemap
import Soms.Library.Front

/-!
# The passes of the BBCode service

`parse_bbcode` escapes a text and runs the pattern of one tag after the other over it.
-/

namespace Soms.Bbcode

open Scanner

/-- The tables of Unicode, with those behind `\d` and `\s`.  A character of ASCII without case is
matched by itself alone, and the letters of ASCII by the two cases of each. -/
structure Tables extends Unicode where
  digit : Char → Option Nat
  isBlank : Char → Bool
  sameCase_ascii : ∀ a b : Char, a.toNat < 128 → b.toNat < 128 →
    sameCase a b = (a.toLower == b.toLower)
  sameCase_uncased : ∀ a b : Char, a.toNat < 128 → a.isAlpha = false →
    (sameCase a b = true ↔ b = a)

/-- A pattern behind an opening bracket: the word it goes on with, and what the rest of a match is
replaced by, together with the word. -/
structure Rule where
  name : Text
  behind : Front Char Text

/-- A pattern of one word. -/
def Rule.plain (name html : String) : Rule := ⟨name.toList, pure html.toList⟩

def anyChar : Char → Bool := fun _ => true

/-- `.` without DOTALL -/
def dot (c : Char) : Bool := c != '\n'

/-- `$` -/
def atEnd : Front Char Unit where
  read text := if text = [] ∨ text = ['\n'] then some ((), text) else none
  suffix := by
    intro text rest found h
    split at h
    · cases h
      exact List.suffix_refl _
    · cases h

namespace Tables

variable (u : Tables)

def isDigit (c : Char) : Bool := (u.digit c).isSome

/-- A word, whatever the case of its letters. -/
def word (w : String) : Front Char Unit where
  read text := (u.literal w.toList text).map fun rest => ((), rest)
  suffix := by
    intro text rest found h
    simp only [Option.map_eq_some_iff, Prod.mk.injEq, true_and] at h
    obtain ⟨behind, hbehind, rfl⟩ := h
    exact Unicode.literal_suffix hbehind

def matcher {β : Type} (name : Text) (behind : Front Char β) : Matcher Char β where
  front text := (u.literal ('[' :: name) text).bind behind.read
  suffix := by
    intro c cs rest found h
    obtain ⟨text, htext, hrest⟩ := Option.bind_eq_some_iff.mp h
    rw [Unicode.literal] at htext
    split at htext
    · exact (behind.suffix hrest).trans (Unicode.literal_suffix htext)
    · cases htext

def apply (text : Text) (rule : Rule) : Text := (u.matcher rule.name rule.behind).sub id text

/-- The text with the patterns replaced one after the other. -/
def rewrite (rules : List Rule) (text : Text) : Text := rules.foldl u.apply text

/-! ## Blocks -/

def boxIcon : Text := makeTag "span" [] [("class", "bbcode-spoilerbox__link-icon".toList)] false

/-- What stands for a box of either kind. -/
def replaceBox (title content : Text) : Text :=
  let button := makeTag "button" (boxIcon ++ title)
    [("type", "button".toList),
      ("class", "js-spoilerbox__link bbcode-spoilerbox__link".toList),
      ("style", ("background: none; border: none; cursor: pointer; padding: 0; " ++
        "text-align: left; width: 100%;").toList)] false
  let body := makeTag "div" content
    [("class", "js-spoilerbox__body bbcode-spoilerbox__body".toList)] false
  makeTag "div" (button ++ body) [("class", "js-spoilerbox bbcode-spoilerbox".toList)] false

/-- `\[box=([^\]]+)\](.*?)\[/box\]` and `\[spoilerbox\](.*?)\[/spoilerbox\]` -/
def boxRules : List Rule :=
  [⟨"box=".toList, do
      let title ← Front.many1 (· != ']')
      u.word "]"
      Front.lazily anyChar fun content => do
        u.word "[/box]"
        pure (replaceBox title content)⟩,
    ⟨"spoilerbox]".toList, Front.lazily anyChar fun content => do
      u.word "[/spoilerbox]"
      pure (replaceBox "SPOILER".toList content)⟩]

def parseBox (text : Text) : Text := u.rewrite u.boxRules text

/-- What is between two tags, without the line feeds at its ends. -/
def betweenLines (close : String) (replace : Text → Text) : Front Char Text := do
  let _ ← Front.many (· == '\n')
  Front.lazily anyChar fun content => do
    let _ ← Front.many (· == '\n')
    u.word close
    pure (replace content)

/-- `\[code\]\n*(.*?)\n*\[/code\]` -/
def codeRules : List Rule :=
  [⟨"code]".toList, u.betweenLines "[/code]" fun content => makeTag "pre" content [] false⟩]

def parseCode (text : Text) : Text := u.rewrite u.codeRules text

/-- `\[list=1\](.*?)\[/list\]`, `\[list\](.*?)\[/list\]` and
`\[\*\]\s*(.*?)(?=\[\*\]|\[/list\]|$)` -/
def listRules : List Rule :=
  [⟨"list=1]".toList, Front.lazily anyChar fun content => do
      u.word "[/list]"
      pure (makeTag "ol" content [] false)⟩,
    ⟨"list]".toList, Front.lazily anyChar fun content => do
      u.word "[/list]"
      pure (makeTag "ol" content [("class", "unordered".toList)] false)⟩,
    ⟨"*]".toList, do
      let _ ← Front.many u.isBlank
      Front.lazily anyChar fun content => do
        Front.ahead (((u.word "[*]").or (u.word "[/list]")).or atEnd)
        pure (makeTag "li" content [] false)⟩]

def parseList (text : Text) : Text := u.rewrite u.listRules text

/-- `\[notice\]\n*(.*?)\n*\[/notice\]` -/
def noticeRules : List Rule :=
  [⟨"notice]".toList, u.betweenLines "[/notice]" fun content =>
      makeTag "div" content [("class", "well".toList)] false⟩]

def parseNotice (text : Text) : Text := u.rewrite u.noticeRules text

/-- `\s*(.*?)\s*\[/quote\]` -/
def quoted (replace : Text → Text) : Front Char Text := do
  let _ ← Front.many u.isBlank
  Front.lazily anyChar fun content => do
    let _ ← Front.many u.isBlank
    u.word "[/quote]"
    pure (replace content)

/-- `(?:&quot;|")` -/
def quoteMark : Front Char Unit := (u.word "&quot;").or (u.word "\"")

/-- `\[quote=(?:&quot;|")(.+?)(?:&quot;|")\]\s*(.*?)\s*\[/quote\]` and
`\[quote\]\s*(.*?)\s*\[/quote\]` -/
def quoteRules : List Rule :=
  [⟨"quote=".toList, do
      u.quoteMark
      let first ← Front.exactly 1 anyChar
      Front.lazily anyChar fun others => do
        u.quoteMark
        u.word "]"
        let heading := makeTag "h4" (first ++ others ++ " wrote:".toList) [] false
        u.quoted fun content => makeTag "blockquote" (heading ++ content) [] false⟩,
    ⟨"quote]".toList, u.quoted fun content => makeTag "blockquote" content [] false⟩]

def parseQuote (text : Text) : Text := u.rewrite u.quoteRules text

/-- `\[heading\](.*?)\[/heading\]` -/
def headingRules : List Rule :=
  [⟨"heading]".toList, Front.lazily dot fun content => do
      u.word "[/heading]"
      pure (makeTag "h2" content [] false)⟩]

def parseHeading (text : Text) : Text := u.rewrite u.headingRules text

/-! ## Inline tags -/

/-- `([^\[]+)` and the end of its tag. -/
def unbracketed (close : String) (replace : Text → Text) : Front Char Text := do
  let content ← Front.many1 (· != '[')
  u.word close
  pure (replace content)

/-- `([^\]]+)\](.*?)` and the end of its tag. -/
def titled (close : String) (replace : Text → Text → Text) : Front Char Text := do
  let value ← Front.many1 (· != ']')
  u.word "]"
  Front.lazily dot fun content => do
    u.word close
    pure (replace value content)

def replaceAudio (content : Text) : Text :=
  makeTag "audio" [] [("controls", []), ("preload", "none".toList), ("src", u.strip content)] false

/-- `\[audio\]([^\[]+)\[/audio\]` -/
def audioRule : Rule := ⟨"audio]".toList, u.unbracketed "[/audio]" u.replaceAudio⟩

def parseAudio (text : Text) : Text := u.rewrite [u.audioRule] text

def boldRules : List Rule := [.plain "b]" "<strong>", .plain "/b]" "</strong>"]

def parseBold (text : Text) : Text := u.rewrite boldRules text

def centreRules : List Rule :=
  [.plain "centre]" "<center>", .plain "/centre]" "</center>",
    .plain "center]" "<center>", .plain "/center]" "</center>"]

def parseCentre (text : Text) : Text := u.rewrite centreRules text

def inlineCodeRules : List Rule := [.plain "c]" "<code>", .plain "/c]" "</code>"]

def parseInlineCode (text : Text) : Text := u.rewrite inlineCodeRules text

/-- `\[color=([^\]]+)\](.*?)\[/color\]` -/
def colourRules : List Rule :=
  [⟨"color=".toList, u.titled "[/color]" fun colour content =>
      makeTag "span" content [("style", "color:".toList ++ colour)] false⟩]

def parseColour (text : Text) : Text := u.rewrite u.colourRules text

def replaceEmail (email content : Text) : Text :=
  makeTag "a" content [("rel", "nofollow".toList), ("href", "mailto:".toList ++ email)] false

/-- `\[email\]([^\[]+)\[/email\]` -/
def emailRule : Rule :=
  ⟨"email]".toList, u.unbracketed "[/email]" fun email => replaceEmail email email⟩

/-- `\[email=([^\]]+)\](.*?)\[/email\]` -/
def emailTitledRule : Rule := ⟨"email=".toList, u.titled "[/email]" replaceEmail⟩

def parseEmail (text : Text) : Text := u.rewrite [u.emailRule, u.emailTitledRule] text

def replaceImage (content : Text) : Text :=
  makeTag "img" []
    [("loading", "lazy".toList), ("src", u.strip content), ("alt", []),
      ("style", "max-width: 100%; height: auto;".toList)] true

/-- `\[img\]([^\[]+)\[/img\]` -/
def imageRule : Rule := ⟨"img]".toList, u.unbracketed "[/img]" u.replaceImage⟩

def parseImage (text : Text) : Text := u.rewrite [u.imageRule] text

def italicRules : List Rule := [.plain "i]" "<em>", .plain "/i]" "</em>"]

def parseItalic (text : Text) : Text := u.rewrite italicRules text

/-- `int` of digits -/
def value (digits : Text) : Nat :=
  digits.foldl (fun n c => 10 * n + (u.digit c).getD 0) 0

/-- The numerals longer than which `int` refuses. -/
def maxDigits : Nat := 4300

def replaceSize (digits : Text) : Text :=
  -- limit font size range (30-200%)
  let size := max 30 (min 200 (u.value digits))
  makeTag "span" [] [("style", "font-size:".toList ++ (toString size).toList ++ ['%'])] false

/-- `\[size=(\d+)\]` -/
def sizePattern : Matcher Char Text :=
  u.matcher "size=".toList do
    let digits ← Front.many1 u.isDigit
    u.word "]"
    pure digits

/-- `_parse_size`, which has no result where `int` refuses. -/
def parseSize (text : Text) : Option Text :=
  if ∀ digits ∈ u.sizePattern.findAll text, digits.length ≤ maxDigits then
    some (u.rewrite [.plain "/size]" "</span>"] (u.sizePattern.sub u.replaceSize text))
  else none

/-- `<!-- s(.*?) --><img src=\"\{SMILIES_PATH\}/(.*?) /><!-- s\1 -->` -/
def smiliesPattern : Matcher Char Text where
  front text := (after "<!-- s".toList text).bind (Front.lazily dot fun kind => do
    Front.exact " --><img src=\"{SMILIES_PATH}/".toList
    Front.lazily dot fun path => do
      Front.exact (" /><!-- s".toList ++ kind ++ " -->".toList)
      pure ("<img class=\"smiley\" src=\"/smilies/".toList ++ path ++ " />".toList)).read
  suffix := by
    intro c cs rest found h
    obtain ⟨text, htext, hrest⟩ := Option.bind_eq_some_iff.mp h
    rw [after_eq_some] at htext
    obtain ⟨_, hcs⟩ := List.cons_eq_cons.mp htext
    rw [hcs]
    exact (Front.suffix _ hrest).trans (List.suffix_append _ _)

def parseSmilies (text : Text) : Text := smiliesPattern.sub id text

def spoilerRules : List Rule :=
  [.plain "spoiler]" "<span class='spoiler'>", .plain "/spoiler]" "</span>"]

def parseSpoiler (text : Text) : Text := u.rewrite spoilerRules text

def strikeRules : List Rule :=
  [.plain "s]" "<del>", .plain "/s]" "</del>", .plain "strike]" "<del>", .plain "/strike]" "</del>"]

def parseStrike (text : Text) : Text := u.rewrite strikeRules text

def underlineRules : List Rule := [.plain "u]" "<u>", .plain "/u]" "</u>"]

def parseUnderline (text : Text) : Text := u.rewrite underlineRules text

def replaceUrl (url content : Text) : Text :=
  makeTag "a" content [("rel", "nofollow".toList), ("href", url)] false

/-- `\[url\]([^\[]+)\[/url\]` -/
def urlRule : Rule := ⟨"url]".toList, u.unbracketed "[/url]" fun url => replaceUrl url url⟩

/-- `\[url=([^\]]+)\](.*?)\[/url\]` -/
def urlTitledRule : Rule := ⟨"url=".toList, u.titled "[/url]" replaceUrl⟩

def parseUrl (text : Text) : Text := u.rewrite [u.urlRule, u.urlTitledRule] text

/-- `[a-zA-Z0-9_-]` -/
def isVideoChar (c : Char) : Bool :=
  "abcdefghijklmnopqrstuvwxyzABCDEFGHIJKLMNOPQRSTUVWXYZ0123456789_-".toList.any (u.sameCase · c)

/-- `\[youtube\]([a-zA-Z0-9_-]{11})\[/youtube\]` -/
def youtubeRules : List Rule :=
  [⟨"youtube]".toList, do
      let videoId ← Front.exactly 11 u.isVideoChar
      u.word "[/youtube]"
      pure (makeTag "iframe" []
        [("class", "u-embed-wide u-embed-wide--bbcode".toList),
          ("src", "https://www.youtube.com/embed/".toList ++ videoId ++ "?rel=0".toList),
          ("allowfullscreen", [])] false)⟩]

def parseYoutube (text : Text) : Text := u.rewrite u.youtubeRules text

def replaceProfile (userId : Option Text) (username : Text) : Text :=
  match userId with
  | some userId =>
    makeTag "a" username
      [("href", "/users/".toList ++ userId), ("class", "user-profile-link".toList),
        ("data-user-id", userId)] false
  | none =>
    makeTag "a" ('@' :: username)
      [("href", "/users/@".toList ++ username), ("class", "user-profile-link".toList)] false

/-- `\[profile(?:=(\d+))?\](.*?)\[/profile\]` -/
def profileRules : List Rule :=
  [⟨"profile".toList, do
      let userId ← Front.optional do
        u.word "="
        Front.many1 u.isDigit
      u.word "]"
      Front.lazily dot fun username => do
        u.word "[/profile]"
        pure (replaceProfile userId username)⟩]

def parseProfile (text : Text) : Text := u.rewrite u.profileRules text

/-! ## The whole text -/

/-- An ampersand and the character reference behind it. -/
def referencePattern (reference : Front Char Text) : Matcher Char Text where
  front text := (after ['&'] text).bind reference.read
  suffix := by
    intro c cs rest found h
    obtain ⟨text, htext, hrest⟩ := Option.bind_eq_some_iff.mp h
    rw [after_eq_some, List.singleton_append, List.cons_eq_cons] at htext
    rw [htext.2]
    exact reference.suffix hrest

/-- `html.unescape` with a reader of the character references. -/
def unescape (reference : Front Char Text) (text : Text) : Text :=
  (referencePattern reference).sub id text

/-- `text.replace("\n", "<br />")` -/
def lineBreaks (text : Text) : Text :=
  text.flatMap fun c => if c = '\n' then "<br />".toList else [c]

/-- `parse_bbcode`, without the time limit of the patterns. -/
def parseBbcode (reference : Front Char Text) (text : Text) : Option Text :=
  if text = [] then some []
  else do
    let text := escape text
    let text := u.parseImagemap (unescape reference) text
    let text := u.parseBox text
    let text := u.parseCode text
    let text := u.parseList text
    let text := u.parseNotice text
    let text := u.parseQuote text
    let text := u.parseHeading text
    -- inline tags
    let text := u.parseAudio text
    let text := u.parseBold text
    let text := u.parseCentre text
    let text := u.parseInlineCode text
    let text := u.parseColour text
    let text := u.parseEmail text
    let text := u.parseImage text
    let text := u.parseItalic text
    let text ← u.parseSize text
    let text := parseSmilies text
    let text := u.parseSpoiler text
    let text := u.parseStrike text
    let text := u.parseUnderline text
    let text := u.parseUrl text
    let text := u.parseYoutube text
    let text := u.parseProfile text
    return lineBreaks text

end Tables

end Soms.Bbcode

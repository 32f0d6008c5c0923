import Mathlib.Data.List.Infix
import Soms.Library.Scanner
import Soms.Library.Structured

/-!
# The asset proxy

`replace_asset_urls` rewrites the strings of a nested structure.  The patterns for the audio
previews ask for a backslash that no address has, and the pattern for the beatmap host is not
anchored, so that the previews go to the beatmap host instead of the audio route.
-/

namespace Soms.AssetProxy

open Scanner

abbrev Text := List Char

/-- The characters of a literal of the source. -/
@[irreducible] def chars (literal : String) : Text := literal.toList

/-- An address on a host. -/
def hostUrl (name : Text) : Text := chars "https://" ++ name ++ ['/']

/-- The fields of `settings` the proxy reads.  The names of the proxy's hosts are names of hosts,
none of them an upstream one, and `re.sub` reads no escapes in what it puts in. -/
structure Settings where
  serverUrl : Text
  customAssetDomain : Text
  assetProxyPrefix : Text
  avatarProxyPrefix : Text
  beatmapProxyPrefix : Text
  enableAssetProxy : Bool
  server_scheme : chars "http" <+: serverUrl
  server_upstream : ¬ chars "https://a.ppy.sh/" <+: serverUrl
  server_beatmap : ¬ chars "https://b.ppy.sh/" <:+: serverUrl
  server_escape : '\\' ∉ serverUrl
  host_plain : ∀ name ∈ [assetProxyPrefix, avatarProxyPrefix, beatmapProxyPrefix],
    ∀ c ∈ ['/', ':', '\\'], c ∉ name ++ '.' :: customAssetDomain
  host_upstream : ∀ name ∈ [assetProxyPrefix, avatarProxyPrefix, beatmapProxyPrefix],
    name ++ '.' :: customAssetDomain ∉
      [chars "assets.ppy.sh", chars "a.ppy.sh", chars "b.ppy.sh"]

/-- The defaults of `Settings`, with the proxy enabled. -/
def defaults : Settings where
  serverUrl := chars "http://localhost:8000/"
  customAssetDomain := chars "assets.ppy.sh"
  assetProxyPrefix := chars "assets-ppy"
  avatarProxyPrefix := chars "a-ppy"
  beatmapProxyPrefix := chars "b-ppy"
  enableAssetProxy := true
  server_scheme := by decide +kernel
  server_upstream := by decide +kernel
  server_beatmap h :=
    absurd (h.subset (by simp [chars] : 'b' ∈ chars "https://b.ppy.sh/")) (by simp [chars])
  server_escape := by decide +kernel
  host_plain := by simp [chars]
  host_upstream := by simp [chars]

/-- `(\d+)\\.mp3` behind the start of an address: the digits and the text behind.  The pattern
asks for a backslash and one more character in front of `mp3`. -/
def audioFront (isDecimal : Char → Bool) (start value : Text) : Option (Text × Text) :=
  (after start value).bind fun behind =>
    match behind.takeWhile isDecimal, behind.dropWhile isDecimal with
    | d :: digits, '\\' :: c :: 'm' :: 'p' :: '3' :: rest =>
      if c = '\n' then none else some (d :: digits, rest)
    | _, _ => none

namespace Settings

variable (settings : Settings)

def proxyUrl (name : Text) : Text := hostUrl (name ++ '.' :: settings.customAssetDomain)

def audioProxyBaseUrl : Text := settings.serverUrl ++ chars "api/private/audio/beatmapset"

/-- One anchored substitution of the audio patterns. -/
def replaceAudio (isDecimal : Char → Bool) (start value : Text) : Text :=
  match audioFront isDecimal start value with
  | some (digits, rest) => settings.audioProxyBaseUrl ++ '/' :: digits ++ rest
  | none => value

/-- One anchored substitution of a host. -/
def replaceHost (start name value : Text) : Text :=
  match after start value with
  | some rest => settings.proxyUrl name ++ rest
  | none => value

/-- The last substitution.  It is not anchored. -/
def replaceBeatmapHost (value : Text) : Text :=
  (word 'h' (chars "ttps://b.ppy.sh/")).sub
    (fun _ => settings.proxyUrl settings.beatmapProxyPrefix) value

/-- `_replace_asset_urls_in_string` -/
def replaceAssetUrlsInString (isDecimal : Char → Bool) (value : Text) : Text :=
  let result := settings.replaceHost (chars "https://assets.ppy.sh/") settings.assetProxyPrefix
    value
  let result := settings.replaceAudio isDecimal (chars "https://b.ppy.sh/preview/") result
  let result := settings.replaceAudio isDecimal (chars "//b.ppy.sh/preview/") result
  let result := settings.replaceHost (chars "https://a.ppy.sh/") settings.avatarProxyPrefix result
  settings.replaceBeatmapHost result

end Settings

/-- The nested data of a response. -/
abbrev Data (κ α : Type) := Structured.Data κ Text α

/-- `replace_asset_urls` on data without models. -/
def replaceAssetUrls {κ α : Type} (settings : Settings) (isDecimal : Char → Bool)
    (data : Data κ α) : Data κ α :=
  if settings.enableAssetProxy then data.mapText (settings.replaceAssetUrlsInString isDecimal)
  else data

/-- The addresses of the preview of a set. -/
def httpsPreview (n : ℕ) : Text :=
  chars "https://b.ppy.sh/preview/" ++ (Nat.toDigits 10 n ++ chars ".mp3")

def slashPreview (n : ℕ) : Text :=
  chars "//b.ppy.sh/preview/" ++ (Nat.toDigits 10 n ++ chars ".mp3")

/-- The audio proxy route for a set. -/
def Settings.audioRoute (settings : Settings) (n : ℕ) : Text :=
  settings.audioProxyBaseUrl ++ '/' :: Nat.toDigits 10 n

/-- A string that is none of the addresses to be rewritten. -/
structure Untouched (value : Text) : Prop where
  https_preview : ∀ n, value ≠ httpsPreview n
  slash_preview : ∀ n, value ≠ slashPreview n
  asset : ¬ chars "https://assets.ppy.sh/" <+: value
  avatar : ¬ chars "https://a.ppy.sh/" <+: value

/-- What the proxy is for: the previews go to the audio route, the asset and the avatar host at
the start of a string to the proxy's hosts, and every other string stays. -/
inductive Proxied (settings : Settings) : Text → Text → Prop
  | httpsPreview (n : ℕ) : Proxied settings (httpsPreview n) (settings.audioRoute n)
  | slashPreview (n : ℕ) : Proxied settings (slashPreview n) (settings.audioRoute n)
  | asset (rest : Text) : Proxied settings (chars "https://assets.ppy.sh/" ++ rest)
      (settings.proxyUrl settings.assetProxyPrefix ++ rest)
  | avatar (rest : Text) : Proxied settings (chars "https://a.ppy.sh/" ++ rest)
      (settings.proxyUrl settings.avatarProxyPrefix ++ rest)
  | other {value : Text} (h : Untouched value) : Proxied settings value value

/-- Every string of the data is proxied, the shape stays, and to do it again changes nothing. -/
structure Reached {κ α : Type} (settings : Settings) (isDecimal : Char → Bool)
    (data : Data κ α) : Prop where
  proxied : ∃ f : Text → Text, replaceAssetUrls settings isDecimal data = data.mapText f ∧
    ∀ value ∈ data.texts, Proxied settings value (f value)
  idempotent : replaceAssetUrls settings isDecimal (replaceAssetUrls settings isDecimal data) =
    replaceAssetUrls settings isDecimal data

/-- A string the patterns do right by: the beatmap host is nowhere in it, it is no preview without
a scheme, and it has not the backslash the pattern for these asks for. -/
structure Handled (isDecimal : Char → Bool) (value : Text) : Prop where
  beatmap : ¬ chars "https://b.ppy.sh/" <:+: value
  preview : ∀ n, value ≠ slashPreview n
  escaped : audioFront isDecimal (chars "//b.ppy.sh/preview/") value = none

theorem audioFront_eq_some {isDecimal : Char → Bool} {start value digits rest : Text}
    (h : audioFront isDecimal start value = some (digits, rest)) :
    start <+: value ∧ '\\' ∈ value := by
  simp only [audioFront, Option.bind_eq_some_iff] at h
  obtain ⟨behind, hbehind, h⟩ := h
  have hvalue := after_eq_some.mp hbehind
  refine ⟨hvalue ▸ List.prefix_append start behind, ?_⟩
  split at h
  · rename_i _ c _ _ hdrop
    have hmem : '\\' ∈ behind.dropWhile isDecimal := hdrop ▸ List.mem_cons_self
    rw [hvalue]
    exact List.mem_append_right _ ((List.dropWhile_suffix _).subset hmem)
  · cases h

theorem audioFront_of_not_prefix {isDecimal : Char → Bool} {start value : Text}
    (h : ¬ start <+: value) : audioFront isDecimal start value = none := by
  rw [audioFront, after_eq_none.mpr h]
  rfl

theorem audioFront_of_no_escape {isDecimal : Char → Bool} {start value : Text}
    (h : '\\' ∉ value) : audioFront isDecimal start value = none := by
  cases hfront : audioFront isDecimal start value with
  | none => rfl
  | some found => exact absurd (audioFront_eq_some hfront).2 h

theorem hostUrl_append (name rest : Text) :
    hostUrl name ++ rest = chars "https://" ++ (name ++ '/' :: rest) := by
  have hscheme : ∀ scheme : Text,
      scheme ++ name ++ ['/'] ++ rest = scheme ++ (name ++ '/' :: rest) := by
    intro scheme
    simp
  exact hscheme _

theorem assets_eq : chars "https://assets.ppy.sh/" = hostUrl (chars "assets.ppy.sh") := by
  simp [chars, hostUrl]

theorem avatars_eq : chars "https://a.ppy.sh/" = hostUrl (chars "a.ppy.sh") := by
  simp [chars, hostUrl]

theorem beatmaps_eq : chars "https://b.ppy.sh/" = hostUrl (chars "b.ppy.sh") := by
  simp [chars, hostUrl]

theorem beatmaps_cons : chars "https://b.ppy.sh/" = 'h' :: (chars "ttps://b.ppy.sh/") := by
  simp [chars]

theorem hostUrl_cons (name rest : Text) :
    hostUrl name ++ rest = 'h' :: (chars "ttps://" ++ (name ++ '/' :: rest)) := by
  have hscheme : chars "https://" = 'h' :: (chars "ttps://") := by simp [chars]
  rw [hostUrl_append, hscheme, List.cons_append]

theorem slash_cons : chars "//b.ppy.sh/preview/" = '/' :: (chars "/b.ppy.sh/preview/") := by
  simp [chars]

theorem https_append :
    chars "https://b.ppy.sh/preview/" = hostUrl (chars "b.ppy.sh") ++ chars "preview/" := by
  simp [chars, hostUrl]

/-- Two addresses that begin alike are on one host. -/
theorem hostUrl_front {x y rest : Text} (hx : '/' ∉ x) (hy : '/' ∉ y) :
    hostUrl x <+: hostUrl y ++ rest ↔ x = y := by
  constructor
  · rintro ⟨behind, heq⟩
    rw [hostUrl_append, hostUrl_append] at heq
    have hnames : x ++ '/' :: behind = y ++ '/' :: rest := List.append_cancel_left heq
    have hxy : x <+: y := prefix_of_prefix_append_cons hx ⟨_, hnames⟩
    have hyx : y <+: x := prefix_of_prefix_append_cons hy ⟨_, hnames.symm⟩
    exact hxy.eq_of_length_le hyx.length_le
  · rintro rfl
    exact List.prefix_append _ _

namespace Settings

variable (settings : Settings) {isDecimal : Char → Bool}

/-- The names of the proxy's hosts. -/
def names : List Text :=
  [settings.assetProxyPrefix, settings.avatarProxyPrefix, settings.beatmapProxyPrefix]

variable {settings}

theorem slash_not_mem {name : Text} (h : name ∈ settings.names) :
    '/' ∉ name ++ '.' :: settings.customAssetDomain :=
  settings.host_plain name h '/' (by simp)

theorem colon_not_mem {name : Text} (h : name ∈ settings.names) :
    ':' ∉ name ++ '.' :: settings.customAssetDomain :=
  settings.host_plain name h ':' (by simp)

theorem proxyUrl_ne {name : Text} (h : name ∈ settings.names) :
    settings.proxyUrl name ≠ chars "https://b.ppy.sh/" := by
  intro heq
  have hfront : hostUrl (chars "b.ppy.sh") <+: settings.proxyUrl name ++ [] := by
    rw [List.append_nil, heq, beatmaps_eq]
  have hname := (hostUrl_front (by simp [chars]) (slash_not_mem h)).mp hfront
  exact settings.host_upstream name h (hname ▸ by simp)

theorem replaceBeatmapHost_eq_self (value : Text) :
    settings.replaceBeatmapHost value = value ↔ ¬ chars "https://b.ppy.sh/" <:+: value :=
  by
  rw [beatmaps_cons]
  exact sub_word_eq_self_iff (beatmaps_cons ▸ proxyUrl_ne (by simp [names])) value

theorem replaceBeatmapHost_name {x : Text} (hslash : '/' ∉ x) (hcolon : ':' ∉ x) (rest : Text) :
    settings.replaceBeatmapHost (x ++ '/' :: rest) =
      x ++ '/' :: settings.replaceBeatmapHost rest := by
  induction x with
  | nil => exact sub_word_of_ne (by simp)
  | cons c cs ih =>
    have hnot : ¬ 'h' :: (chars "ttps://b.ppy.sh/") <+: c :: (cs ++ '/' :: rest) := by
      intro h
      have hstart : chars "https:" <+: 'h' :: (chars "ttps://b.ppy.sh/") := by simp [chars]
      have hscheme : chars "https:" <+: (c :: cs) ++ '/' :: rest := hstart.trans h
      have hcs : chars "https:" <+: c :: cs :=
        prefix_of_prefix_append_cons (by simp [chars]) hscheme
      exact hcolon (hcs.subset (by simp [chars]))
    rw [List.mem_cons, not_or] at hslash hcolon
    have hrec := ih hslash.2 hcolon.2
    rw [replaceBeatmapHost] at hrec ⊢
    rw [List.cons_append, sub_word_of_not_front hnot, hrec]
    rfl

/-- The last substitution leaves the host of an address alone unless it is the beatmap host. -/
theorem replaceBeatmapHost_hostUrl {x : Text} (hslash : '/' ∉ x) (hcolon : ':' ∉ x)
    (hne : x ≠ chars "b.ppy.sh") (rest : Text) :
    settings.replaceBeatmapHost (hostUrl x ++ rest) =
      hostUrl x ++ settings.replaceBeatmapHost rest := by
  have hnot : ¬ 'h' :: (chars "ttps://b.ppy.sh/") <+: hostUrl x ++ rest := by
    intro h
    have hhost : hostUrl (chars "b.ppy.sh") <+: hostUrl x ++ rest := by
      rw [← beatmaps_eq, beatmaps_cons]
      exact h
    exact hne ((hostUrl_front (by simp [chars]) hslash).mp hhost).symm
  have hname := @replaceBeatmapHost_name settings x hslash hcolon rest
  rw [hostUrl_cons] at hnot ⊢
  rw [replaceBeatmapHost] at hname ⊢
  rw [sub_word_of_not_front hnot, sub_word_append_of_not_mem (by simp [chars]), hname,
    hostUrl_cons]

theorem replaceBeatmapHost_proxyUrl {name : Text} (h : name ∈ settings.names) (rest : Text) :
    settings.replaceBeatmapHost (settings.proxyUrl name ++ rest) =
      settings.proxyUrl name ++ settings.replaceBeatmapHost rest := by
  apply replaceBeatmapHost_hostUrl (slash_not_mem h) (colon_not_mem h)
  intro heq
  exact settings.host_upstream name h (heq ▸ by simp)

/-- The substitutions in front of the last one. -/
theorem replaceAssetUrlsInString_of_none {value : Text}
    (hasset : ¬ chars "https://assets.ppy.sh/" <+: value)
    (hhttps : audioFront isDecimal (chars "https://b.ppy.sh/preview/") value = none)
    (hslash : audioFront isDecimal (chars "//b.ppy.sh/preview/") value = none)
    (havatar : ¬ chars "https://a.ppy.sh/" <+: value) :
    settings.replaceAssetUrlsInString isDecimal value = settings.replaceBeatmapHost value := by
  simp only [replaceAssetUrlsInString, replaceHost, replaceAudio, after_eq_none.mpr hasset,
    after_eq_none.mpr havatar, hhttps, hslash]

theorem audioFront_slash_hostUrl (x rest : Text) :
    audioFront isDecimal (chars "//b.ppy.sh/preview/") (hostUrl x ++ rest) = none := by
  apply audioFront_of_not_prefix
  intro h
  rw [slash_cons, hostUrl_cons, List.cons_prefix_cons] at h
  exact absurd h.1 (by decide)

theorem audioFront_https_hostUrl {x : Text} (hslash : '/' ∉ x) (hne : x ≠ chars "b.ppy.sh")
    (rest : Text) :
    audioFront isDecimal (chars "https://b.ppy.sh/preview/") (hostUrl x ++ rest) = none := by
  apply audioFront_of_not_prefix
  intro h
  have hhost : hostUrl (chars "b.ppy.sh") <+: hostUrl x ++ rest := by
    rw [https_append] at h
    exact (List.prefix_append _ _).trans h
  exact hne ((hostUrl_front (by simp [chars]) hslash).mp hhost).symm

/-- An address on a host of the proxy keeps its host. -/
theorem replaceAssetUrlsInString_proxyUrl {name : Text} (h : name ∈ settings.names) (rest : Text) :
    settings.replaceAssetUrlsInString isDecimal (settings.proxyUrl name ++ rest) =
      settings.proxyUrl name ++ settings.replaceBeatmapHost rest := by
  have hhost : ∀ upstream ∈ [chars "assets.ppy.sh", chars "a.ppy.sh", chars "b.ppy.sh"],
      name ++ '.' :: settings.customAssetDomain ≠ upstream := by
    intro upstream hupstream heq
    exact settings.host_upstream name h (heq ▸ hupstream)
  have hfront : ∀ upstream ∈ [chars "assets.ppy.sh", chars "a.ppy.sh", chars "b.ppy.sh"],
      '/' ∉ upstream → ¬ hostUrl upstream <+: settings.proxyUrl name ++ rest := by
    intro upstream hupstream hslash hbegin
    exact hhost upstream hupstream ((hostUrl_front hslash (slash_not_mem h)).mp hbegin).symm
  have hasset := hfront (chars "assets.ppy.sh") (by simp) (by simp [chars])
  have havatar := hfront (chars "a.ppy.sh") (by simp) (by simp [chars])
  rw [← assets_eq] at hasset
  rw [← avatars_eq] at havatar
  rw [replaceAssetUrlsInString_of_none hasset
    (audioFront_https_hostUrl (slash_not_mem h) (hhost (chars "b.ppy.sh") (by simp)) rest)
    (audioFront_slash_hostUrl _ rest) havatar, replaceBeatmapHost_proxyUrl h]

theorem replaceAudio_some {start value : Text} {found : Text × Text}
    (h : audioFront isDecimal start value = some found) :
    settings.replaceAudio isDecimal start value =
      settings.audioProxyBaseUrl ++ ('/' :: found.1 ++ found.2) := by
  obtain ⟨digits, rest⟩ := found
  rw [replaceAudio, h]
  exact List.append_assoc _ _ _

theorem replaceAudio_none {start value : Text} (h : audioFront isDecimal start value = none) :
    settings.replaceAudio isDecimal start value = value := by
  rw [replaceAudio, h]

theorem replaceHost_append (start name rest : Text) :
    settings.replaceHost start name (start ++ rest) = settings.proxyUrl name ++ rest := by
  rw [replaceHost, after_append]

theorem replaceHost_of_not_front {start value : Text} (h : ¬ start <+: value) (name : Text) :
    settings.replaceHost start name value = value := by
  rw [replaceHost, after_eq_none.mpr h]

theorem replaceAssetUrlsInString_asset (rest : Text) :
    settings.replaceAssetUrlsInString isDecimal (chars "https://assets.ppy.sh/" ++ rest) =
      settings.proxyUrl settings.assetProxyPrefix ++ settings.replaceBeatmapHost rest := by
  have hname : settings.assetProxyPrefix ∈ settings.names := by simp [names]
  have hnot : ¬ chars "https://assets.ppy.sh/" <+:
      settings.proxyUrl settings.assetProxyPrefix ++ rest := by
    intro h
    rw [assets_eq] at h
    have heq := (hostUrl_front (by simp [chars]) (slash_not_mem hname)).mp h
    exact settings.host_upstream _ hname (heq ▸ by simp)
  -- behind the first substitution the address is one on a host of the proxy
  have hfirst :
      settings.replaceAssetUrlsInString isDecimal (chars "https://assets.ppy.sh/" ++ rest) =
      settings.replaceAssetUrlsInString isDecimal
        (settings.proxyUrl settings.assetProxyPrefix ++ rest) := by
    rw [replaceAssetUrlsInString, replaceAssetUrlsInString, replaceHost_append,
      replaceHost_of_not_front hnot]
  rw [hfirst, replaceAssetUrlsInString_proxyUrl hname]

theorem replaceAssetUrlsInString_avatar (rest : Text) :
    settings.replaceAssetUrlsInString isDecimal (chars "https://a.ppy.sh/" ++ rest) =
      settings.proxyUrl settings.avatarProxyPrefix ++ settings.replaceBeatmapHost rest := by
  have hname : settings.avatarProxyPrefix ∈ settings.names := by simp [names]
  have hasset : ¬ chars "https://assets.ppy.sh/" <+: chars "https://a.ppy.sh/" ++ rest := by
    intro h
    rw [assets_eq, avatars_eq] at h
    have heq := (hostUrl_front (by simp [chars]) (by simp [chars])).mp h
    exact absurd heq (by simp [chars])
  have hhttps : audioFront isDecimal (chars "https://b.ppy.sh/preview/")
      (chars "https://a.ppy.sh/" ++ rest) = none := by
    rw [avatars_eq]
    exact audioFront_https_hostUrl (by simp [chars]) (by simp [chars]) rest
  have hslash : audioFront isDecimal (chars "//b.ppy.sh/preview/")
      (chars "https://a.ppy.sh/" ++ rest) = none := by
    rw [avatars_eq]
    exact audioFront_slash_hostUrl _ rest
  rw [replaceAssetUrlsInString, replaceHost_of_not_front hasset]
  simp only [replaceAudio, hhttps, hslash]
  rw [replaceHost_append, replaceBeatmapHost_proxyUrl hname]

/-- A preview cannot be told from its route by accident: it ends in a letter and a digit. -/
theorem append_mp3_ne_audioRoute (before : Text) (n : ℕ) :
    before ++ chars ".mp3" ≠ settings.audioRoute n := by
  intro h
  have hdigits : ∀ c ∈ Nat.toDigits 10 n, c.isDigit := fun c hc =>
    Nat.isDigit_of_mem_toDigits (by omega) (by omega) hc
  have hend : (chars ".mp3").reverse = '3' :: 'p' :: chars "m." := by simp [chars]
  have hreverse := congrArg List.reverse h
  rw [audioRoute, List.reverse_append, List.reverse_append, List.reverse_cons, hend,
    List.append_assoc] at hreverse
  cases hlast : (Nat.toDigits 10 n).reverse with
  | nil => exact Nat.toDigits_ne_nil (List.reverse_eq_nil_iff.mp hlast)
  | cons d ds =>
    rw [hlast] at hreverse
    cases ds with
    | nil =>
      simp only [List.cons_append, List.nil_append, List.cons.injEq] at hreverse
      exact absurd hreverse.2.1 (by decide)
    | cons e es =>
      simp only [List.cons_append, List.cons.injEq] at hreverse
      have hmem : e ∈ Nat.toDigits 10 n := by
        rw [← List.mem_reverse, hlast]
        simp
      have hdigit : 'p'.isDigit = true := hreverse.2.1 ▸ hdigits e hmem
      exact absurd hdigit (by decide)

end Settings

/-- What stands in a preview stands in its start, its number or its end. -/
theorem not_mem_preview {c : Char} {start : Text} (hstart : c ∉ start) (hdigit : ¬ c.isDigit)
    (hend : c ∉ chars ".mp3") (n : ℕ) : c ∉ start ++ (Nat.toDigits 10 n ++ chars ".mp3") := by
  rw [List.mem_append, List.mem_append]
  rintro (h | h | h)
  · exact hstart h
  · exact hdigit (Nat.isDigit_of_mem_toDigits (by omega) (by omega) h)
  · exact hend h

theorem not_infix_of_no_colon {value : Text} (h : ':' ∉ value) :
    ¬ chars "https://b.ppy.sh/" <:+: value :=
  fun hwithin => h (hwithin.subset (by simp [chars]))

namespace Settings

variable {settings : Settings} {isDecimal : Char → Bool}

theorem replaceAssetUrlsInString_httpsPreview (n : ℕ) :
    settings.replaceAssetUrlsInString isDecimal (httpsPreview n) =
      settings.proxyUrl settings.beatmapProxyPrefix ++
        (chars "preview/" ++ (Nat.toDigits 10 n ++ chars ".mp3")) := by
  have hescape : '\\' ∉ httpsPreview n :=
    not_mem_preview (by simp [chars]) (by decide) (by simp [chars]) n
  have hfront : ∀ upstream ∈ [chars "assets.ppy.sh", chars "a.ppy.sh"],
      ¬ hostUrl upstream <+: httpsPreview n := by
    intro upstream hupstream h
    have hall : ∀ name ∈ [chars "assets.ppy.sh", chars "a.ppy.sh"],
        '/' ∉ name ∧ name ≠ chars "b.ppy.sh" := by simp [chars]
    obtain ⟨hslash, hne⟩ := hall upstream hupstream
    rw [httpsPreview, https_append, List.append_assoc] at h
    exact hne ((hostUrl_front hslash (by simp [chars])).mp h)
  have hasset := hfront (chars "assets.ppy.sh") (by simp)
  have havatar := hfront (chars "a.ppy.sh") (by simp)
  rw [← assets_eq] at hasset
  rw [← avatars_eq] at havatar
  rw [replaceAssetUrlsInString_of_none hasset (audioFront_of_no_escape hescape)
    (audioFront_of_no_escape hescape) havatar]
  have hrest : settings.replaceBeatmapHost
      (chars "preview/" ++ (Nat.toDigits 10 n ++ chars ".mp3")) =
        chars "preview/" ++ (Nat.toDigits 10 n ++ chars ".mp3") :=
    (replaceBeatmapHost_eq_self _).mpr
      (not_infix_of_no_colon
        (not_mem_preview (by simp [chars]) (by decide) (by simp [chars]) n))
  have htext : httpsPreview n = 'h' :: (chars "ttps://b.ppy.sh/") ++
      (chars "preview/" ++ (Nat.toDigits 10 n ++ chars ".mp3")) := by
    rw [← beatmaps_cons, beatmaps_eq, ← List.append_assoc, ← https_append, httpsPreview]
  rw [replaceBeatmapHost] at hrest ⊢
  rw [htext, sub_word_append, hrest]

theorem replaceAssetUrlsInString_slashPreview (n : ℕ) :
    settings.replaceAssetUrlsInString isDecimal (slashPreview n) = slashPreview n := by
  have hescape : '\\' ∉ slashPreview n :=
    not_mem_preview (by simp [chars]) (by decide) (by simp [chars]) n
  have hfront : ∀ upstream : Text, ¬ hostUrl upstream <+: slashPreview n := by
    intro upstream h
    rw [← List.append_nil (hostUrl upstream), hostUrl_cons, slashPreview, slash_cons,
      List.cons_append, List.cons_prefix_cons] at h
    exact absurd h.1 (by decide)
  have hasset := hfront (chars "assets.ppy.sh")
  have havatar := hfront (chars "a.ppy.sh")
  rw [← assets_eq] at hasset
  rw [← avatars_eq] at havatar
  rw [replaceAssetUrlsInString_of_none hasset (audioFront_of_no_escape hescape)
    (audioFront_of_no_escape hescape) havatar, replaceBeatmapHost_eq_self]
  exact not_infix_of_no_colon
    (not_mem_preview (by simp [chars]) (by decide) (by simp [chars]) n)

theorem not_front_avatar (rest : Text) :
    ¬ chars "https://a.ppy.sh/" <+: settings.audioProxyBaseUrl ++ rest := by
  intro h
  rw [audioProxyBaseUrl, List.append_assoc] at h
  cases List.prefix_or_prefix_of_prefix h (List.prefix_append settings.serverUrl _) with
  | inl hserver => exact settings.server_upstream hserver
  | inr hserver =>
    obtain ⟨behind, hbehind⟩ := hserver
    rw [← hbehind, List.prefix_append_right_inj] at h
    have hlength := congrArg List.length hbehind
    -- no proper end of the address on the avatar host begins as the route does
    have hroute : behind <+: chars "api/private/audio/beatmapset" := by
      refine List.prefix_of_prefix_length_le h (List.prefix_append _ _) ?_
      rw [List.length_append] at hlength
      have hshort : (chars "https://a.ppy.sh/").length ≤
        (chars "api/private/audio/beatmapset").length := by simp [chars]
      omega
    have htails : ∀ tail ∈ (chars "https://a.ppy.sh/").tails,
        tail <+: chars "api/private/audio/beatmapset" → tail = [] := by simp [chars]
    have hnil : behind = [] := htails behind ((List.mem_tails _ _).mpr ⟨_, hbehind⟩) hroute
    rw [hnil, List.append_nil] at hbehind
    exact settings.server_upstream (hbehind ▸ List.prefix_refl _)

theorem exists_cons_serverUrl : ∃ behind, settings.serverUrl = 'h' :: behind := by
  obtain ⟨behind, hbehind⟩ := settings.server_scheme
  have hscheme : chars "http" = 'h' :: (chars "ttp") := by simp [chars]
  rw [hscheme, List.cons_append] at hbehind
  exact ⟨_, hbehind.symm⟩

theorem replaceAudio_slash_route (rest : Text) :
    settings.replaceAudio isDecimal (chars "//b.ppy.sh/preview/")
      (settings.audioProxyBaseUrl ++ rest) = settings.audioProxyBaseUrl ++ rest := by
  have hslash : audioFront isDecimal (chars "//b.ppy.sh/preview/")
      (settings.audioProxyBaseUrl ++ rest) = none := by
    apply audioFront_of_not_prefix
    intro h
    obtain ⟨behind, hbehind⟩ := @exists_cons_serverUrl settings
    rw [audioProxyBaseUrl, hbehind, slash_cons, List.cons_append, List.cons_append,
      List.cons_prefix_cons] at h
    exact absurd h.1 (by decide)
  exact replaceAudio_none hslash

/-- The substitutions of hosts leave the server where it is. -/
theorem exists_route_hosts (rest : Text) : ∃ behind,
    settings.replaceBeatmapHost (settings.replaceHost (chars "https://a.ppy.sh/")
      settings.avatarProxyPrefix (settings.audioProxyBaseUrl ++ rest)) =
        settings.serverUrl ++ 'a' :: behind := by
  have hserver : settings.replaceBeatmapHost settings.serverUrl = settings.serverUrl :=
    (replaceBeatmapHost_eq_self _).mpr settings.server_beatmap
  have htext : settings.audioProxyBaseUrl ++ rest =
      settings.serverUrl ++ 'a' :: (chars "pi/private/audio/beatmapset" ++ rest) := by
    have hroute : chars "api/private/audio/beatmapset" =
        'a' :: (chars "pi/private/audio/beatmapset") := by simp [chars]
    rw [audioProxyBaseUrl, List.append_assoc, hroute, List.cons_append]
  rw [replaceHost_of_not_front (not_front_avatar rest), htext]
  rw [replaceBeatmapHost] at hserver ⊢
  rw [sub_word_append_cons (by simp [chars]), hserver]
  exact ⟨_, rfl⟩

/-- With the backslash an address of a preview is taken to the server. -/
theorem replaceAssetUrlsInString_escaped {value : Text}
    (h : audioFront isDecimal (chars "https://b.ppy.sh/preview/") value ≠ none) : ∃ behind,
    settings.replaceAssetUrlsInString isDecimal value = settings.serverUrl ++ 'a' :: behind := by
  obtain ⟨found, hfound⟩ := Option.ne_none_iff_exists'.mp h
  obtain ⟨behind, rfl⟩ := (audioFront_eq_some hfound).1
  have hasset :
      ¬ chars "https://assets.ppy.sh/" <+: chars "https://b.ppy.sh/preview/" ++ behind := by
    intro hfront
    rw [assets_eq, https_append, List.append_assoc] at hfront
    have hname := (hostUrl_front (by simp [chars]) (by simp [chars])).mp hfront
    exact absurd hname (by simp [chars])
  rw [replaceAssetUrlsInString, replaceHost_of_not_front hasset]
  rw [replaceAudio_some hfound, replaceAudio_slash_route]
  exact exists_route_hosts _

theorem replaceAssetUrlsInString_slashEscaped {value : Text}
    (h : audioFront isDecimal (chars "//b.ppy.sh/preview/") value ≠ none) : ∃ behind,
    settings.replaceAssetUrlsInString isDecimal value = settings.serverUrl ++ 'a' :: behind := by
  obtain ⟨found, hfound⟩ := Option.ne_none_iff_exists'.mp h
  obtain ⟨behind, rfl⟩ := (audioFront_eq_some hfound).1
  have hscheme : ∀ name : Text, ¬ hostUrl name <+: chars "//b.ppy.sh/preview/" ++ behind := by
    intro name hfront
    rw [← List.append_nil (hostUrl name), hostUrl_cons, slash_cons, List.cons_append,
      List.cons_prefix_cons] at hfront
    exact absurd hfront.1 (by decide)
  have hasset := hscheme (chars "assets.ppy.sh")
  rw [← assets_eq] at hasset
  have hhttps : audioFront isDecimal (chars "https://b.ppy.sh/preview/")
      (chars "//b.ppy.sh/preview/" ++ behind) = none := by
    apply audioFront_of_not_prefix
    intro hfront
    rw [https_append] at hfront
    exact hscheme _ ((List.prefix_append _ _).trans hfront)
  rw [replaceAssetUrlsInString, replaceHost_of_not_front hasset]
  rw [replaceAudio_none hhttps, replaceAudio_some hfound]
  exact exists_route_hosts _

theorem replaceAssetUrlsInString_of_handled {value : Text} (h : Handled isDecimal value)
    (hasset : ¬ chars "https://assets.ppy.sh/" <+: value)
    (havatar : ¬ chars "https://a.ppy.sh/" <+: value) :
    settings.replaceAssetUrlsInString isDecimal value = value := by
  have hhttps : audioFront isDecimal (chars "https://b.ppy.sh/preview/") value = none := by
    apply audioFront_of_not_prefix
    intro hfront
    have hhost : chars "https://b.ppy.sh/" <+: value := by
      rw [https_append, ← beatmaps_eq] at hfront
      exact (List.prefix_append _ _).trans hfront
    exact h.beatmap hhost.isInfix
  rw [replaceAssetUrlsInString_of_none hasset hhttps h.escaped havatar]
  exact (replaceBeatmapHost_eq_self value).mpr h.beatmap

/-- A string handled is proxied. -/
theorem proxied_of_handled {value : Text} (h : Handled isDecimal value) :
    Proxied settings value (settings.replaceAssetUrlsInString isDecimal value) := by
  by_cases hasset : chars "https://assets.ppy.sh/" <+: value
  · obtain ⟨rest, rfl⟩ := hasset
    have hrest : ¬ chars "https://b.ppy.sh/" <:+: rest := fun hwithin =>
      h.beatmap (hwithin.trans (List.suffix_append _ _).isInfix)
    rw [replaceAssetUrlsInString_asset, (replaceBeatmapHost_eq_self rest).mpr hrest]
    exact .asset rest
  · by_cases havatar : chars "https://a.ppy.sh/" <+: value
    · obtain ⟨rest, rfl⟩ := havatar
      have hrest : ¬ chars "https://b.ppy.sh/" <:+: rest := fun hwithin =>
        h.beatmap (hwithin.trans (List.suffix_append _ _).isInfix)
      rw [replaceAssetUrlsInString_avatar, (replaceBeatmapHost_eq_self rest).mpr hrest]
      exact .avatar rest
    · rw [replaceAssetUrlsInString_of_handled h hasset havatar]
      refine .other ⟨fun n heq => h.beatmap ?_, h.preview, hasset, havatar⟩
      rw [heq, httpsPreview]
      rw [https_append, ← beatmaps_eq, List.append_assoc]
      exact (List.prefix_append _ _).isInfix

/-- Proxied a second time it stays. -/
theorem replaceAssetUrlsInString_twice {value : Text} (h : Handled isDecimal value) :
    settings.replaceAssetUrlsInString isDecimal
        (settings.replaceAssetUrlsInString isDecimal value) =
      settings.replaceAssetUrlsInString isDecimal value := by
  have hproxy : ∀ name ∈ settings.names, ∀ rest, ¬ chars "https://b.ppy.sh/" <:+: rest →
      settings.replaceAssetUrlsInString isDecimal (settings.proxyUrl name ++ rest) =
        settings.proxyUrl name ++ rest := by
    intro name hname rest hrest
    rw [replaceAssetUrlsInString_proxyUrl hname, (replaceBeatmapHost_eq_self rest).mpr hrest]
  by_cases hasset : chars "https://assets.ppy.sh/" <+: value
  · obtain ⟨rest, rfl⟩ := hasset
    have hrest : ¬ chars "https://b.ppy.sh/" <:+: rest := fun hwithin =>
      h.beatmap (hwithin.trans (List.suffix_append _ _).isInfix)
    rw [replaceAssetUrlsInString_asset, (replaceBeatmapHost_eq_self rest).mpr hrest]
    exact hproxy _ (by simp [names]) rest hrest
  · by_cases havatar : chars "https://a.ppy.sh/" <+: value
    · obtain ⟨rest, rfl⟩ := havatar
      have hrest : ¬ chars "https://b.ppy.sh/" <:+: rest := fun hwithin =>
        h.beatmap (hwithin.trans (List.suffix_append _ _).isInfix)
      rw [replaceAssetUrlsInString_avatar, (replaceBeatmapHost_eq_self rest).mpr hrest]
      exact hproxy _ (by simp [names]) rest hrest
    · rw [replaceAssetUrlsInString_of_handled h hasset havatar,
        replaceAssetUrlsInString_of_handled h hasset havatar]

/-- Behind an address of another host the beatmap host must not be. -/
theorem handled_hostUrl {name x rest : Text} (hslash : '/' ∉ x) (hcolon : ':' ∉ x)
    (hne : x ≠ chars "b.ppy.sh")
    (h : settings.proxyUrl name ++ settings.replaceBeatmapHost rest =
      settings.proxyUrl name ++ rest) : Handled isDecimal (hostUrl x ++ rest) := by
  refine ⟨?_, fun n heq => ?_, audioFront_slash_hostUrl x rest⟩
  · have hrest : settings.replaceBeatmapHost rest = rest := List.append_cancel_left h
    rw [← @replaceBeatmapHost_eq_self settings,
      replaceBeatmapHost_hostUrl hslash hcolon hne, hrest]
  · rw [hostUrl_cons, slashPreview, slash_cons, List.cons_append, List.cons_eq_cons] at heq
    exact absurd heq.1 (by decide)

/-- A string not handled is not proxied. -/
theorem handled_of_proxied {value : Text}
    (h : Proxied settings value (settings.replaceAssetUrlsInString isDecimal value)) :
    Handled isDecimal value := by
  generalize hresult : settings.replaceAssetUrlsInString isDecimal value = result at h
  cases h with
  | httpsPreview n =>
    rw [replaceAssetUrlsInString_httpsPreview, ← List.append_assoc, ← List.append_assoc] at hresult
    exact absurd hresult (append_mp3_ne_audioRoute _ n)
  | slashPreview n =>
    rw [replaceAssetUrlsInString_slashPreview, slashPreview, ← List.append_assoc] at hresult
    exact absurd hresult (append_mp3_ne_audioRoute _ n)
  | asset rest =>
    rw [replaceAssetUrlsInString_asset] at hresult
    rw [assets_eq]
    exact handled_hostUrl (by simp [chars]) (by simp [chars]) (by simp [chars]) hresult
  | avatar rest =>
    rw [replaceAssetUrlsInString_avatar] at hresult
    rw [avatars_eq]
    exact handled_hostUrl (by simp [chars]) (by simp [chars]) (by simp [chars]) hresult
  | other huntouched =>
    have hslash : audioFront isDecimal (chars "//b.ppy.sh/preview/") value = none := by
      by_contra hsome
      obtain ⟨found, hfound⟩ := Option.ne_none_iff_exists'.mp hsome
      obtain ⟨start, hstart⟩ := (audioFront_eq_some hfound).1
      obtain ⟨behind, hbehind⟩ := @replaceAssetUrlsInString_slashEscaped settings _ _ hsome
      obtain ⟨server, hserver⟩ := @exists_cons_serverUrl settings
      rw [hbehind, hserver, ← hstart, slash_cons, List.cons_append, List.cons_append,
        List.cons_eq_cons] at hresult
      exact absurd hresult.1 (by decide)
    have hhttps : audioFront isDecimal (chars "https://b.ppy.sh/preview/") value = none := by
      by_contra hsome
      obtain ⟨found, hfound⟩ := Option.ne_none_iff_exists'.mp hsome
      obtain ⟨start, hstart⟩ := (audioFront_eq_some hfound).1
      obtain ⟨behind, hbehind⟩ := @replaceAssetUrlsInString_escaped settings _ _ hsome
      have hhost : chars "https://b.ppy.sh/" <+: settings.serverUrl ++ 'a' :: behind := by
        rw [← hbehind, hresult, ← hstart, https_append, ← beatmaps_eq, List.append_assoc]
        exact List.prefix_append _ _
      have hserver : chars "https://b.ppy.sh/" <+: settings.serverUrl :=
        prefix_of_prefix_append_cons (by simp [chars]) hhost
      exact settings.server_beatmap hserver.isInfix
    rw [replaceAssetUrlsInString_of_none huntouched.asset hhttps hslash
      huntouched.avatar] at hresult
    exact ⟨(replaceBeatmapHost_eq_self value).mp hresult, huntouched.slash_preview, hslash⟩

theorem hostUrl_ne_proxyUrl {name upstream : Text} (hname : name ∈ settings.names)
    (hupstream : upstream ∈ [chars "assets.ppy.sh", chars "a.ppy.sh", chars "b.ppy.sh"])
    (rest : Text) : hostUrl upstream ++ rest ≠ settings.proxyUrl name ++ rest := by
  intro heq
  have hall : ∀ name ∈ [chars "assets.ppy.sh", chars "a.ppy.sh", chars "b.ppy.sh"],
      '/' ∉ name := by simp [chars]
  have hslash : '/' ∉ upstream := hall upstream hupstream
  have hfront : hostUrl upstream <+: settings.proxyUrl name ++ rest :=
    heq ▸ List.prefix_append _ _
  have hsame := (hostUrl_front hslash (slash_not_mem hname)).mp hfront
  exact settings.host_upstream name hname (hsame ▸ hupstream)

/-- With the proxy off a string is proxied exactly if there is nothing to do. -/
theorem proxied_self_iff {value : Text} : Proxied settings value value ↔ Untouched value := by
  constructor
  · intro h
    suffices hall : ∀ first second, Proxied settings first second → first = second →
        Untouched first from hall value value h rfl
    intro first second h hresult
    cases h with
    | httpsPreview n =>
      rw [httpsPreview, ← List.append_assoc] at hresult
      exact absurd hresult (append_mp3_ne_audioRoute _ n)
    | slashPreview n =>
      rw [slashPreview, ← List.append_assoc] at hresult
      exact absurd hresult (append_mp3_ne_audioRoute _ n)
    | asset rest =>
      rw [assets_eq] at hresult
      exact absurd hresult (hostUrl_ne_proxyUrl (by simp [names]) (by simp) rest)
    | avatar rest =>
      rw [avatars_eq] at hresult
      exact absurd hresult (hostUrl_ne_proxyUrl (by simp [names]) (by simp) rest)
    | other huntouched => exact huntouched
  · exact .other

end Settings

/-- The condition on one string. -/
def Settings.Served (settings : Settings) (isDecimal : Char → Bool) (value : Text) : Prop :=
  if settings.enableAssetProxy then Handled isDecimal value else Untouched value

/-- The proxy reaches all it should in nested data exactly if each string of the data is one its
patterns do right by. -/
theorem reached_iff {κ α : Type} (settings : Settings) (isDecimal : Char → Bool)
    (data : Data κ α) :
    Reached settings isDecimal data ↔ ∀ value ∈ data.texts, settings.Served isDecimal value := by
  cases henable : settings.enableAssetProxy with
  | true =>
    have hreplace : ∀ data : Data κ α, replaceAssetUrls settings isDecimal data =
        data.mapText (settings.replaceAssetUrlsInString isDecimal) := by
      intro data
      rw [replaceAssetUrls, if_pos henable]
    simp only [Settings.Served, henable, if_true]
    constructor
    · rintro ⟨⟨f, hf, hproxied⟩, _⟩ value hvalue
      rw [hreplace, Structured.Data.mapText_eq_iff] at hf
      exact Settings.handled_of_proxied (hf value hvalue ▸ hproxied value hvalue)
    · intro h
      refine ⟨⟨_, hreplace data, fun value hvalue => Settings.proxied_of_handled (h value hvalue)⟩,
        ?_⟩
      rw [hreplace, hreplace, Structured.Data.mapText_mapText, Structured.Data.mapText_eq_iff]
      intro value hvalue
      exact Settings.replaceAssetUrlsInString_twice (h value hvalue)
  | false =>
    have hreplace : ∀ data : Data κ α, replaceAssetUrls settings isDecimal data = data := by
      intro data
      rw [replaceAssetUrls, if_neg (by simp [henable])]
    simp only [Settings.Served, henable, if_false, Bool.false_eq_true]
    constructor
    · rintro ⟨⟨f, hf, hproxied⟩, _⟩ value hvalue
      rw [hreplace] at hf
      have hsame := (Structured.Data.mapText_eq_iff (fun value => value) f data).mp
        (by rw [Structured.Data.mapText_id, ← hf])
      have hself := hproxied value hvalue
      rw [← hsame value hvalue] at hself
      exact Settings.proxied_self_iff.mp hself
    · intro h
      refine ⟨⟨fun value => value, by rw [hreplace, Structured.Data.mapText_id],
        fun value hvalue => ?_⟩, ?_⟩
      · exact Settings.proxied_self_iff.mpr (h value hvalue)
      · rw [hreplace, hreplace]

/-- A preview of the upstream goes to the beatmap host and not to the audio route. -/
theorem not_reached_preview :
    replaceAssetUrls defaults Char.isDigit
        (.list [.str (chars "https://b.ppy.sh/preview/7.mp3")] : Data Unit Unit) =
      .list [.str (chars "https://b-ppy.assets.ppy.sh/preview/7.mp3")] ∧
    ¬ Reached defaults Char.isDigit
        (.list [.str (chars "https://b.ppy.sh/preview/7.mp3")] : Data Unit Unit) := by
  have hstring : defaults.replaceAssetUrlsInString Char.isDigit
      (chars "https://b.ppy.sh/preview/7.mp3") =
        chars "https://b-ppy.assets.ppy.sh/preview/7.mp3" := by decide +kernel
  have hresult : replaceAssetUrls defaults Char.isDigit
        (.list [.str (chars "https://b.ppy.sh/preview/7.mp3")] : Data Unit Unit) =
      .list [.str (chars "https://b-ppy.assets.ppy.sh/preview/7.mp3")] := by
    have henable : defaults.enableAssetProxy = true := rfl
    rw [replaceAssetUrls, if_pos henable, Structured.Data.mapText, Structured.Data.mapTexts,
      Structured.Data.mapText, Structured.Data.mapTexts, hstring]
  refine ⟨hresult, ?_⟩
  rintro ⟨⟨f, hf, hproxied⟩, _⟩
  have hvalue := hproxied (chars "https://b.ppy.sh/preview/7.mp3") List.mem_cons_self
  have hfound : f (chars "https://b.ppy.sh/preview/7.mp3") =
      chars "https://b-ppy.assets.ppy.sh/preview/7.mp3" := by
    rw [hresult] at hf
    simpa [Structured.Data.mapText, Structured.Data.mapTexts] using hf.symm
  rw [hfound] at hvalue
  clear hstring
  generalize hstring : chars "https://b.ppy.sh/preview/7.mp3" = value at hvalue
  generalize hproxy : chars "https://b-ppy.assets.ppy.sh/preview/7.mp3" = result at hvalue
  cases hvalue with
  | httpsPreview n =>
    simp [chars, Settings.audioRoute, Settings.audioProxyBaseUrl, defaults] at hproxy
  | slashPreview n => simp [chars, slashPreview] at hstring
  | asset rest => simp [chars] at hstring
  | avatar rest => simp [chars] at hstring
  | other huntouched =>
    have hpreview : chars "https://b.ppy.sh/preview/7.mp3" = httpsPreview 7 := by
      simp [chars, httpsPreview, Nat.toDigits, Nat.toDigitsCore]
    exact huntouched.https_preview 7 (hstring.symm.trans hpreview)

end Soms.AssetProxy

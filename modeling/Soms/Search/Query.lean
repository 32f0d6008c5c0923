import Mathlib.Data.Prod.Lex
import Mathlib.Data.String.Basic
import Soms.Scores.SetPolicy

/-!
# Search queries

`SearchQueryModel` of `models/beatmap.py`, and how `service/beatmap_search_overlay_service.py`
decides from the local tables whether a set matches a query and where its result is sorted.
-/

namespace Soms.Search

open Scores (UserId BeatmapId SetId GameMode Rank BeatmapRankStatus EffectiveSetPolicy)

/-! ## Queries -/

inductive Genre where
  | any | unspecified | videoGame | anime | rock | pop | other | novelty
  | hipHop | electronic | metal | classical | folk | jazz
  deriving DecidableEq, Repr

inductive Language where
  | any | unspecified | english | japanese | chinese | instrumental | korean
  | french | german | swedish | spanish | italian | russian | polish | other
  deriving DecidableEq, Repr

inductive Category where
  | any | leaderboard | ranked | qualified | loved | favourites | pending | wip | graveyard | mine
  deriving DecidableEq, Repr

inductive General where
  | recommended | converts | follows | spotlights | featuredArtists
  deriving DecidableEq, Repr

inductive Extra where
  | video | storyboard
  deriving DecidableEq, Repr

inductive Played where
  | played | unplayed
  deriving DecidableEq, Repr

inductive SortField where
  | title | artist | difficulty | updated | ranked | rating | plays | favourites | relevance
  | nominations
  deriving DecidableEq, Repr

/-- `field, direction = sort.rsplit("_", 1)` -/
structure SortOption where
  field : SortField
  descending : Bool
  deriving DecidableEq, Repr

structure SearchQuery where
  q : String := ""
  c : List General := []
  m : Option Int := none
  g : Genre := .any
  s : Category := .leaderboard
  l : Language := .any
  sort : SortOption
  e : List Extra := []
  r : List Rank := []
  played : Option Played := none
  nsfw : Bool := false

/-- The status that has the category's name. -/
def Category.status : Category → Option BeatmapRankStatus
  | qualified => some .qualified
  | loved => some .loved
  | pending => some .pending
  | wip => some .wip
  | graveyard => some .graveyard
  | ranked => some .ranked
  | any | leaderboard | favourites | mine => none

/-- `_category_matches` -/
def categoryMatches (category : Category) (policy : EffectiveSetPolicy) : Bool :=
  match category with
  | .any => true
  | .leaderboard => policy.leaderboardEnabled
  | .ranked => policy.status == .ranked || policy.status == .approved
  | category => category.status == some policy.status

/-- `query.s in {"favourites", "mine"}` -/
def SearchQuery.isPersonal (query : SearchQuery) : Bool :=
  query.s == .favourites || query.s == .mine

/-- `_supports_local_injection` -/
def supportsLocalInjection (query : SearchQuery) : Bool :=
  !(query.isPersonal || query.played.isSome || !query.r.isEmpty) &&
    !(query.c.contains .recommended || query.c.contains .follows)

theorem isPersonal_of_supports {query : SearchQuery} (h : supportsLocalInjection query = true) :
    query.isPersonal = false := by
  simp only [supportsLocalInjection, Bool.and_eq_true, Bool.not_eq_true', Bool.or_eq_false_iff] at h
  exact h.1.1.1

/-! ## Sets -/

/-- What `str` knows about characters. -/
structure Strings where
  isSpace : Char → Bool
  casefold : String → String

/-- The tables on ASCII. -/
def ascii : Strings where
  isSpace c := c == ' '
  casefold text := String.ofList (text.toList.map Char.toLower)

/-- `text.split()` -/
def Strings.split (strings : Strings) (text : String) : List String :=
  ((text.toList.splitOnP strings.isSpace).filter (· ≠ [])).map String.ofList

/-- `word.strip()` is not empty. -/
def Strings.hasInk (strings : Strings) (word : String) : Bool :=
  word.toList.any fun c => !strings.isSpace c

structure Beatmapset where
  id : SetId
  artist : String
  artistUnicode : String
  title : String
  titleUnicode : String
  creator : String
  source : String
  tags : String
  beatmapStatus : BeatmapRankStatus
  nsfw : Bool
  spotlight : Bool
  trackId : Option Nat
  beatmapGenre : Genre
  beatmapLanguage : Language
  video : Bool
  storyboard : Bool

/-- What the sorting reads of a result. -/
structure Details where
  title : String
  artist : String
  lastUpdated : Option String
  rankedDate : Option String
  ratings : Option (List Int)
  playCount : Option Int
  favouriteCount : Option Int
  /-- `item["nominations"]["current"]` -/
  nominations : Option Int
  /-- `difficulty_rating` of each of `item["beatmaps"]` -/
  difficulties : Option (List ℚ)

/-- A result of a search. -/
structure Item where
  id : SetId
  details : Details

/-- The cached sets.  The foreign keys of the policies make every policy one of a cached set and
every override one of a cached difficulty. -/
structure Database where
  policies : Scores.State
  policyRows : policies.PolicyRows
  /-- In the order in which the statement returns them. -/
  beatmapsets : List Beatmapset
  nodup : (beatmapsets.map Beatmapset.id).Nodup
  mode : BeatmapId → GameMode
  version : BeatmapId → String
  /-- What `BeatmapsetModel.transform` makes of a set for the user. -/
  details : Option UserId → SetId → Details

section Matching

variable (strings : Strings) (db : Database)

/-- The text that the words are looked for in. -/
def searchable (beatmapset : Beatmapset) : String :=
  let beatmaps := db.policies.activeMaps beatmapset.id
  strings.casefold <| " ".intercalate <|
    [toString beatmapset.id, beatmapset.artist, beatmapset.artistUnicode, beatmapset.title,
      beatmapset.titleUnicode, beatmapset.creator, beatmapset.source, beatmapset.tags] ++
    beatmaps.map db.version ++ beatmaps.map toString

/-- The set has a difficulty of the mode, or one that can be converted to it. -/
def hasMode (query : SearchQuery) (beatmapset : Beatmapset) (m : Int) : Bool :=
  let beatmaps := db.policies.activeMaps beatmapset.id
  beatmaps.any (fun b => ((db.mode b).toInt : Int) == m) ||
    query.c.contains .converts && [1, 2, 3].contains m &&
      beatmaps.any fun b => (db.mode b).toInt == 0

/-- `_query_matches` -/
def queryMatches (beatmapset : Beatmapset) (query : SearchQuery) : Bool :=
  if !query.nsfw && beatmapset.nsfw then false
  else if query.c.contains .spotlights && !beatmapset.spotlight then false
  else if query.c.contains .featuredArtists && beatmapset.trackId.isNone then false
  else if query.g != .any && beatmapset.beatmapGenre != query.g then false
  else if query.l != .any && beatmapset.beatmapLanguage != query.l then false
  else if query.e.contains .video && !beatmapset.video then false
  else if query.e.contains .storyboard && !beatmapset.storyboard then false
  else if query.m.any fun m => !hasMode db query beatmapset m then false
  else
    ((strings.split query.q).filter strings.hasInk).all fun word =>
      decide ((strings.casefold word).toList <:+: (searchable strings db beatmapset).toList)

end Matching

/-! ## Sorting -/

/-- `_rating` -/
def rating (item : Item) : ℚ :=
  match item.details.ratings with
  | none => 0
  | some ratings =>
    if ratings.sum = 0 then 0
    else ((ratings.zipIdx.map fun (count, index) => (index : Int) * count).sum : ℚ) / ratings.sum

/-- `_sort_value`: texts and numbers are not compared with each other, since a field has either. -/
def sortValue (strings : Strings) (item : Item) : SortField → String × ℚ
  | .title => (strings.casefold item.details.title, 0)
  | .artist => (strings.casefold item.details.artist, 0)
  | .difficulty => ("", ((item.details.difficulties.getD []).max?).getD 0)
  | .updated => (item.details.lastUpdated.getD "", 0)
  | .ranked => (item.details.rankedDate.getD "", 0)
  | .rating => ("", rating item)
  | .plays => ("", item.details.playCount.getD 0)
  | .favourites => ("", item.details.favouriteCount.getD 0)
  | .nominations => ("", item.details.nominations.getD 0)
  | .relevance => ("", 0)

/-- The key of `items.sort`. -/
def sortKey (strings : Strings) (field : SortField) (item : Item) : String ×ₗ ℚ ×ₗ SetId :=
  toLex ((sortValue strings item field).1, toLex ((sortValue strings item field).2, item.id))

/-- `_sort_merged_results` -/
def sortMergedResults (strings : Strings) (items : List Item) (sort : SortOption) : List Item :=
  if sort.field = .relevance then items
  else items.mergeSort fun a b =>
    if sort.descending then decide (sortKey strings sort.field b ≤ sortKey strings sort.field a)
    else decide (sortKey strings sort.field a ≤ sortKey strings sort.field b)

/-- The order of the results that are put in front. -/
def injectedOrder (strings : Strings) (items : List Item) : List Item :=
  items.mergeSort fun a b =>
    decide (toLex (strings.casefold a.details.artist, strings.casefold a.details.title) ≤
      toLex (strings.casefold b.details.artist, strings.casefold b.details.title))

theorem sortMergedResults_perm (strings : Strings) (items : List Item) (sort : SortOption) :
    (sortMergedResults strings items sort).Perm items := by
  unfold sortMergedResults
  split
  · exact .refl items
  · exact List.mergeSort_perm items _

theorem injectedOrder_perm (strings : Strings) (items : List Item) :
    (injectedOrder strings items).Perm items := List.mergeSort_perm items _

end Soms.Search

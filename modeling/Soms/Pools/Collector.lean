import Soms.Library.Firsts
import Soms.Pools.Spec

/-!
# The import of a pool

`somsai_collector_service.py`: `collector_preview`, which turns an answer of the collector into
the slots of a pool. The loop over the groups is a loop over the maps they offer, and its slots
are the first valid offer of each beatmap.
-/

namespace Soms.Pools

inductive SourceKind where
  | tournament | collection
  deriving DecidableEq, Repr

structure Provenance where
  sourceKind : SourceKind
  sourceUrl : Text
  sourceRound : Option Text
  deriving DecidableEq, Repr

/-- `SomsaiImportRequest` -/
structure ImportRequest where
  round : Option Text
  category : Category
  deriving DecidableEq, Repr

/-- What the loop over the groups has collected. -/
structure Pass where
  slots : List SlotSpec
  counts : Category → Nat
  seenBeatmaps : List Int
  skipped : Nat
  warnings : List Text

structure Preview where
  provenance : Provenance
  rounds : List Text
  slots : List SlotSpec
  warnings : List Text
  /-- Absent as long as no round is chosen. -/
  skipped : Option Nat
  name : Json

variable (strings : Strings)

/-- `text or number` -/
def orNumber (text : Text) (number : Nat) : Text :=
  if text = [] then Nat.toDigits 10 number else text

/-- What is read of the payload before the loop. -/
structure Source where
  provenance : Provenance
  rounds : List Text
  /-- None as long as no round is chosen. -/
  groups : Option (List Json)
  warnings : List Text

/-- The rounds of a tournament and the groups of the chosen one. -/
def tournamentSource (data : List (String × Json)) (provenance : Provenance)
    (request : ImportRequest) : Except Failure Source := do
  match Json.getD data "rounds" (.arr []) with
  | .arr entries =>
    if entries.any fun entry => !entry.isDict then
      throw (.http 502 "Неизвестный формат раундов osu!Collector")
    let rounds ← entries.mapM fun entry => do
      return strings.str (← entry.get "round" (.str []))
    match request.round with
    | none => return { provenance, rounds, groups := none, warnings := [] }
    | some round =>
      let named ← entries.mapM fun entry => do
        return (entry, ← entry.get "round" .null)
      match named.filter fun entry => entry.2.eqText round with
      | [selected] =>
        let groups ← (← selected.1.get "mods" (.arr [])).iterate
        return { provenance := { provenance with sourceRound := some round }, rounds,
                 groups := some groups, warnings := [] }
      | _ => throw (.http 422 "Выберите один существующий раунд турнира")
  | _ => throw (.http 502 "Неизвестный формат раундов osu!Collector")

/-- The maps of a collection as one group of the requested category. -/
def collectionSource (data : List (String × Json)) (provenance : Provenance)
    (request : ImportRequest) : Except Failure Source := do
  let beatmapsets ← (Json.getD data "beatmapsets" (.arr [])).iterate
  let maps ← beatmapsets.mapM fun beatmapset => do
    (← beatmapset.get "beatmaps" (.arr [])).iterate
  let incomplete := (Json.getD data "unknownChecksums" .null).truthy ||
    (Json.getD data "unsubmittedBeatmapCount" .null).truthy
  return {
    provenance, rounds := []
    groups := some [.obj [("mod", .str request.category.name), ("maps", .arr maps.flatten)]]
    warnings := if incomplete then
      ["В коллекции есть неопубликованные карты без ID: они не импортированы".toList] else [] }

def readSource (data : List (String × Json)) (provenance : Provenance)
    (request : ImportRequest) : Except Failure Source :=
  match provenance.sourceKind with
  | .tournament => tournamentSource strings data provenance request
  | .collection => collectionSource data provenance request

namespace Pass

def warn (pass : Pass) (text : Text) : Pass := { pass with warnings := pass.warnings ++ [text] }

/-- `skipped += n` -/
def skip (pass : Pass) (n : Nat) : Pass := { pass with skipped := pass.skipped + n }

/-- `SomsaiSlotSpec(…)` of a map, none where it raises. -/
def slotOf (sourceUrl : Text) (category : Category) (number : Nat) : Json → Option SlotSpec
  | .obj entries =>
    SlotSpec.validate strings (label category number) (Json.getD entries "id" .null)
      (Json.getD entries "checksum" .null) (some sourceUrl)
  | _ => none

/-- The id of a map as a warning shows it. -/
def shownId : Json → Text
  | .obj entries => strings.str (Json.getD entries "id" .null)
  | _ => ['?']

/-- A map without a checksum is named in a warning before it is checked. -/
def warnChecksum (pass : Pass) (label : Text) : Json → Pass
  | .obj entries =>
    match Json.getD entries "checksum" .null with
    | .null => pass.warn (label ++
        ": исходная контрольная сумма отсутствует; проверьте карту ".toList ++
        strings.str (Json.getD entries "id" .null))
    | _ => pass
  | _ => pass

/-- One map of a supported category. -/
def addMap (sourceUrl : Text) (category : Category) (pass : Pass) (beatmap : Json) : Pass :=
  let number := pass.counts category + 1
  let pass := { pass with counts := Function.update pass.counts category number }
  let label := label category number
  if category = .tb ∧ 1 < number then
    (pass.warn (label ++ ": лишний тайбрейкер пропущен".toList)).skip 1
  else
    let pass := pass.warnChecksum strings label beatmap
    match slotOf strings sourceUrl category number beatmap with
    | none =>
      (pass.warn (label ++ ": некорректная карта ".toList ++ shownId strings beatmap ++
        " пропущена".toList)).skip 1
    | some slot =>
      if slot.beatmapId ∈ pass.seenBeatmaps then
        (pass.warn (label ++ ": карта ".toList ++ strings.str (.int slot.beatmapId) ++
          " уже встречалась и пропущена".toList)).skip 1
      else
        { pass with
          seenBeatmaps := pass.seenBeatmaps ++ [slot.beatmapId]
          slots := pass.slots ++ [slot] }

/-- One group, the `index`th. -/
def addGroup (sourceUrl : Text) (pass : Pass) (group : Json) (index : Nat) : Pass :=
  match group with
  | .obj entries =>
    let category := strings.upper (strings.str (Json.getD entries "mod" (.str [])))
    match Json.getD entries "maps" (.arr []) with
    | .arr maps =>
      match Category.ofName category with
      | some category => maps.foldl (addMap strings sourceUrl category) pass
      | none =>
        (pass.warn ("Категория ".toList ++ orNumber (category.take 40) index ++
          " не поддерживается и пропущена".toList)).skip (max 1 maps.length)
    | _ =>
      (pass.warn ("Категория ".toList ++ orNumber category index ++
        ": список карт повреждён и пропущен".toList)).skip 1
  | _ =>
    (pass.warn ("Группа #".toList ++ Nat.toDigits 10 index ++
      " имеет неизвестный формат и пропущена".toList)).skip 1

/-- The loop over the groups. -/
def run (sourceUrl : Text) (warnings : List Text) (groups : List Json) : Pass :=
  (groups.zipIdx 1).foldl (fun pass group => pass.addGroup strings sourceUrl group.1 group.2)
    { slots := [], counts := fun _ => 0, seenBeatmaps := [], skipped := 0, warnings }

end Pass

/-- The name of the pool, with the chosen round behind it. -/
def previewName (data : List (String × Json)) (request : ImportRequest) : Text :=
  let suffix := match request.round with
    | some round => if round = [] then [] else " — ".toList ++ round
    | none => []
  (strings.str (Json.getD data "name" (.str [])) ++ suffix).take 160

/-- `collector_preview` -/
def collectorPreview (data : List (String × Json)) (provenance : Provenance)
    (request : ImportRequest) : Except Failure Preview := do
  let source ← readSource strings data provenance request
  match source.groups with
  | none =>
    return { provenance := source.provenance, rounds := source.rounds, slots := [], warnings := [],
             skipped := none, name := Json.getD data "name" (.str []) }
  | some groups =>
    let pass := Pass.run strings source.provenance.sourceUrl source.warnings groups
    if 64 < pass.slots.length then
      throw (.http 422 "В одном пуле не больше 64 карт; выберите меньшую коллекцию")
    return { provenance := source.provenance, rounds := source.rounds, slots := pass.slots
             warnings := pass.warnings, skipped := some pass.skipped
             name := .str (previewName strings data request) }

end Soms.Pools

import Soms.Imports.Accepted

/-!
# Renaming a replay

A file is accepted exactly if it has the parts of a replay.  The player name is one of them, so
that another name of any length leaves the others as they are, up to the limit of the whole file.
-/

namespace Soms.Imports

open Reader
open Soms.Scores (GameMode Time)

/-! ## The readers look at nothing else -/

theorem local_readUnsigned (size : Nat) (description : String) :
    Local (readUnsigned size description) :=
  (Local.take _ _).bind fun _ => Local.pure _

theorem local_readSigned (size : Nat) (description : String) :
    Local (readSigned size description) :=
  (Local.take _ _).bind fun _ => Local.pure _

theorem local_readReplayData : Local readReplayData := by
  refine local_readOsrString.bind fun replayHash => ?_
  refine (local_readUnsigned _ _).bind fun n300 => (local_readUnsigned _ _).bind fun n100 => ?_
  refine (local_readUnsigned _ _).bind fun n50 => (local_readUnsigned _ _).bind fun ngeki => ?_
  refine (local_readUnsigned _ _).bind fun nkatu => (local_readUnsigned _ _).bind fun nmiss => ?_
  refine (local_readSigned _ _).bind fun total => (local_readUnsigned _ _).bind fun combo => ?_
  refine (local_readUnsigned _ _).bind fun perfect => (local_readUnsigned _ _).bind fun mods => ?_
  refine local_readOsrString.bind fun _ => (local_readSigned _ _).bind fun ticks => ?_
  refine (local_readSigned _ _).bind fun length => (Local.refuse _ _).bind fun _ => ?_
  refine (Local.refuse _ _).bind fun _ => (Local.refuse _ _).bind fun _ => ?_
  exact (Local.take _ _).bind fun _ => Local.pure _

theorem local_readOnlineScoreId (clientVersion : Nat) : Local (readOnlineScoreId clientVersion) :=
  ((local_readSigned _ _).bind fun _ => Local.pure _).ite
    (((local_readSigned _ _).bind fun _ => Local.pure _).ite (Local.pure _))

theorem ne_nil_of_reads {field : Bytes} {s : String} (h : Reads readOsrString field s) :
    field ≠ [] := by
  rintro rfl
  exact nomatch h []

/-! ## The parts of a file -/

/-- The parts of an accepted file, each with what is read of it. -/
structure Replay where
  start : Bytes
  length_start : start.length = 5
  ruleset : GameMode
  mode_le : leNat (start.take 1) ≤ 3
  ruleset_eq : GameMode.fromInt (leNat (start.take 1)) = some ruleset
  checksumField : Bytes
  checksum : String
  reads_checksum : Reads readOsrString checksumField checksum
  checksum_md5 : isMd5 checksum.toLower = true
  nameField : Bytes
  playerName : String
  reads_name : Reads readOsrString nameField playerName
  dataField : Bytes
  data : ReplayData
  reads_data : Reads readReplayData dataField data
  onlineIdField : Bytes
  onlineScoreId : Option Int
  reads_onlineId : Reads (readOnlineScoreId (leNat (start.drop 1))) onlineIdField onlineScoreId
  time_held : ¬ (timeOfTicks data.ticks < Daily.yearStart 1 * Daily.dayLength ∨
    Daily.yearStart 10000 * Daily.dayLength ≤ timeOfTicks data.ticks)
  rest : Bytes

namespace Replay

def content (r : Replay) : Bytes :=
  r.start ++ (r.checksumField ++ (r.nameField ++ (r.dataField ++ (r.onlineIdField ++ r.rest))))

def header (r : Replay) : OsrReplayHeader where
  ruleset := r.ruleset
  clientVersion := leNat (r.start.drop 1)
  beatmapChecksum := r.checksum.toLower
  playerName := r.playerName

def score (r : Replay) : ParsedOsrScore := r.data.score r.header r.playerName r.onlineScoreId

/-- The time is not before 2007 nor more than a day from now. -/
def Plausible (now : Time) (r : Replay) : Prop :=
  ¬ (Daily.year (Daily.date (timeOfTicks r.data.ticks)) < 2007 ∨
    now + Daily.dayLength < timeOfTicks r.data.ticks)

theorem Plausible.later {now now' : Time} {r : Replay} (h : r.Plausible now) (hnow : now ≤ now') :
    r.Plausible now' := by
  rintro (hyear | hlate)
  · exact h (.inl hyear)
  · exact h (.inr ((Int.add_le_add_right hnow _).trans_lt hlate))

variable {r : Replay}

theorem take_content (r : Replay) : r.content.take 1 = r.start.take 1 := by
  rw [content, List.take_append_of_le_length (by rw [r.length_start]; decide)]

theorem version_content (r : Replay) : (r.content.drop 1).take 4 = r.start.drop 1 := by
  have hlength : (r.start.drop 1).length = 4 := by rw [List.length_drop, r.length_start]
  rw [content, List.drop_append_of_le_length (by rw [r.length_start]; decide), ← hlength,
    List.take_left]

theorem drop_content (r : Replay) : r.content.drop 5 =
    r.checksumField ++ (r.nameField ++ (r.dataField ++ (r.onlineIdField ++ r.rest))) := by
  rw [content, ← r.length_start, List.drop_left]

theorem length_content (r : Replay) : ¬ r.content.length < 7 := by
  have hchecksum := List.length_pos_iff.mpr (ne_nil_of_reads r.reads_checksum)
  have hname := List.length_pos_iff.mpr (ne_nil_of_reads r.reads_name)
  simp only [content, List.length_append, r.length_start]
  omega

theorem parseOsrHeader_content (r : Replay) : parseOsrHeader r.content = .ok r.header := by
  have hrest : r.nameField ++ (r.dataField ++ (r.onlineIdField ++ r.rest)) ≠ [] := by
    simp [ne_nil_of_reads r.reads_name]
  unfold parseOsrHeader
  rw [if_neg r.length_content, r.take_content, if_neg (not_lt.mpr r.mode_le), r.drop_content,
    r.reads_checksum _, r.version_content]
  dsimp only [bind, Except.bind]
  rw [if_neg (by rw [r.checksum_md5]; decide), if_neg hrest, r.reads_name _, r.ruleset_eq]
  rfl

theorem readScore_content {now : Time} (h : r.Plausible now) :
    readScore now r.header (r.content.drop 5) = .ok (r.score, r.rest) := by
  unfold readScore
  rw [r.drop_content, r.reads_checksum.bind_apply, r.reads_name.bind_apply,
    r.reads_data.bind_apply]
  show (readOnlineScoreId (leNat (r.start.drop 1)) >>= _) _ = _
  rw [r.reads_onlineId.bind_apply, refuse_bind_of_not r.time_held, refuse_bind_of_not h]
  rfl

end Replay

/-- What a header says of the start and the checksum. -/
theorem parseOsrHeader_ok {content : Bytes} {header : OsrReplayHeader}
    (h : parseOsrHeader content = .ok header) :
    ∃ checksum rest, 7 ≤ content.length ∧ leNat (content.take 1) ≤ 3 ∧
      GameMode.fromInt (leNat (content.take 1)) = some header.ruleset ∧
      header.clientVersion = leNat ((content.drop 1).take 4) ∧
      readOsrString (content.drop 5) = .ok (checksum, rest) ∧
      isMd5 checksum.toLower = true ∧ header.beatmapChecksum = checksum.toLower := by
  unfold parseOsrHeader at h
  dsimp only at h
  split at h
  · cases h
  · next hlength =>
    split at h
    · cases h
    · next hmode =>
      obtain ⟨⟨checksum, rest⟩, hstring, h⟩ := except_bind_eq_ok.mp h
      dsimp only at h
      split at h
      · cases h
      · next hmd5 =>
        cases hruleset : GameMode.fromInt (leNat (content.take 1)) with
        | none =>
          simp only [hruleset] at h
          split at h
          · cases h
          · obtain ⟨_, -, h⟩ := except_bind_eq_ok.mp h
            cases h
        | some ruleset =>
          have hheader : ∃ name, header =
              { ruleset, clientVersion := leNat ((content.drop 1).take 4),
                beatmapChecksum := checksum.toLower, playerName := name } := by
            simp only [hruleset] at h
            split at h
            · exact ⟨_, (Except.ok.inj h).symm⟩
            · obtain ⟨name, -, h⟩ := except_bind_eq_ok.mp h
              exact ⟨name, (Except.ok.inj h).symm⟩
          obtain ⟨name, rfl⟩ := hheader
          exact ⟨checksum, rest, not_lt.mp hlength, not_lt.mp hmode, rfl, rfl, hstring,
            by simpa using hmd5, rfl⟩

/-- An accepted file has the parts of a replay. -/
theorem exists_replay {now : Time} {content : Bytes} {score : ParsedOsrScore}
    (h : parseUploadedOsr now content = .ok score) :
    ∃ r : Replay, r.content = content ∧ r.score = score ∧ r.Plausible now ∧
      content.length ≤ maxReplayBytes := by
  unfold parseUploadedOsr at h
  split at h
  · cases h
  · split at h
    · cases h
    · next hsize =>
      obtain ⟨header, hheader, h⟩ := except_bind_eq_ok.mp h
      obtain ⟨⟨_, _⟩, hscore, h⟩ := except_bind_eq_ok.mp h
      obtain rfl := Except.ok.inj h
      obtain ⟨checksum, _, hlength, hmode, hruleset, hversion, hchecksum, hmd5, hlower⟩ :=
        parseOsrHeader_ok hheader
      unfold readScore at hscore
      obtain ⟨checksum', _, hread, hscore⟩ := bind_eq_ok.mp hscore
      obtain ⟨rfl, rfl⟩ : checksum = checksum' ∧ _ = _ := by
        simpa using hchecksum.symm.trans hread
      obtain ⟨playerName, _, hname, hscore⟩ := bind_eq_ok.mp hscore
      obtain ⟨data, _, hdata, hscore⟩ := bind_eq_ok.mp hscore
      obtain ⟨onlineScoreId, rest, honline, hscore⟩ := bind_eq_ok.mp hscore
      obtain ⟨hheld, hscore⟩ := refuse_bind_eq_ok.mp hscore
      obtain ⟨hreplay, hscore⟩ := refuse_bind_eq_ok.mp hscore
      obtain ⟨hresult, -⟩ := Prod.mk.inj (Except.ok.inj hscore)
      obtain ⟨checksumField, hsplit, reads_checksum⟩ := local_readOsrString _ _ _ hread
      obtain ⟨nameField, rfl, reads_name⟩ := local_readOsrString _ _ _ hname
      obtain ⟨dataField, rfl, reads_data⟩ := local_readReplayData _ _ _ hdata
      obtain ⟨onlineIdField, rfl, reads_onlineId⟩ := local_readOnlineScoreId _ _ _ _ honline
      have hstart : (content.take 5).length = 5 := List.length_take_of_le (by omega)
      have htake : (content.take 5).take 1 = content.take 1 := by rw [List.take_take]; rfl
      have hdrop : (content.take 5).drop 1 = (content.drop 1).take 4 := List.drop_take
      refine ⟨{
        start := content.take 5, length_start := hstart, ruleset := header.ruleset
        mode_le := by rwa [htake], ruleset_eq := by rwa [htake]
        checksumField, checksum, reads_checksum, checksum_md5 := hmd5
        nameField, playerName, reads_name, dataField, data, reads_data
        onlineIdField, onlineScoreId
        reads_onlineId := by rwa [hdrop, ← hversion]
        time_held := hheld, rest }, ?_, ?_, hreplay, not_lt.mp hsize⟩
      · rw [Replay.content, ← hsplit, List.take_append_drop]
      · rw [← hresult]
        show data.score ⟨header.ruleset, leNat ((content.take 5).drop 1), checksum.toLower,
          playerName⟩ playerName onlineScoreId = data.score header playerName onlineScoreId
        rw [hdrop, ← hversion, ← hlower]
        rfl

/-- A file with the parts of a replay is accepted if it is small enough. -/
theorem parseUploadedOsr_content {now : Time} {r : Replay} (h : r.Plausible now) :
    parseUploadedOsr now r.content =
      if r.content.length ≤ maxReplayBytes then .ok r.score
      else .error "The uploaded replay exceeds the 32 MiB safety limit" := by
  have hcontent : r.content ≠ [] := by
    intro hnil
    exact r.length_content (by rw [hnil]; decide)
  unfold parseUploadedOsr
  rw [if_neg hcontent]
  by_cases hsize : r.content.length ≤ maxReplayBytes
  · rw [if_neg (not_lt.mpr hsize), if_pos hsize, r.parseOsrHeader_content]
    dsimp only [bind, Except.bind]
    rw [Replay.readScore_content h]
  · rw [if_pos (not_le.mp hsize), if_neg hsize]

/-! ## The name -/

/-- The loop writes the shortest form of a length. -/
theorem encodedLength_eq {n : Nat} (hn : n ≠ 0) : encodedLength n = uleb128 n := by
  have hlow : n &&& 0x7F = n % 128 := by
    rw [show (0x7F : Nat) = 2 ^ 7 - 1 from rfl, Nat.and_two_pow_sub_one_eq_mod]
  have hhigh : n >>> 7 = n / 128 := Nat.shiftRight_eq_div_pow n 7
  rw [encodedLength, if_neg hn, hlow, hhigh, uleb128]
  by_cases hsmall : n < 128
  · have hzero : n / 128 = 0 := by omega
    rw [if_pos hsmall, hzero, if_neg (not_not.mpr rfl), Nat.or_zero, Nat.mod_eq_of_lt hsmall,
      encodedLength, if_pos rfl]
  · have hne : n / 128 ≠ 0 := by omega
    have hmark : n % 128 ||| 0x80 = n % 128 + 128 := by
      rw [Nat.or_comm, Nat.add_comm]
      exact (Nat.two_pow_add_eq_or_of_lt (i := 7) (by omega) 1).symm
    rw [if_neg hsmall, if_pos hne, hmark, encodedLength_eq hne]
termination_by n
decreasing_by omega

/-- An encoded text is read back, whatever follows. -/
theorem reads_encodeOsrString {value : String} {encoded : Bytes}
    (h : encodeOsrString value = .ok encoded) : Reads readOsrString encoded value := by
  unfold encodeOsrString at h
  dsimp only at h
  split at h
  · cases h
  · next hlimit =>
    split at h
    · next hempty =>
      obtain rfl := Except.ok.inj h
      obtain rfl := utf8_eq_nil.mp hempty
      exact reads_readOsrString (s := .null) (by decide)
    · next hempty =>
      obtain rfl := Except.ok.inj h
      rw [encodedLength_eq fun h => hempty (List.eq_nil_of_length_eq_zero h)]
      exact reads_readOsrString (s := .text value) (not_lt.mp hlimit)

theorem encodeOsrString_ok {value : String} (h : (utf8 value).length ≤ maxOsrStringBytes) :
    ∃ encoded, encodeOsrString value = .ok encoded := by
  unfold encodeOsrString
  rw [if_neg (not_lt.mpr h)]
  split
  · exact ⟨_, rfl⟩
  · exact ⟨_, rfl⟩

theorem length_encodeOsrString {value : String} {encoded : Bytes}
    (h : encodeOsrString value = .ok encoded) : (utf8 value).length ≤ encoded.length := by
  unfold encodeOsrString at h
  dsimp only at h
  split at h
  · cases h
  · split at h
    · next hempty =>
      rw [hempty]
      exact Nat.zero_le _
    · obtain rfl := Except.ok.inj h
      rw [List.length_cons, List.length_append]
      omega

/-- The replay under another name. -/
def Replay.rename (r : Replay) (value : String) (encoded : Bytes)
    (h : encodeOsrString value = .ok encoded) : Replay :=
  { r with nameField := encoded, playerName := value, reads_name := reads_encodeOsrString h }

/-- The file of a replay is rewritten to the one under the other name. -/
theorem rewriteOsrPlayerName_content {now : Time} {r : Replay} (hreplay : r.Plausible now)
    (hsize : r.content.length ≤ maxReplayBytes) {value : String} {encoded : Bytes}
    (h : encodeOsrString value = .ok encoded) :
    rewriteOsrPlayerName now r.content value = .ok (r.rename value encoded h).content := by
  have hbefore : r.content.take (r.content.length -
      (r.nameField ++ (r.dataField ++ (r.onlineIdField ++ r.rest))).length) =
        r.start ++ r.checksumField := by
    have hsplit : r.content = (r.start ++ r.checksumField) ++
        (r.nameField ++ (r.dataField ++ (r.onlineIdField ++ r.rest))) := by
      rw [Replay.content, List.append_assoc]
    rw [hsplit, List.length_append, Nat.add_sub_cancel, List.take_left]
  unfold rewriteOsrPlayerName
  rw [parseUploadedOsr_content hreplay, if_pos hsize]
  dsimp only [bind, Except.bind]
  rw [r.drop_content, r.reads_checksum _]
  dsimp only
  rw [r.reads_name _]
  dsimp only
  rw [h, hbefore]
  simp [Replay.rename, Replay.content, pure, Except.pure]

/-- The name field of a replay is the one between its checksum and its data. -/
theorem Replay.length_nameField {r : Replay} {field after : Bytes} {checksumField : Bytes}
    {checksum name : String} (hdrop : r.content.drop 5 = checksumField ++ (field ++ after))
    (hchecksum : Reads readOsrString checksumField checksum)
    (hname : Reads readOsrString field name) : r.nameField.length = field.length := by
  rw [r.drop_content] at hdrop
  have hfrom := (r.reads_checksum _).symm.trans
    ((congrArg readOsrString hdrop).trans (hchecksum _))
  obtain ⟨-, hfrom⟩ := Prod.mk.inj (Except.ok.inj hfrom)
  have hafter := (r.reads_name _).symm.trans ((congrArg readOsrString hfrom).trans (hname _))
  obtain ⟨-, hafter⟩ := Prod.mk.inj (Except.ok.inj hafter)
  have hlength := congrArg List.length hfrom
  rw [hafter, List.length_append, List.length_append] at hlength
  omega

/-- A replay that is as large as a file may be is too large under a longer name. -/
theorem renamed_too_large :
    ∃ (now : Time) (content : Bytes) (score : ParsedOsrScore) (playerName : String),
      parseUploadedOsr now content = .ok score ∧
      (utf8 playerName).length ≤ maxOsrStringBytes ∧
      ¬ ∃ renamed, rewriteOsrPlayerName now content playerName = .ok renamed ∧
        parseUploadedOsr now renamed =
          .ok { score with header := { score.header with playerName } } := by
  have hreplay := plausible_sampleReplay .null
  have hbase : ((sampleReplay .null).encode [1, 2, 3] []).length ≤ maxReplayBytes := by
    decide +kernel
  obtain ⟨rest, hrest⟩ : ∃ rest : Bytes,
      rest.length = maxReplayBytes - ((sampleReplay .null).encode [1, 2, 3] []).length :=
    ⟨List.replicate _ 0, List.length_replicate⟩
  have hlength : ((sampleReplay .null).encode [1, 2, 3] rest).length = maxReplayBytes := by
    have happend : (sampleReplay .null).encode [1, 2, 3] rest =
        (sampleReplay .null).encode [1, 2, 3] [] ++ rest := by
      simp [OsrFields.encode, OsrFields.encodeCounts]
    rw [happend, List.length_append]
    omega
  have hparsed := parseUploadedOsr_eq hreplay hlength.le
  rw [if_pos (by decide +kernel)] at hparsed
  obtain ⟨encoded, hencoded⟩ := encodeOsrString_ok
    (show (utf8 "a longer name").length ≤ maxOsrStringBytes by decide +kernel)
  refine ⟨_, _, _, "a longer name", hparsed, by decide +kernel, ?_⟩
  rintro ⟨renamed, hrenamed, hagain⟩
  obtain ⟨r, hr, -, hr', -⟩ := exists_replay hparsed
  rw [← hr, rewriteOsrPlayerName_content hr' (by rw [hr, hlength]) hencoded] at hrenamed
  obtain rfl := Except.ok.inj hrenamed
  have hdrop : r.content.drop 5 = (OsuString.text (sampleReplay .null).checksum).encode ++
      ((sampleReplay .null).playerName.encode ++ ((sampleReplay .null).replayHash.encode ++
        (sampleReplay .null).encodeCounts [1, 2, 3] rest)) := by
    rw [hr]
    rfl
  have hfield : r.nameField.length = (sampleReplay .null).playerName.encode.length :=
    Replay.length_nameField hdrop (reads_checksum (sampleReplay .null))
      (reads_readOsrString (by decide +kernel))
  have hlonger : r.nameField.length < (utf8 "a longer name").length := by
    rw [hfield]
    decide +kernel
  have hencodedLength := length_encodeOsrString hencoded
  have htotal := congrArg List.length hr
  rw [hlength] at htotal
  rw [parseUploadedOsr_content (show (r.rename _ encoded hencoded).Plausible _ from hr'),
    if_neg] at hagain
  · cases hagain
  · simp only [Replay.content, Replay.rename, List.length_append] at htotal ⊢
    omega

/-- Another name leaves every byte before and after the name field.  The file is then read as the
same score of the other player, unless it has become too large. -/
theorem rewriteOsrPlayerName_ok {now now' : Time} {content : Bytes} {score : ParsedOsrScore}
    {playerName : String} (hnow : now ≤ now') (h : parseUploadedOsr now content = .ok score)
    (hname : (utf8 playerName).length ≤ maxOsrStringBytes) :
    (∃ before field after encoded checksum, content = before ++ field ++ after ∧
      5 ≤ before.length ∧ Reads readOsrString (before.drop 5) checksum ∧
      Reads readOsrString field score.header.playerName ∧
      Reads readOsrString encoded playerName ∧
      rewriteOsrPlayerName now content playerName = .ok (before ++ encoded ++ after) ∧
      parseUploadedOsr now' (before ++ encoded ++ after) =
        if (before ++ encoded ++ after).length ≤ maxReplayBytes then
          .ok { score with header := { score.header with playerName } }
        else .error "The uploaded replay exceeds the 32 MiB safety limit") ∧
    ∀ value encoded, encodeOsrString value = .ok encoded →
      ∀ rest, readOsrString (encoded ++ rest) = .ok (value, rest) := by
  refine ⟨?_, fun value encoded hencoded => reads_encodeOsrString hencoded⟩
  obtain ⟨r, rfl, rfl, hreplay, hsize⟩ := exists_replay h
  obtain ⟨encoded, hencoded⟩ := encodeOsrString_ok hname
  have hcontent : (r.rename playerName encoded hencoded).content =
      (r.start ++ r.checksumField) ++ encoded ++ (r.dataField ++ (r.onlineIdField ++ r.rest)) := by
    simp [Replay.content, Replay.rename]
  have hlater : (r.rename playerName encoded hencoded).Plausible now' := hreplay.later hnow
  refine ⟨r.start ++ r.checksumField, r.nameField, r.dataField ++ (r.onlineIdField ++ r.rest),
    encoded, r.checksum, by simp [Replay.content], ?_, ?_, r.reads_name,
    reads_encodeOsrString hencoded, ?_, ?_⟩
  · rw [List.length_append, r.length_start]
    omega
  · rw [← r.length_start, List.drop_left]
    exact r.reads_checksum
  · rw [rewriteOsrPlayerName_content hreplay hsize hencoded, hcontent]
  · rw [← hcontent, parseUploadedOsr_content hlater]
    rfl

theorem sampleReplay_renamed :
    ∃ renamed, rewriteOsrPlayerName 1788179696000000
      ((sampleReplay .null).encode [1, 2, 3] [4, 5]) "another" = .ok renamed := by
  have hparsed := @parseUploadedOsr_eq _ (sampleReplay .null) [1, 2, 3] [4, 5]
    (plausible_sampleReplay .null) (by decide +kernel)
  rw [if_pos (by decide +kernel)] at hparsed
  obtain ⟨before, _, after, encoded, _, -, -, -, -, -, hrenamed, -⟩ :=
    (rewriteOsrPlayerName_ok le_rfl hparsed
      (show (utf8 "another").length ≤ maxOsrStringBytes by decide +kernel)).1
  exact ⟨before ++ encoded ++ after, hrenamed⟩

end Soms.Imports

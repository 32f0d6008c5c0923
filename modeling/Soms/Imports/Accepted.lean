import Mathlib
import Soms.Imports.Osr

/-!
# The replay files that are accepted

A replay is its fields, in the order of the file, with the frames and what follows the online id.
The reader gives the fields back exactly if no text is longer than 64 bytes; the life bar of a
replay is longer.
-/

namespace Soms.Imports

open Reader
open Soms.Scores (GameMode Time)

/-! ## Strings -/

/-- A text of a replay, or its absence. -/
inductive OsuString where
  | null
  | text (s : String)
  deriving DecidableEq

namespace OsuString

def value : OsuString → String
  | null => ""
  | text s => s

/-- The bytes of the text. -/
def size (s : OsuString) : Nat := (utf8 s.value).length

def encode : OsuString → Bytes
  | null => [0]
  | text s => 0x0B :: (uleb128 (utf8 s).length ++ utf8 s)

end OsuString

theorem length_uleb128_pos (n : Nat) : 0 < (uleb128 n).length := by
  rw [uleb128]
  split <;> exact Nat.succ_pos _

/-- A text within the limit is read, a longer one is refused. -/
theorem readOsrString_encode (s : OsuString) (hsize : s.size < 2 ^ 35) (rest : Bytes) :
    readOsrString (s.encode ++ rest) =
      if s.size ≤ maxOsrStringBytes then .ok (s.value, rest)
      else .error "The official replay contains an invalid string length" := by
  cases s with
  | null => rfl
  | text s =>
    have hlength : Reads (readUleb128 "The official replay header is truncated"
        "The official replay contains an invalid string length" 5 0 0)
        (uleb128 (utf8 s).length) (utf8 s).length := by
      have h := reads_uleb128 "The official replay header is truncated"
        "The official replay contains an invalid string length" 5 0 0 _ hsize (by decide)
      rwa [Nat.zero_mul, Nat.shiftLeft_zero, Nat.zero_or] at h
    have hmarker : OsuString.encode (.text s) ++ rest =
        [0x0B] ++ (uleb128 (utf8 s).length ++ (utf8 s ++ rest)) := by
      simp [OsuString.encode]
    rw [hmarker, readOsrString, (Reads.next _ _).bind_apply, if_neg (by decide),
      refuse_bind_of_not (by decide), hlength.bind_apply]
    show _ = if (utf8 s).length ≤ maxOsrStringBytes then _ else _
    by_cases hlimit : (utf8 s).length ≤ maxOsrStringBytes
    · rw [if_pos hlimit, refuse_bind_of_not (by omega), (Reads.take _ _).bind_apply, ofUtf8_utf8]
      rfl
    · rw [if_neg hlimit, refuse_bind_of (by omega)]

theorem reads_readOsrString {s : OsuString} (hsize : s.size ≤ maxOsrStringBytes) :
    Reads readOsrString s.encode s.value := by
  intro rest
  have hbound : maxOsrStringBytes < 2 ^ 35 := by decide
  rw [readOsrString_encode s (by omega), if_pos hsize]

theorem local_readOsrString : Local readOsrString := by
  refine (Local.next _).bind fun marker => (Local.pure _).ite ?_
  refine (Local.refuse _ _).bind fun _ => (local_readUleb128 _ _ _ _ _).bind fun length => ?_
  refine (Local.refuse _ _).bind fun _ => (Local.take _ _).bind fun encoded => ?_
  cases ofUtf8 encoded with
  | none => exact Local.fail _
  | some text => exact Local.pure text

/-! ## Numbers -/

theorem reads_readUnsigned {size n : Nat} (h : n < 256 ^ size) (description : String) :
    Reads (readUnsigned size description) (leBytes size n) n := by
  have htake : Reads (take size ("The replay is truncated before " ++ description))
      (leBytes size n) (leBytes size n) := by
    have hreads := Reads.take (leBytes size n)
      ("The replay is truncated before " ++ description)
    rwa [length_leBytes] at hreads
  have hnat := htake.bind_pure leNat
  rwa [leNat_of_lt h] at hnat

theorem reads_readSigned {size : Nat} {n : Int} (hlow : -(256 ^ size : Int) ≤ 2 * n)
    (hhigh : 2 * n < 256 ^ size) (description : String) :
    Reads (readSigned size description) (leBytesSigned size n) n := by
  have htake : Reads (take size ("The replay is truncated before " ++ description))
      (leBytesSigned size n) (leBytesSigned size n) := by
    have hreads := Reads.take (leBytesSigned size n)
      ("The replay is truncated before " ++ description)
    rwa [length_leBytesSigned] at hreads
  have hint := htake.bind_pure leInt
  rwa [leInt_leBytesSigned hlow hhigh] at hint

theorem reads_unsigned16 (n : UInt16) (description : String) :
    Reads (readUnsigned 2 description) (leBytes 2 n.toNat) n.toNat :=
  reads_readUnsigned n.toNat_lt description

/-! ## The fields of a replay -/

/-- A hexadecimal digit, of either case. -/
def IsHex (c : Char) : Prop := c.isDigit ∨ 'a' ≤ c ∧ c ≤ 'f' ∨ 'A' ≤ c ∧ c ≤ 'F'

instance (c : Char) : Decidable (IsHex c) := inferInstanceAs (Decidable (_ ∨ _))

/-- The fields of a replay, each in the range of its bytes. -/
structure OsrFields where
  ruleset : GameMode
  ruleset_basic : ruleset ∈ [GameMode.osu, .taiko, .fruits, .mania]
  version : UInt32
  checksum : String
  checksum_length : checksum.toList.length = 32
  checksum_digits : ∀ c ∈ checksum.toList, IsHex c
  playerName : OsuString
  replayHash : OsuString
  n300 : UInt16
  n100 : UInt16
  n50 : UInt16
  ngeki : UInt16
  nkatu : UInt16
  nmiss : UInt16
  totalScore : Nat
  totalScore_lt : totalScore < 2 ^ 31
  maxCombo : UInt16
  perfectCombo : Bool
  mods : UInt32
  lifeBar : OsuString
  ticks : Int
  onlineId : Int
  onlineId_fits : if 20140721 ≤ version.toNat then -2 ^ 63 ≤ onlineId ∧ onlineId < 2 ^ 63
    else -2 ^ 31 ≤ onlineId ∧ onlineId < 2 ^ 31

namespace OsrFields

/-- The time is of a date from 2007 until now. -/
def Plausible (now : Time) (f : OsrFields) : Prop :=
  2007 ≤ Daily.year (Daily.date (timeOfTicks f.ticks)) ∧ timeOfTicks f.ticks ≤ now ∧
    timeOfTicks f.ticks < Daily.yearStart 10000 * Daily.dayLength

/-- No text is longer than the limit for strings. -/
def ShortTexts (f : OsrFields) : Prop :=
  f.playerName.size ≤ maxOsrStringBytes ∧ f.replayHash.size ≤ maxOsrStringBytes ∧
    f.lifeBar.size ≤ maxOsrStringBytes

def onlineIdBytes (f : OsrFields) : Bytes :=
  if 20140721 ≤ f.version.toNat then leBytesSigned 8 f.onlineId
  else if 20121008 ≤ f.version.toNat then leBytesSigned 4 f.onlineId
  else []

/-- From the counts on. -/
def encodeCounts (f : OsrFields) (frames rest : Bytes) : Bytes :=
  leBytes 2 f.n300.toNat ++ (leBytes 2 f.n100.toNat ++ (leBytes 2 f.n50.toNat ++
    (leBytes 2 f.ngeki.toNat ++ (leBytes 2 f.nkatu.toNat ++ (leBytes 2 f.nmiss.toNat ++
      (leBytesSigned 4 f.totalScore ++ (leBytes 2 f.maxCombo.toNat ++
        (leBytes 1 f.perfectCombo.toNat ++ (leBytes 4 f.mods.toNat ++
          (f.lifeBar.encode ++ (leBytesSigned 8 f.ticks ++ (leBytesSigned 4 frames.length ++
            (frames ++ (f.onlineIdBytes ++ rest))))))))))))))

/-- A replay with its frames and what follows the online id. -/
def encode (f : OsrFields) (frames rest : Bytes) : Bytes :=
  leBytes 1 f.ruleset.toInt ++ (leBytes 4 f.version.toNat ++
    ((OsuString.text f.checksum).encode ++ (f.playerName.encode ++ (f.replayHash.encode ++
      f.encodeCounts frames rest))))

def header (f : OsrFields) : OsrReplayHeader where
  ruleset := f.ruleset
  clientVersion := f.version.toNat
  beatmapChecksum := f.checksum.toLower
  playerName := f.playerName.value

/-- What is read of the fields. -/
def score (f : OsrFields) : ParsedOsrScore where
  header := f.header
  replayHash := f.replayHash.value
  n300 := f.n300.toNat
  n100 := f.n100.toNat
  n50 := f.n50.toNat
  ngeki := f.ngeki.toNat
  nkatu := f.nkatu.toNat
  nmiss := f.nmiss.toNat
  totalScore := f.totalScore
  maxCombo := f.maxCombo.toNat
  perfectCombo := f.perfectCombo
  legacyMods := f.mods.toNat
  endedAt := timeOfTicks f.ticks
  onlineScoreId :=
    if 20121008 ≤ f.version.toNat ∧ 0 < f.onlineId then some f.onlineId else none

end OsrFields

/-! ## Reading the fields -/

theorem IsHex.ascii {c : Char} (h : IsHex c) : c.toNat < 128 := by
  have hle : ∀ d : Char, d.toNat < 128 → c ≤ d → c.toNat < 128 := fun d hd hcd =>
    Nat.lt_of_le_of_lt (UInt32.le_iff_toNat_le.mp hcd) hd
  rcases h with h | ⟨-, h⟩ | ⟨-, h⟩
  · exact hle '9' (by decide) (of_decide_eq_true (Bool.and_eq_true_iff.mp h).2)
  · exact hle 'f' (by decide) h
  · exact hle 'F' (by decide) h

theorem IsHex.toLower {c : Char} (h : IsHex c) :
    (c.toLower.isDigit || ('a' ≤ c.toLower && c.toLower ≤ 'f')) = true := by
  have hall : ∀ n < 128, IsHex (Char.ofNat n) → ((Char.ofNat n).toLower.isDigit ||
      ('a' ≤ (Char.ofNat n).toLower && (Char.ofNat n).toLower ≤ 'f')) = true := by
    decide
  have hc := hall c.toNat h.ascii
  rw [Char.ofNat_toNat] at hc
  exact hc h

section Fields

variable {now : Time} {f : OsrFields} {frames rest : Bytes}

theorem isMd5_checksum (f : OsrFields) : isMd5 f.checksum.toLower = true := by
  have hlist : f.checksum.toLower.toList = f.checksum.toList.map Char.toLower := by
    simp [String.toLower]
  rw [isMd5, hlist, Bool.and_eq_true, List.length_map, f.checksum_length, List.all_map]
  exact ⟨rfl, List.all_eq_true.mpr fun c hc => (f.checksum_digits c hc).toLower⟩

theorem reads_checksum (f : OsrFields) :
    Reads readOsrString (OsuString.text f.checksum).encode f.checksum := by
  refine reads_readOsrString (s := .text f.checksum) ?_
  show (utf8 f.checksum).length ≤ maxOsrStringBytes
  rw [length_utf8_of_ascii fun c hc => (f.checksum_digits c hc).ascii, f.checksum_length]
  decide

theorem fromInt_ruleset (f : OsrFields) :
    f.ruleset.toInt ≤ 3 ∧ GameMode.fromInt f.ruleset.toInt = some f.ruleset := by
  have h := f.ruleset_basic
  simp only [List.mem_cons, List.not_mem_nil, or_false] at h
  rcases h with h | h | h | h <;> rw [h] <;> decide

/-- The header of a replay. -/
theorem parseOsrHeader_encode (f : OsrFields) (hname : f.playerName.size < 2 ^ 35) :
    parseOsrHeader (f.encode frames rest) =
      if f.playerName.size ≤ maxOsrStringBytes then .ok f.header
      else .error "The official replay contains an invalid string length" := by
  have hmode : (f.encode frames rest).take 1 = leBytes 1 f.ruleset.toInt := rfl
  have hversion : ((f.encode frames rest).drop 1).take 4 = leBytes 4 f.version.toNat := rfl
  have hdrop : (f.encode frames rest).drop 5 = (OsuString.text f.checksum).encode ++
    (f.playerName.encode ++ (f.replayHash.encode ++ f.encodeCounts frames rest)) := rfl
  have hlength : ¬ (f.encode frames rest).length < 7 := by
    simp [OsrFields.encode, OsrFields.encodeCounts]
    omega
  obtain ⟨hle, hruleset⟩ := fromInt_ruleset f
  have hmodeId : leNat (leBytes 1 f.ruleset.toInt) = f.ruleset.toInt := leNat_of_lt (by omega)
  have hclient : leNat (leBytes 4 f.version.toNat) = f.version.toNat :=
    leNat_of_lt f.version.toNat_lt
  have hrest : f.playerName.encode ++ (f.replayHash.encode ++ f.encodeCounts frames rest) ≠ [] := by
    simp [OsrFields.encodeCounts, leBytes]
  unfold parseOsrHeader
  rw [if_neg hlength, hmode, hversion, hdrop, hmodeId, hclient, if_neg (by omega),
    reads_checksum f _]
  dsimp only [bind, Except.bind]
  rw [if_neg (by rw [isMd5_checksum]; decide), if_neg hrest, readOsrString_encode _ hname, hruleset]
  by_cases hlimit : f.playerName.size ≤ maxOsrStringBytes
  · rw [if_pos hlimit, if_pos hlimit]
    rfl
  · rw [if_neg hlimit, if_neg hlimit]
    rfl

theorem reads_readOnlineScoreId (f : OsrFields) :
    Reads (readOnlineScoreId f.version.toNat) f.onlineIdBytes f.score.onlineScoreId := by
  have hfits := f.onlineId_fits
  show Reads _ _ (if 20121008 ≤ f.version.toNat ∧ 0 < f.onlineId then some f.onlineId else none)
  unfold readOnlineScoreId OsrFields.onlineIdBytes
  by_cases hlong : 20140721 ≤ f.version.toNat
  · have hversion : 20121008 ≤ f.version.toNat := by omega
    rw [if_pos hlong] at hfits
    simp only [if_pos hlong, hversion, true_and]
    exact (reads_readSigned (by omega) (by omega) _).bind_pure _
  · rw [if_neg hlong] at hfits
    rw [if_neg hlong, if_neg hlong]
    by_cases hversion : 20121008 ≤ f.version.toNat
    · simp only [hversion, if_true, true_and]
      exact (reads_readSigned (by omega) (by omega) _).bind_pure _
    · simp only [hversion, false_and, if_false]
      exact Reads.pure none

/-- A plausible time can be held. -/
theorem OsrFields.Plausible.range (h : f.Plausible now) :
    0 ≤ f.ticks ∧ 2 * f.ticks < 256 ^ 8 ∧
      ¬ (timeOfTicks f.ticks < Daily.yearStart 1 * Daily.dayLength ∨
        Daily.yearStart 10000 * Daily.dayLength ≤ timeOfTicks f.ticks) ∧
      ¬ (Daily.year (Daily.date (timeOfTicks f.ticks)) < 2007 ∨
        now + Daily.dayLength < timeOfTicks f.ticks) := by
  obtain ⟨hyear, hnow, hmax⟩ := h
  have hday : Daily.yearStart 2007 ≤ Daily.date (timeOfTicks f.ticks) :=
    (Daily.yearStart_strictMono.monotone hyear).trans (Daily.year_spec _).1
  have hstart : Daily.yearStart 1 = -719162 := by decide
  have hend : Daily.yearStart 10000 = 2932897 := by decide
  have h2007 : Daily.yearStart 2007 = 13514 := by decide
  obtain ⟨t, ht⟩ : ∃ t : Int, t = timeOfTicks f.ticks := ⟨_, rfl⟩
  have hticks : t = f.ticks / 10 + -719162 * 86400000000 := by
    rw [ht, timeOfTicks, hstart, Daily.dayLength]
  rw [Daily.date, h2007, Daily.dayLength] at hday
  rw [hend, Daily.dayLength] at hmax
  rw [hstart, hend, Daily.dayLength]
  rw [← ht] at hyear hnow hday hmax ⊢
  have hlow : ¬ t < -719162 * 86400000000 := by omega
  have hnext : ¬ now + 86400000000 < t :=
    not_lt.mpr (hnow.trans (Int.le_add_of_nonneg_right (by decide)))
  have hbelow : t < 2932897 * 86400000000 := hmax
  exact ⟨by omega, by omega, not_or.mpr ⟨hlow, not_le.mpr hmax⟩,
    not_or.mpr ⟨not_lt.mpr hyear, hnext⟩⟩

theorem reads_bool (b : Bool) (description : String) :
    Reads (readUnsigned 1 description) (leBytes 1 b.toNat) b.toNat :=
  reads_readUnsigned (by cases b <;> decide) description

def OsrFields.data (f : OsrFields) : ReplayData where
  replayHash := f.replayHash.value
  n300 := f.n300.toNat
  n100 := f.n100.toNat
  n50 := f.n50.toNat
  ngeki := f.ngeki.toNat
  nkatu := f.nkatu.toNat
  nmiss := f.nmiss.toNat
  totalScore := f.totalScore
  maxCombo := f.maxCombo.toNat
  perfectComboRaw := f.perfectCombo.toNat
  legacyMods := f.mods.toNat
  ticks := f.ticks

/-- From the replay hash to the end of the frames. -/
theorem readReplayData_encode (hticks : 0 ≤ f.ticks) (hticks' : 2 * f.ticks < 256 ^ 8)
    (hframes : frames.length < 2 ^ 31) (hhash : f.replayHash.size < 2 ^ 35)
    (hlife : f.lifeBar.size < 2 ^ 35) :
    readReplayData (f.replayHash.encode ++ f.encodeCounts frames rest) =
      if f.replayHash.size ≤ maxOsrStringBytes ∧ f.lifeBar.size ≤ maxOsrStringBytes then
        .ok (f.data, f.onlineIdBytes ++ rest)
      else .error "The official replay contains an invalid string length" := by
  have htotal := f.totalScore_lt
  unfold readReplayData
  by_cases hhashLimit : f.replayHash.size ≤ maxOsrStringBytes
  · rw [(reads_readOsrString hhashLimit).bind_apply, OsrFields.encodeCounts,
      (reads_unsigned16 f.n300 _).bind_apply, (reads_unsigned16 f.n100 _).bind_apply,
      (reads_unsigned16 f.n50 _).bind_apply, (reads_unsigned16 f.ngeki _).bind_apply,
      (reads_unsigned16 f.nkatu _).bind_apply, (reads_unsigned16 f.nmiss _).bind_apply,
      (reads_readSigned (by omega) (by omega) _).bind_apply,
      (reads_unsigned16 f.maxCombo _).bind_apply, (reads_bool f.perfectCombo _).bind_apply,
      (reads_readUnsigned f.mods.toNat_lt _).bind_apply]
    by_cases hlifeLimit : f.lifeBar.size ≤ maxOsrStringBytes
    · have hcombo : ¬ 1 < f.perfectCombo.toNat := by cases f.perfectCombo <;> decide
      rw [if_pos ⟨hhashLimit, hlifeLimit⟩, (reads_readOsrString hlifeLimit).bind_apply,
        (reads_readSigned (by omega) hticks' _).bind_apply,
        (reads_readSigned (by omega) (by omega) _).bind_apply,
        refuse_bind_of_not (by omega), refuse_bind_of_not hcombo, refuse_bind_of_not (by omega),
        Int.toNat_natCast, (Reads.take frames _).bind_apply]
      rfl
    · rw [if_neg fun h => hlifeLimit h.2]
      exact bind_error (by rw [readOsrString_encode _ hlife, if_neg hlifeLimit]) _
  · rw [if_neg fun h => hhashLimit h.1]
    exact bind_error (by rw [readOsrString_encode _ hhash, if_neg hhashLimit]) _

/-- From the checksum on. -/
theorem readScore_encode (hreplay : f.Plausible now) (hframes : frames.length < 2 ^ 31)
    (hname : f.playerName.size ≤ maxOsrStringBytes) (hhash : f.replayHash.size < 2 ^ 35)
    (hlife : f.lifeBar.size < 2 ^ 35) :
    readScore now f.header ((OsuString.text f.checksum).encode ++ (f.playerName.encode ++
      (f.replayHash.encode ++ f.encodeCounts frames rest))) =
        if f.replayHash.size ≤ maxOsrStringBytes ∧ f.lifeBar.size ≤ maxOsrStringBytes then
          .ok (f.score, rest)
        else .error "The official replay contains an invalid string length" := by
  obtain ⟨hticks, hticks', hrange, hdate⟩ := hreplay.range
  have hdata := @readReplayData_encode f frames rest hticks hticks' hframes hhash hlife
  unfold readScore
  rw [(reads_checksum f).bind_apply, (reads_readOsrString hname).bind_apply, bind_apply, hdata]
  by_cases hlimit : f.replayHash.size ≤ maxOsrStringBytes ∧ f.lifeBar.size ≤ maxOsrStringBytes
  · rw [if_pos hlimit, if_pos hlimit]
    show (readOnlineScoreId f.version.toNat >>= _) _ = _
    rw [(reads_readOnlineScoreId f).bind_apply, show f.data.ticks = f.ticks from rfl,
      refuse_bind_of_not hrange, refuse_bind_of_not hdate]
    have hperfect : (f.perfectCombo.toNat != 0) = f.perfectCombo := by
      cases f.perfectCombo <;> rfl
    show Except.ok (f.data.score f.header _ _, rest) = Except.ok (f.score, rest)
    rw [ReplayData.score, OsrFields.data, hperfect]
    rfl
  · rw [if_neg hlimit, if_neg hlimit]

end Fields

/-! ## What is accepted -/

theorem OsuString.size_le_encode (s : OsuString) : s.size ≤ s.encode.length := by
  cases s with
  | null => exact Nat.zero_le _
  | text s =>
    show (utf8 s).length ≤ (0x0B :: (uleb128 (utf8 s).length ++ utf8 s)).length
    rw [List.length_cons, List.length_append]
    omega

instance (f : OsrFields) : Decidable f.ShortTexts := inferInstanceAs (Decidable (_ ∧ _ ∧ _))

/-- A replay with a text that is too long is refused for it. -/
theorem parseUploadedOsr_eq {now : Time} {f : OsrFields} {frames rest : Bytes}
    (hreplay : f.Plausible now) (hsize : (f.encode frames rest).length ≤ maxReplayBytes) :
    parseUploadedOsr now (f.encode frames rest) =
      if f.ShortTexts then .ok f.score
      else .error "The official replay contains an invalid string length" := by
  have hbound : maxReplayBytes < 2 ^ 31 := by decide
  have hlengths := hsize
  simp only [OsrFields.encode, OsrFields.encodeCounts, List.length_append] at hlengths
  have hname := f.playerName.size_le_encode
  have hhash := f.replayHash.size_le_encode
  have hlife := f.lifeBar.size_le_encode
  have hcontent : f.encode frames rest ≠ [] := List.cons_ne_nil _ _
  have hdrop : (f.encode frames rest).drop 5 = (OsuString.text f.checksum).encode ++
    (f.playerName.encode ++ (f.replayHash.encode ++ f.encodeCounts frames rest)) := rfl
  unfold parseUploadedOsr
  rw [if_neg hcontent, if_neg (by omega), parseOsrHeader_encode f (by omega)]
  dsimp only [bind, Except.bind]
  by_cases hnameLimit : f.playerName.size ≤ maxOsrStringBytes
  · rw [if_pos hnameLimit, hdrop]
    dsimp only
    rw [readScore_encode hreplay (by omega) hnameLimit (by omega) (by omega)]
    by_cases hrest : f.replayHash.size ≤ maxOsrStringBytes ∧ f.lifeBar.size ≤ maxOsrStringBytes
    · rw [if_pos hrest, if_pos (show f.ShortTexts from ⟨hnameLimit, hrest⟩)]
    · rw [if_neg hrest, if_neg (show ¬ f.ShortTexts from fun h => hrest h.2)]
  · rw [if_neg hnameLimit, if_neg (show ¬ f.ShortTexts from fun h => hnameLimit h.1)]

/-- The reader gives back the fields of a replay exactly if no text is too long. -/
theorem parseUploadedOsr_encode {now : Time} {f : OsrFields} {frames rest : Bytes}
    (hreplay : f.Plausible now) (hsize : (f.encode frames rest).length ≤ maxReplayBytes) :
    parseUploadedOsr now (f.encode frames rest) = .ok f.score ↔ f.ShortTexts := by
  rw [parseUploadedOsr_eq hreplay hsize]
  by_cases hshort : f.ShortTexts
  · rw [if_pos hshort]
    exact iff_of_true rfl hshort
  · rw [if_neg hshort]
    exact iff_of_false (fun h => nomatch h) hshort

/-- A replay of the thirty-first of August of 2026. -/
def sampleReplay (lifeBar : OsuString) : OsrFields where
  ruleset := .osu
  ruleset_basic := by decide
  version := 20260831
  checksum := "ABCDEF0123456789abcdef0123456789"
  checksum_length := by decide
  checksum_digits := by simp [IsHex]
  playerName := .text "player"
  replayHash := .text "replay-md5"
  n300 := 300
  n100 := 5
  n50 := 1
  ngeki := 0
  nkatu := 0
  nmiss := 2
  totalScore := 765432
  totalScore_lt := by decide
  maxCombo := 420
  perfectCombo := false
  mods := 8
  lifeBar
  ticks := 639237764960000000
  onlineId := 987654321
  onlineId_fits := by decide

theorem plausible_sampleReplay (lifeBar : OsuString) :
    (sampleReplay lifeBar).Plausible 1788179696000000 := by
  show 2007 ≤ Daily.year (Daily.date (timeOfTicks 639237764960000000)) ∧
    timeOfTicks 639237764960000000 ≤ 1788179696000000 ∧
      timeOfTicks 639237764960000000 < Daily.yearStart 10000 * Daily.dayLength
  decide +kernel

theorem sampleReplay_parsed :
    parseUploadedOsr 1788179696000000 ((sampleReplay .null).encode [1, 2, 3] [4, 5]) =
      .ok (sampleReplay .null).score :=
  (parseUploadedOsr_encode (plausible_sampleReplay .null) (by decide +kernel)).mpr
    (by decide +kernel)

/-- A life bar of 73 bytes. -/
def lifeBarOfPlay : OsuString :=
  .text "1086|1,3086|1,5086|0.96,7086|1,9086|1,11086|0.92,13086|1,15086|1,17086|1,"

theorem life_bar_refused :
    ∃ (now : Time) (f : OsrFields) (frames rest : Bytes), f.Plausible now ∧
      (f.encode frames rest).length ≤ maxReplayBytes ∧
        parseUploadedOsr now (f.encode frames rest) ≠ .ok f.score := by
  refine ⟨1788179696000000, sampleReplay lifeBarOfPlay, [1, 2, 3], [4, 5],
    plausible_sampleReplay _, by decide +kernel, ?_⟩
  rw [parseUploadedOsr_eq (plausible_sampleReplay _) (by decide +kernel),
    if_neg (by decide +kernel)]
  exact fun h => nomatch h

end Soms.Imports

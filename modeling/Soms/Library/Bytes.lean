import Mathlib.Data.Nat.Bitwise
import Mathlib.Data.Nat.ModEq
import Mathlib.Tactic.Positivity
import Mathlib.Tactic.Zify
import Soms.Library.Reader

/-!
# Numbers in bytes

Little-endian numbers of a fixed size, with and without a sign, and numbers in groups of seven
bits of which all but the last are marked (ULEB128), and text in UTF-8.
-/

abbrev Bytes := List UInt8

/-! ## Fixed size -/

/-- The first `size` bytes of a number, the least first. -/
def leBytes : Nat → Nat → Bytes
  | 0, _ => []
  | size + 1, n => UInt8.ofNat n :: leBytes size (n / 256)

/-- The number of some bytes, the least first. -/
def leNat : Bytes → Nat
  | [] => 0
  | b :: bs => b.toNat + 256 * leNat bs

/-- The bytes of a number in two's complement. -/
def leBytesSigned (size : Nat) (n : Int) : Bytes := leBytes size (n % 256 ^ size).toNat

/-- A number in two's complement. -/
def leInt (bytes : Bytes) : Int :=
  if 2 * leNat bytes < 256 ^ bytes.length then leNat bytes
  else leNat bytes - 256 ^ bytes.length

@[simp] theorem length_leBytes (size n : Nat) : (leBytes size n).length = size := by
  induction size generalizing n with
  | zero => rfl
  | succ size ih => rw [leBytes, List.length_cons, ih]

@[simp] theorem length_leBytesSigned (size : Nat) (n : Int) :
    (leBytesSigned size n).length = size := length_leBytes _ _

theorem leNat_leBytes (size n : Nat) : leNat (leBytes size n) = n % 256 ^ size := by
  induction size generalizing n with
  | zero => simp [leBytes, leNat, Nat.mod_one]
  | succ size ih =>
    have hbyte : (UInt8.ofNat n).toNat = n % 256 := by simp
    rw [leBytes, leNat, ih, hbyte, Nat.pow_succ', Nat.mod_mul]

theorem leNat_of_lt {size n : Nat} (h : n < 256 ^ size) : leNat (leBytes size n) = n := by
  rw [leNat_leBytes, Nat.mod_eq_of_lt h]

theorem leNat_lt (bytes : Bytes) : leNat bytes < 256 ^ bytes.length := by
  induction bytes with
  | nil => simp [leNat]
  | cons b bytes ih =>
    have hb : b.toNat < 256 := b.toNat_lt
    rw [leNat, List.length_cons, Nat.pow_succ']
    omega

/-- The bytes of the number of some bytes are these bytes. -/
theorem leBytes_leNat (bytes : Bytes) : leBytes bytes.length (leNat bytes) = bytes := by
  induction bytes with
  | nil => rfl
  | cons b bytes ih =>
    have hb : b.toNat < 256 := b.toNat_lt
    have hlow : UInt8.ofNat (b.toNat + 256 * leNat bytes) = b := by
      rw [← UInt8.toNat_inj, UInt8.toNat_ofNat']
      omega
    have hhigh : (b.toNat + 256 * leNat bytes) / 256 = leNat bytes := by omega
    rw [leNat, List.length_cons, leBytes, hlow, hhigh, ih]

theorem leInt_leBytesSigned {size : Nat} {n : Int} (hlow : -(256 ^ size : Int) ≤ 2 * n)
    (hhigh : 2 * n < 256 ^ size) : leInt (leBytesSigned size n) = n := by
  have hpos : (0 : Int) < 256 ^ size := by positivity
  have hnat : (leNat (leBytesSigned size n) : Int) = n % 256 ^ size := by
    rw [leBytesSigned, leNat_of_lt]
    · exact Int.toNat_of_nonneg (Int.emod_nonneg _ hpos.ne')
    · have hlt := Int.emod_lt_of_pos n hpos
      have hnonneg := Int.emod_nonneg n hpos.ne'
      zify
      rwa [Int.toNat_of_nonneg hnonneg]
  have hcond : 2 * leNat (leBytesSigned size n) < 256 ^ (leBytesSigned size n).length ↔
      2 * (n % 256 ^ size) < 256 ^ size := by
    rw [← hnat, length_leBytesSigned]
    norm_cast
  rw [leInt, length_leBytesSigned, hnat]
  rw [length_leBytesSigned] at hcond
  by_cases hn : 0 ≤ n
  · have hmod : n % 256 ^ size = n := Int.emod_eq_of_lt hn (by omega)
    rw [if_pos (hcond.mpr (by rw [hmod]; exact hhigh)), hmod]
  · have hmod : n % 256 ^ size = n + 256 ^ size := by
      rw [← Int.add_emod_right, Int.emod_eq_of_lt (by omega) (by omega)]
    rw [if_neg (fun h => ?_), hmod]
    · omega
    · have := hcond.mp h
      rw [hmod] at this
      omega

/-! ## Groups of seven bits -/

/-- The shortest form of a number. -/
def uleb128 (n : Nat) : Bytes :=
  if n < 128 then [UInt8.ofNat n] else UInt8.ofNat (n % 128 + 128) :: uleb128 (n / 128)
termination_by n
decreasing_by omega

/-- The groups that are left, from the `index`th on. -/
def readUleb128 {ε : Type} (truncated invalid : ε) : Nat → Nat → Nat → Reader UInt8 ε Nat
  | 0, _, _ => Reader.fail invalid
  | turns + 1, index, length => do
    let value ← Reader.next truncated
    let length := length ||| (value.toNat &&& 0x7F) <<< (index * 7)
    if value.toNat &&& 0x80 = 0 then pure length
    else readUleb128 truncated invalid turns (index + 1) length

theorem local_readUleb128 {ε : Type} (truncated invalid : ε) (turns index length : Nat) :
    Reader.Local (readUleb128 truncated invalid turns index length) := by
  induction turns generalizing index length with
  | zero => exact Reader.Local.fail invalid
  | succ turns ih =>
    exact (Reader.Local.next truncated).bind fun value => (Reader.Local.pure _).ite (ih _ _)

/-- The low bits of a number and the others. -/
theorem low_or_high (n k : Nat) : n % 2 ^ k ||| (n / 2 ^ k) <<< k = n := by
  refine Nat.eq_of_testBit_eq fun i => ?_
  rw [Nat.testBit_or, Nat.testBit_mod_two_pow, Nat.testBit_shiftLeft, Nat.testBit_div_two_pow]
  by_cases hi : i < k
  · have hik : ¬ k ≤ i := by omega
    simp [hi, hik]
  · have hik : k ≤ i := by omega
    simp [hi, hik]

/-- The groups of a number are put together again. -/
theorem reads_uleb128 {ε : Type} (truncated invalid : ε) (turns index length n : Nat)
    (hn : n < 128 ^ turns) (hturns : 0 < turns) :
    Reader.Reads (readUleb128 truncated invalid turns index length) (uleb128 n)
      (length ||| n <<< (index * 7)) := by
  induction turns generalizing index length n with
  | zero => exact absurd hturns (Nat.lt_irrefl 0)
  | succ turns ih =>
    rw [uleb128]
    split
    · next hsmall =>
      have hbyte : (UInt8.ofNat n).toNat = n := by
        rw [UInt8.toNat_ofNat', Nat.mod_eq_of_lt]
        omega
      have hlow : n &&& 0x7F = n := by
        rw [show (0x7F : Nat) = 2 ^ 7 - 1 from rfl, Nat.and_two_pow_sub_one_eq_mod]
        exact Nat.mod_eq_of_lt hsmall
      have hmark : n &&& 0x80 = 0 := by
        rw [show (0x80 : Nat) = 2 ^ 7 from rfl, Nat.and_two_pow, Nat.testBit_lt_two_pow hsmall]
        rfl
      intro rest
      show (readUleb128 truncated invalid (turns + 1) index length) ([UInt8.ofNat n] ++ rest) = _
      rw [readUleb128, (Reader.Reads.next _ truncated).bind_apply]
      simp only [hbyte, hlow, hmark, if_true]
      rfl
    · next hlarge =>
      have hbyte : (UInt8.ofNat (n % 128 + 128)).toNat = n % 128 + 128 := by
        rw [UInt8.toNat_ofNat', Nat.mod_eq_of_lt]
        omega
      have hlow : (n % 128 + 128) &&& 0x7F = n % 128 := by
        rw [show (0x7F : Nat) = 2 ^ 7 - 1 from rfl, Nat.and_two_pow_sub_one_eq_mod]
        omega
      have hmark : (n % 128 + 128) &&& 0x80 ≠ 0 := by
        have hbit : (n % 128 + 128).testBit 7 = true := by
          rw [Nat.testBit_eq_decide_div_mod_eq]
          exact decide_eq_true (by omega)
        intro hzero
        have hand : (n % 128 + 128 &&& 0x80).testBit 7 = true := by
          rw [Nat.testBit_and, hbit]
          rfl
        rw [hzero, Nat.zero_testBit] at hand
        cases hand
      have hturns' : 0 < turns := by
        rcases Nat.eq_zero_or_pos turns with rfl | h
        · omega
        · exact h
      have hrest : n / 128 < 128 ^ turns := by
        rw [Nat.div_lt_iff_lt_mul (by decide), ← Nat.pow_succ]
        exact hn
      have hjoin : (length ||| (n % 128) <<< (index * 7)) ||| (n / 128) <<< ((index + 1) * 7) =
          length ||| n <<< (index * 7) := by
        rw [Nat.add_mul, Nat.one_mul, Nat.add_comm, Nat.shiftLeft_add, Nat.or_assoc,
          ← Nat.shiftLeft_or_distrib]
        exact congrArg (fun m => length ||| m <<< (index * 7)) (low_or_high n 7)
      intro rest
      rw [readUleb128, ← List.singleton_append, List.append_assoc,
        (Reader.Reads.next _ truncated).bind_apply]
      simp only [hbyte, hlow, hmark, if_false]
      rw [← hjoin]
      exact ih (index + 1) _ (n / 128) hrest hturns' rest

/-! ## Text -/

/-- The UTF-8 of a text. -/
def utf8 (s : String) : Bytes := s.toByteArray.data.toList

/-- The text of some bytes, if they are UTF-8. -/
def ofUtf8 (bytes : Bytes) : Option String := String.fromUTF8? ⟨bytes.toArray⟩

@[simp] theorem ofUtf8_utf8 (s : String) : ofUtf8 (utf8 s) = some s := by
  have hbytes : (⟨(utf8 s).toArray⟩ : ByteArray) = s.toByteArray := by simp [utf8]
  rw [ofUtf8, hbytes, String.fromUTF8?, dif_pos s.isValidUTF8]
  rfl

theorem utf8_of_ofUtf8 {bytes : Bytes} {s : String} (h : ofUtf8 bytes = some s) :
    utf8 s = bytes := by
  unfold ofUtf8 String.fromUTF8? at h
  split at h
  · obtain rfl := Option.some.inj h
    rfl
  · cases h

@[simp] theorem utf8_eq_nil {s : String} : utf8 s = [] ↔ s = "" := by
  constructor
  · intro h
    have hempty : ofUtf8 (utf8 s) = ofUtf8 (utf8 "") := by rw [h]; rfl
    simpa using hempty
  · rintro rfl
    rfl

theorem utf8_eq (s : String) : utf8 s = s.toList.flatMap String.utf8EncodeChar := by
  rw [utf8, ← String.utf8Encode_toList, List.utf8Encode]
  simp

/-- An ASCII character is one byte. -/
theorem length_utf8_of_ascii {s : String} (h : ∀ c ∈ s.toList, c.toNat < 128) :
    (utf8 s).length = s.toList.length := by
  have hone : (s.toList.map fun c => (String.utf8EncodeChar c).length) =
      s.toList.map fun _ => 1 := by
    refine List.map_congr_left fun c hc => ?_
    have hc : c.val ≤ 0x7F := UInt32.le_iff_toNat_le.mpr (Nat.le_of_lt_succ (h c hc))
    rw [String.length_utf8EncodeChar, Char.utf8Size]
    exact if_pos hc
  rw [utf8_eq, List.length_flatMap, hone]
  simp

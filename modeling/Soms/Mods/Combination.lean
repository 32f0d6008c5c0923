import Soms.Library.Assoc
import Soms.Library.Delimited
import Soms.Mods.Definitions

/-!
# The key of a mod configuration

`replay_mod_combination_key` of `service/replay_retention_service.py` tells mod configurations
apart.  The key looks a mod up under its acronym in upper case, and one mod of `mods.json` has an
acronym in lower case.
-/

namespace Soms.Mods

open Soms.Replays Delimited
open Soms.Scores (GameMode)

/-! ## JSON texts -/

theorem digit_or_minus {n : Int} {c : Char} (h : c ∈ n.repr.toList) :
    c.isDigit = true ∨ c = '-' := by
  have hdigits : ∀ m : Nat, c ∈ m.repr.toList → c.isDigit = true := by
    intro m hm
    rw [Nat.toList_repr] at hm
    exact Nat.isDigit_of_mem_toDigits (by omega) (by omega) hm
  cases n with
  | ofNat m => exact Or.inl (hdigits m h)
  | negSucc m =>
    have hm : c ∈ ("-" ++ m.succ.repr).toList := h
    rw [String.toList_append, List.mem_append] at hm
    cases hm with
    | inl hminus => exact Or.inr (by simpa using hminus)
    | inr hm => exact Or.inl (hdigits _ hm)

theorem natRepr_inj {m n : Nat} (h : m.repr = n.repr) : m = n := by
  have hdigits := congrArg (fun s : String => Nat.ofDigitChars 10 s.toList 0) h
  simpa only [Nat.toList_repr, Nat.ofDigitChars_ten_toDigits] using hdigits

theorem repr_inj {m n : Int} (h : m.repr = n.repr) : m = n := by
  have hminus : ∀ a b : Nat, a.repr ≠ "-" ++ b.repr := by
    intro a b hab
    have hmem : '-' ∈ a.repr.toList := by rw [hab]; simp
    rw [Nat.toList_repr] at hmem
    exact absurd (Nat.isDigit_of_mem_toDigits (by omega) (by omega) hmem) (by decide)
  cases m with
  | ofNat a =>
    cases n with
    | ofNat b => exact congrArg Int.ofNat (natRepr_inj h)
    | negSucc b => exact absurd h (hminus a b.succ)
  | negSucc a =>
    cases n with
    | ofNat b => exact absurd h.symm (hminus b a.succ)
    | negSucc b =>
      have hab : a.succ.repr = b.succ.repr := by
        have hlist := congrArg String.toList h
        simp only [Int.repr, String.toList_append, List.append_cancel_left_eq] at hlist
        exact String.toList_inj.mp hlist
      exact congrArg Int.negSucc (Nat.succ.inj (natRepr_inj hab))

/-- A value that is not written in quotes. -/
def Bare : Value → Prop
  | .str _ => False
  | _ => True

/-- The characters of a bare value. -/
def BareChar (c : Char) : Prop := c ≠ ',' ∧ c ≠ '\x7d' ∧ c ≠ '"'

theorem bareChar_of_int {n : Int} {c : Char} (h : c ∈ n.repr.toList) : BareChar c ∧ c ≠ '/' := by
  cases digit_or_minus h with
  | inl hdigit =>
    refine ⟨⟨?_, ?_, ?_⟩, ?_⟩ <;>
      exact fun hc => absurd (hc ▸ hdigit) (by decide)
  | inr hminus =>
    rw [hminus]
    unfold BareChar
    decide

theorem dumps_float (q : ℚ) :
    (Value.float q).dumps.toList = q.num.repr.toList ++ '/' :: (q.den : Int).repr.toList := by
  simp [Value.dumps, Int.repr]

theorem bareChar_of_dumps {v : Value} (hv : Bare v) {c : Char} (h : c ∈ v.dumps.toList) :
    BareChar c := by
  cases v with
  | str s => exact absurd hv id
  | null =>
    have hall : ∀ c ∈ "null".toList, BareChar c := by simp [BareChar]
    exact hall c h
  | bool b =>
    have hall : ∀ c ∈ (Value.bool b).dumps.toList, BareChar c := by
      cases b <;> simp [Value.dumps, BareChar]
    exact hall c h
  | int n => exact (bareChar_of_int h).1
  | float q =>
    rw [dumps_float, List.mem_append, List.mem_cons] at h
    rcases h with h | rfl | h
    · exact (bareChar_of_int h).1
    · unfold BareChar
      decide
    · exact (bareChar_of_int h).1

theorem float_inj {q r : ℚ} (h : (Value.float q).dumps = (Value.float r).dumps) : q = r := by
  have hsep : Separates (Stops fun c => c ≠ '/') fun n : Int => n.repr.toList :=
    .of_items (fun _ _ hc => (bareChar_of_int hc).2) fun _ _ hmn =>
      repr_inj (String.toList_inj.mp hmn)
  have hlist := congrArg String.toList h
  rw [dumps_float, dumps_float] at hlist
  obtain ⟨hnum, hden⟩ := hsep (by simp [Stops]) (by simp [Stops]) hlist
  have hden := repr_inj (String.toList_inj.mp (List.cons.inj hden).2)
  exact Rat.ext hnum (by exact_mod_cast hden)

/-- A bare value is known from the characters that only its kind has. -/
theorem kind_of_dumps {v : Value} (hv : Bare v) :
    ('/' ∈ v.dumps.toList ↔ ∃ q, v = .float q) ∧ ('n' ∈ v.dumps.toList ↔ v = .null) ∧
      ('r' ∈ v.dumps.toList ↔ v = .bool true) ∧ ('a' ∈ v.dumps.toList ↔ v = .bool false) := by
  have hletter : ∀ (n : Int) (c : Char), c.isDigit = false → c ≠ '-' → c ∉ n.repr.toList := by
    intro n c hdigit hminus hmem
    cases digit_or_minus hmem with
    | inl h => exact absurd h (by simp [hdigit])
    | inr h => exact hminus h
  cases v with
  | str s => exact absurd hv id
  | null => simp [Value.dumps]
  | bool b => cases b <;> simp [Value.dumps]
  | int n =>
    have h := fun c => hletter n c
    simp [Value.dumps, h]
  | float q =>
    have h := fun n c => hletter n c
    rw [dumps_float]
    simp [h]

theorem bare_inj {v w : Value} (hv : Bare v) (hw : Bare w) (h : v.dumps = w.dumps) : v = w := by
  obtain ⟨hfloat, hnull, htrue, hfalse⟩ := kind_of_dumps hv
  obtain ⟨hfloat', hnull', htrue', hfalse'⟩ := kind_of_dumps hw
  rw [← h] at hfloat' hnull' htrue' hfalse'
  by_cases hslash : '/' ∈ v.dumps.toList
  · obtain ⟨q, rfl⟩ := hfloat.mp hslash
    obtain ⟨r, rfl⟩ := hfloat'.mp hslash
    rw [float_inj h]
  by_cases hn : 'n' ∈ v.dumps.toList
  · rw [hnull.mp hn, hnull'.mp hn]
  by_cases hr : 'r' ∈ v.dumps.toList
  · rw [htrue.mp hr, htrue'.mp hr]
  by_cases ha : 'a' ∈ v.dumps.toList
  · rw [hfalse.mp ha, hfalse'.mp ha]
  -- Only numbers without a fraction are left.
  have hint : ∀ u : Value, Bare u → ¬ (∃ q, u = .float q) → u ≠ .null → u ≠ .bool true →
      u ≠ .bool false → ∃ n, u = .int n := by
    intro u hu h1 h2 h3 h4
    cases u with
    | null => exact absurd rfl h2
    | bool b => cases b with
      | true => exact absurd rfl h3
      | false => exact absurd rfl h4
    | int n => exact ⟨n, rfl⟩
    | float q => exact absurd ⟨q, rfl⟩ h1
    | str s => exact absurd hu id
  obtain ⟨m, rfl⟩ := hint v hv (hfloat.not.mp hslash) (hnull.not.mp hn) (htrue.not.mp hr)
    (hfalse.not.mp ha)
  obtain ⟨n, rfl⟩ := hint w hw (hfloat'.not.mp hslash) (hnull'.not.mp hn) (htrue'.not.mp hr)
    (hfalse'.not.mp ha)
  exact congrArg Value.int (repr_inj h)

/-! ## Strings -/

theorem hex4_toList (n : Nat) : (hex4 n).toList =
    [(n / 4096 % 16).digitChar, (n / 256 % 16).digitChar, (n / 16 % 16).digitChar,
      (n % 16).digitChar] := by
  have hdigits : Nat.toDigits 16 (n % 65536 + 65536) =
      ['1', (n / 4096 % 16).digitChar, (n / 256 % 16).digitChar, (n / 16 % 16).digitChar,
        (n % 16).digitChar] := by
    rw [Nat.toDigits_of_base_le (by omega) (by omega), Nat.toDigits_of_base_le (by omega) (by omega),
      Nat.toDigits_of_base_le (by omega) (by omega), Nat.toDigits_of_base_le (by omega) (by omega),
      Nat.toDigits_of_lt_base (by omega)]
    have h0 : (n % 65536 + 65536) / 16 / 16 / 16 / 16 = 1 := by omega
    have h1 : (n % 65536 + 65536) / 16 / 16 / 16 % 16 = n / 4096 % 16 := by omega
    have h2 : (n % 65536 + 65536) / 16 / 16 % 16 = n / 256 % 16 := by omega
    have h3 : (n % 65536 + 65536) / 16 % 16 = n / 16 % 16 := by omega
    have h4 : (n % 65536 + 65536) % 16 = n % 16 := by omega
    rw [h0, h1, h2, h3, h4]
    rfl
  rw [hex4, String.toList_ofList, hdigits, List.drop_one, List.tail_cons]

theorem digitChar_inj {a b : Nat} (ha : a < 16) (hb : b < 16) (h : a.digitChar = b.digitChar) :
    a = b := by
  have hall : ∀ a < 16, ∀ b < 16, a.digitChar = b.digitChar → a = b := by decide
  exact hall a ha b hb h

/-- Four digits are a number below 65536. -/
theorem hex4_append_inj {m n : Nat} (hm : m < 65536) (hn : n < 65536) {s t : List Char}
    (h : (hex4 m).toList ++ s = (hex4 n).toList ++ t) : m = n ∧ s = t := by
  simp only [hex4_toList, List.cons_append, List.nil_append, List.cons.injEq] at h
  obtain ⟨h3, h2, h1, h0, hst⟩ := h
  have h3 := digitChar_inj (by omega) (by omega) h3
  have h2 := digitChar_inj (by omega) (by omega) h2
  have h1 := digitChar_inj (by omega) (by omega) h1
  have h0 := digitChar_inj (by omega) (by omega) h0
  exact ⟨by omega, hst⟩

/-- The character of an escape of one letter. -/
def escapeLetter : List (Char × Char) :=
  [('"', '"'), ('\\', '\\'), ('n', '\n'), ('r', '\r'), ('t', '\t'), ('b', Char.ofNat 8),
    ('f', Char.ofNat 12)]

/-- How a character is written. -/
inductive Escaped (c : Char) : List Char → Prop
  | letter {x : Char} (h : escapeLetter.lookup x = some c) : Escaped c ['\\', x]
  | plain (hquote : c ≠ '"') (hslash : c ≠ '\\') : Escaped c [c]
  | short {digits : List Char} (h : c.toNat < 65536) (hdigits : digits = (hex4 c.toNat).toList) :
      Escaped c ('\\' :: 'u' :: digits)
  | long {n : Nat} {high low : List Char} (h : c.toNat = n + 65536)
      (hhigh : high = (hex4 (55296 + n / 1024)).toList)
      (hlow : low = (hex4 (56320 + n % 1024)).toList) :
      Escaped c ('\\' :: 'u' :: (high ++ '\\' :: 'u' :: low))

theorem Escaped.of_short {c : Char} {digits : List Char} (h : c.toNat < 65536)
    (hdigits : digits = (hex4 c.toNat).toList) : Escaped c (['\\', 'u'] ++ digits) :=
  .short h hdigits

theorem Escaped.of_long {c : Char} {n : Nat} {high low : List Char} (h : c.toNat = n + 65536)
    (hhigh : high = (hex4 (55296 + n / 1024)).toList)
    (hlow : low = (hex4 (56320 + n % 1024)).toList) :
    Escaped c (['\\', 'u'] ++ high ++ ['\\', 'u'] ++ low) := by
  rw [List.append_assoc]
  simp only [List.cons_append, List.nil_append]
  exact .long h hhigh hlow

theorem escaped (c : Char) : Escaped c (escape c).toList := by
  have hcontrol : ∀ n, c.toNat = n → c = Char.ofNat n := fun n hn => by
    rw [← hn, Char.ofNat_toNat]
  have hu : "\\u".toList = ['\\', 'u'] := rfl
  unfold escape
  by_cases hquote : c = '"'
  · rw [if_pos hquote]
    exact .letter (by rw [hquote]; rfl)
  rw [if_neg hquote]
  by_cases hslash : c = '\\'
  · rw [if_pos hslash]
    exact .letter (by rw [hslash]; rfl)
  rw [if_neg hslash]
  by_cases hn : c = '\n'
  · rw [if_pos hn]
    exact .letter (by rw [hn]; rfl)
  rw [if_neg hn]
  by_cases hr : c = '\r'
  · rw [if_pos hr]
    exact .letter (by rw [hr]; rfl)
  rw [if_neg hr]
  by_cases ht : c = '\t'
  · rw [if_pos ht]
    exact .letter (by rw [ht]; rfl)
  rw [if_neg ht]
  by_cases hb : c.toNat = 8
  · rw [if_pos hb]
    exact .letter (by rw [hcontrol 8 hb]; rfl)
  rw [if_neg hb]
  by_cases hf : c.toNat = 12
  · rw [if_pos hf]
    exact .letter (by rw [hcontrol 12 hf]; rfl)
  rw [if_neg hf]
  split
  · rw [String.toList_singleton]
    exact .plain hquote hslash
  split
  · next h =>
    rw [String.toList_append, hu]
    exact .of_short h rfl
  · next h =>
    obtain ⟨n, hn⟩ := Nat.exists_eq_add_of_le' (not_lt.mp h)
    rw [hn, Nat.add_sub_cancel, String.toList_append, String.toList_append, String.toList_append, hu]
    exact .of_long hn rfl rfl

theorem escapeLetter_inj {x : Char} {c d : Char} (hc : escapeLetter.lookup x = some c)
    (hd : escapeLetter.lookup x = some d) : c = d :=
  Option.some.inj (hc.symm.trans hd)

theorem escapeLetter_ne {x c : Char} (h : escapeLetter.lookup x = some c) : x ≠ 'u' := by
  rintro rfl
  have hnone : escapeLetter.lookup 'u' = none := by decide
  exact absurd (hnone.symm.trans h) (by simp)

theorem toNat_not_surrogate (c : Char) : ¬ (55296 ≤ c.toNat ∧ c.toNat < 57344) := by
  have h : c.toNat.isValidChar := c.valid
  unfold Nat.isValidChar at h
  omega

theorem toNat_lt (c : Char) : c.toNat < 1114112 := by
  have h : c.toNat.isValidChar := c.valid
  unfold Nat.isValidChar at h
  omega

theorem toNat_inj {c d : Char} (h : c.toNat = d.toNat) : c = d := by
  rw [← Char.ofNat_toNat c, h, Char.ofNat_toNat]

theorem separates_escape : Separates Set.univ fun c => (escape c).toList := by
  intro c d s t _ _ h
  have hc := escaped c
  have hd := escaped d
  have hcs := toNat_not_surrogate c
  have hds := toNat_not_surrogate d
  have hcl := toNat_lt c
  have hdl := toNat_lt d
  dsimp only at h
  generalize (escape c).toList = x at h hc
  generalize (escape d).toList = y at h hd
  cases hc with
  | letter hx =>
    have hne := escapeLetter_ne hx
    cases hd with
    | letter hy =>
      simp only [List.cons_append, List.nil_append, List.cons.injEq, true_and] at h
      obtain ⟨rfl, hst⟩ := h
      exact ⟨escapeLetter_inj hx hy, hst⟩
    | plain _ hslash =>
      simp only [List.cons_append, List.cons.injEq] at h
      exact absurd h.1.symm hslash
    | short _ _ =>
      simp only [List.cons_append, List.cons.injEq, true_and] at h
      exact absurd h.1 hne
    | long _ _ _ =>
      simp only [List.cons_append, List.cons.injEq, true_and] at h
      exact absurd h.1 hne
  | plain _ hslash =>
    cases hd with
    | letter _ =>
      simp only [List.cons_append, List.cons.injEq] at h
      exact absurd h.1 hslash
    | plain _ _ =>
      simp only [List.cons_append, List.nil_append, List.cons.injEq] at h
      exact h
    | short _ _ =>
      simp only [List.cons_append, List.cons.injEq] at h
      exact absurd h.1 hslash
    | long _ _ _ =>
      simp only [List.cons_append, List.cons.injEq] at h
      exact absurd h.1 hslash
  | short hlt hdigits =>
    cases hd with
    | letter hy =>
      simp only [List.cons_append, List.cons.injEq, true_and] at h
      exact absurd h.1.symm (escapeLetter_ne hy)
    | plain _ hslash =>
      simp only [List.cons_append, List.cons.injEq] at h
      exact absurd h.1.symm hslash
    | short hlt' hdigits' =>
      simp only [List.cons_append, List.cons.injEq, true_and] at h
      rw [hdigits, hdigits'] at h
      obtain ⟨hcode, hst⟩ := hex4_append_inj hlt hlt' h
      exact ⟨toNat_inj hcode, hst⟩
    | long hle hhigh hlow =>
      simp only [List.cons_append, List.cons.injEq, true_and, List.append_assoc] at h
      rw [hdigits, hhigh] at h
      have hcode := (hex4_append_inj hlt (by omega) h).1
      omega
  | long hle hhigh hlow =>
    cases hd with
    | letter hy =>
      simp only [List.cons_append, List.cons.injEq, true_and] at h
      exact absurd h.1.symm (escapeLetter_ne hy)
    | plain _ hslash =>
      simp only [List.cons_append, List.cons.injEq] at h
      exact absurd h.1.symm hslash
    | short hlt hdigits =>
      simp only [List.cons_append, List.cons.injEq, true_and, List.append_assoc] at h
      rw [hdigits, hhigh] at h
      have hcode := (hex4_append_inj (by omega) hlt h).1
      omega
    | long hle' hhigh' hlow' =>
      simp only [List.cons_append, List.cons.injEq, true_and, List.append_assoc] at h
      rw [hhigh, hhigh'] at h
      obtain ⟨hcode, hrest⟩ := hex4_append_inj (by omega) (by omega) h
      simp only [List.cons.injEq, true_and] at hrest
      rw [hlow, hlow'] at hrest
      obtain ⟨hcode', hst⟩ := hex4_append_inj (by omega) (by omega) hrest
      exact ⟨toNat_inj (by omega), hst⟩

theorem dumpsString_toList (s : String) :
    (dumpsString s).toList = '"' :: ((s.toList.map fun c => (escape c).toList).flatten ++ ['"']) := by
  simp [dumpsString, List.flatMap_def, List.map_map, Function.comp_def]

theorem separates_dumpsString : Separates Set.univ fun s => (dumpsString s).toList := by
  have hstart : ∀ c, ∃ x rest, (escape c).toList = x :: rest ∧ x ≠ '"' := by
    intro c
    have hc := escaped c
    generalize (escape c).toList = x at hc
    cases hc with
    | letter _ => exact ⟨_, _, rfl, by decide⟩
    | plain hquote _ => exact ⟨_, _, rfl, hquote⟩
    | short _ _ => exact ⟨_, _, rfl, by decide⟩
    | long _ _ _ => exact ⟨_, _, rfl, by decide⟩
  have hchars := Separates.flatten separates_escape hstart
  have hlist := (hchars.const_append ['"']).comp
    fun s t : String => fun h : s.toList = t.toList => String.toList_inj.mp h
  simp only [dumpsString_toList]
  exact hlist

/-! ## Settings -/

theorem separates_dumps : Separates (StartsWith ',' '\x7d') fun v : Value => v.dumps.toList := by
  have hbare : Separates (Stops BareChar) fun v : {v : Value // Bare v} => v.1.dumps.toList :=
    .of_items (fun v _ hc => bareChar_of_dumps v.2 hc) fun v w h =>
      Subtype.ext (bare_inj v.2 w.2 (String.toList_inj.mp h))
  have hstops : ∀ s ∈ StartsWith ',' '\x7d', s ∈ Stops BareChar := by
    intro s hs c hc hbad
    cases hs with
    | inl h => exact hbad.1 (Option.some.inj (hc.symm.trans h))
    | inr h => exact hbad.2.1 (Option.some.inj (hc.symm.trans h))
  -- A text in quotes is no bare value.
  have hquote : ∀ (v : Value) (w : String) (s t : List Char), Bare v → s ∈ StartsWith ',' '\x7d' →
      v.dumps.toList ++ s ≠ (dumpsString w).toList ++ t := by
    intro v w s t hv hs h
    rw [dumpsString_toList] at h
    have hhead := congrArg List.head? h
    rw [List.head?_append, List.cons_append, List.head?_cons] at hhead
    cases hfirst : v.dumps.toList.head? with
    | some c =>
      rw [hfirst, Option.some_or] at hhead
      exact (bareChar_of_dumps hv (List.mem_of_mem_head? hfirst)).2.2 (Option.some.inj hhead)
    | none =>
      rw [hfirst, Option.none_or] at hhead
      cases hs with
      | inl h => exact absurd (h.symm.trans hhead) (by decide)
      | inr h => exact absurd (h.symm.trans hhead) (by decide)
  intro v w s t hs ht h
  by_cases hv : Bare v
  · by_cases hw : Bare w
    · obtain ⟨heq, hst⟩ := hbare (a := ⟨v, hv⟩) (b := ⟨w, hw⟩) (hstops s hs) (hstops t ht) h
      exact ⟨congrArg Subtype.val heq, hst⟩
    · cases w with
      | str w => exact absurd h (hquote v w s t hv hs)
      | null | bool _ | int _ | float _ => exact absurd trivial hw
  · cases v with
    | null | bool _ | int _ | float _ => exact absurd trivial hv
    | str v =>
      by_cases hw : Bare w
      · exact absurd h.symm (hquote w v t s hw ht)
      · cases w with
        | null | bool _ | int _ | float _ => exact absurd trivial hw
        | str w =>
          obtain ⟨heq, hst⟩ := separates_dumpsString trivial trivial h
          exact ⟨congrArg Value.str heq, hst⟩

/-- The text of the settings in the order in which they are written. -/
def dumpsEntries (entries : List (String × Value)) : List Char :=
  '\x7b' :: ([','].intercalate (entries.map fun x =>
    (dumpsString x.1).toList ++ (':' :: x.2.dumps.toList)) ++ ['\x7d'])

theorem dumpsSettings_toList (settings : List (String × Value)) :
    (dumpsSettings settings).toList =
      dumpsEntries (settings.insertionSort fun x y => x.1 ≤ y.1) := by
  simp [dumpsSettings, dumpsEntries, String.toList_intercalate, List.map_map, Function.comp_def]

theorem separates_dumpsEntries : Separates Set.univ dumpsEntries := by
  have hvalue := Separates.const_append separates_dumps [':']
  have hentry := Separates.pair separates_dumpsString hvalue fun _ _ _ => Set.mem_univ _
  refine (hentry.intercalate (by decide) fun x => ?_).const_append ['\x7b']
  rw [dumpsString_toList]
  exact ⟨_, _, rfl, by decide⟩

theorem dumpsSettings_eq_iff {s t : List (String × Value)} (h : (s.map Prod.fst).Nodup) :
    dumpsSettings s = dumpsSettings t ↔ s.Perm t := by
  rw [← String.toList_inj, dumpsSettings_toList, dumpsSettings_toList,
    Separates.eq_iff separates_dumpsEntries (Set.mem_univ _)]
  exact Assoc.insertionSort_eq_iff h

/-! ## Mods -/

/-- The text of a normalised mod with its settings as they are written. -/
def modText (mod : String × List (String × Value)) : List Char :=
  "\x7b\"acronym\":".toList ++ ((dumpsString mod.1).toList ++
    ((if mod.2 = [] then [] else ",\"settings\":".toList ++ dumpsEntries mod.2) ++ ['\x7d']))

theorem dumpsMod_toList (acronym : String) (entries : List (String × Value)) :
    (dumpsMod (acronym, String.ofList (dumpsEntries entries))).toList =
      modText (acronym, entries) := by
  have hempty : (String.ofList (dumpsEntries entries) = dumpsSettings []) ↔ entries = [] := by
    rw [← String.toList_inj, String.toList_ofList, dumpsSettings_toList,
      Separates.eq_iff separates_dumpsEntries (Set.mem_univ _), List.insertionSort_nil]
  unfold dumpsMod modText
  simp only [hempty, String.toList_append, List.append_assoc]
  split
  · rfl
  · simp [String.toList_append]

theorem separates_modText : Separates Set.univ modText := by
  have hsettings : Separates Set.univ fun entries : List (String × Value) =>
      (if entries = [] then [] else ",\"settings\":".toList ++ dumpsEntries entries) ++ ['\x7d'] := by
    intro a b s t _ _ h
    dsimp only at h
    by_cases ha : a = []
    · by_cases hb : b = []
      · rw [if_pos ha, if_pos hb] at h
        exact ⟨ha.trans hb.symm, (List.cons.inj h).2⟩
      · rw [if_pos ha, if_neg hb] at h
        exact absurd (List.cons.inj h).1 (by decide)
    · by_cases hb : b = []
      · rw [if_neg ha, if_pos hb] at h
        exact absurd (List.cons.inj h).1 (by decide)
      · rw [if_neg ha, if_neg hb] at h
        have hentries : Separates Set.univ fun x => dumpsEntries x ++ ['\x7d'] :=
          Separates.append_const separates_dumpsEntries fun _ _ => Set.mem_univ _
        exact hentries.const_append ",\"settings\":".toList trivial trivial (by simpa using h)
  have hmod := Separates.pair separates_dumpsString hsettings fun _ _ _ => Set.mem_univ _
  exact hmod.const_append _

/-- The text of the sorted mods. -/
def modsText (mods : List (String × List (String × Value))) : List Char :=
  '[' :: ([','].intercalate (mods.map modText) ++ [']'])

theorem separates_modsText : Separates Set.univ modsText :=
  (Separates.mono separates_modText (Set.subset_univ _)).intercalate (by decide)
    (fun _ => ⟨_, _, rfl, by decide⟩) |>.const_append ['[']

/-! ## Keys -/

section Keys

variable {apiMods : ApiMods} {gamemode : GameMode} {mods mods' : List APIMod}

/-- The settings of a mod as they are written. -/
def writtenSettings (definitions : String → Option (List SettingDefinition)) (mod : APIMod) :
    List (String × Value) :=
  (expandSettings ((definitions mod.acronym.toUpper).getD []) (mod.settings.getD [])).insertionSort
    fun x y => x.1 ≤ y.1

theorem normaliseMod_eq (definitions : String → Option (List SettingDefinition)) (mod : APIMod) :
    normaliseMod definitions mod =
      (mod.acronym.toUpper, String.ofList (dumpsEntries (writtenSettings definitions mod))) := by
  refine Prod.ext rfl (String.toList_inj.mp ?_)
  rw [String.toList_ofList]
  exact dumpsSettings_toList _

/-- The text of a key in terms of the settings as they are written. -/
theorem exists_modsText (apiMods : ApiMods) (gamemode : GameMode) (mods : List APIMod) :
    ∃ entries : List (String × List (String × Value)),
      (replayModCombinationKey apiMods gamemode mods).toList = modsText entries ∧
      ((mods.map fun mod => toLex (normaliseMod (apiMods (toBaseRuleset gamemode).toInt)
        mod)).insertionSort (· ≤ ·)) =
        entries.map fun x => toLex (x.1, String.ofList (dumpsEntries x.2)) := by
  obtain ⟨normalised, hnormalised⟩ : ∃ normalised, normalised = (mods.map fun mod =>
    toLex (normaliseMod (apiMods (toBaseRuleset gamemode).toInt) mod)).insertionSort (· ≤ ·) :=
    ⟨_, rfl⟩
  have hmem : ∀ x ∈ normalised, ∃ e : String × List (String × Value),
      toLex (e.1, String.ofList (dumpsEntries e.2)) = x := by
    intro x hx
    rw [hnormalised, (List.perm_insertionSort _ _).mem_iff] at hx
    obtain ⟨mod, -, rfl⟩ := List.mem_map.mp hx
    exact ⟨(mod.acronym.toUpper, _), congrArg toLex (normaliseMod_eq _ mod).symm⟩
  have hrange : normalised ∈ Set.range (List.map fun e : String × List (String × Value) =>
      toLex (e.1, String.ofList (dumpsEntries e.2))) := by
    rw [Set.range_list_map]
    exact fun x hx => hmem x hx
  obtain ⟨entries, hentries⟩ := hrange
  refine ⟨entries, ?_, hnormalised ▸ hentries.symm⟩
  unfold replayModCombinationKey
  dsimp only
  rw [← hnormalised, ← hentries]
  simp [modsText, String.toList_intercalate, List.map_map, Function.comp_def, dumpsMod_toList]

/-- The key is known from the normalised mods, and they from the key. -/
theorem replayModCombinationKey_eq_iff :
    replayModCombinationKey apiMods gamemode mods = replayModCombinationKey apiMods gamemode mods' ↔
      (mods.map (normaliseMod (apiMods (toBaseRuleset gamemode).toInt))).Perm
        (mods'.map (normaliseMod (apiMods (toBaseRuleset gamemode).toInt))) := by
  constructor
  · intro h
    obtain ⟨entries, htext, hsorted⟩ := exists_modsText apiMods gamemode mods
    obtain ⟨entries', htext', hsorted'⟩ := exists_modsText apiMods gamemode mods'
    have hentries : entries = entries' :=
      (Separates.eq_iff separates_modsText (Set.mem_univ _)).mp (htext ▸ htext' ▸ congrArg String.toList h)
    rw [hentries, ← hsorted'] at hsorted
    have hperm := (List.perm_insertionSort (· ≤ ·) _).symm.trans
      (hsorted ▸ List.perm_insertionSort (· ≤ ·) _)
    simpa [List.map_map, Function.comp_def] using (hperm.map ofLex).symm
  · intro h
    have hsorted := insertionSort_perm (h.map toLex)
    rw [List.map_map, List.map_map] at hsorted
    exact congrArg (fun l : List (Lex (String × String)) =>
      "[" ++ String.intercalate "," (l.map fun mod => dumpsMod (ofLex mod)) ++ "]") hsorted

end Keys

end Soms.Mods

import Soms.Library.Scanner

/-!
# Readers of the front of a text

The parts of a pattern as readers.  A reader leaves a suffix of the text it reads, so that what
is made of readers is a pattern again.
-/

namespace Scanner

variable {γ α β : Type}

structure Front (γ β : Type) where
  read : List γ → Option (β × List γ)
  suffix : ∀ {text rest : List γ} {found : β}, read text = some (found, rest) → rest <:+ text

namespace Front

instance : Monad (Front γ) where
  pure a :=
    { read := fun text => some (a, text)
      suffix := by
        intro text rest found h
        cases h
        exact List.suffix_refl _ }
  bind x k :=
    { read := fun text => (x.read text).bind fun first => (k first.1).read first.2
      suffix := by
        intro text rest found h
        obtain ⟨first, hfirst, hrest⟩ := Option.bind_eq_some_iff.mp h
        exact ((k first.1).suffix hrest).trans (x.suffix hfirst) }

@[simp]
theorem read_pure (a : α) (text : List γ) : (pure a : Front γ α).read text = some (a, text) := rfl

@[simp]
theorem read_bind (x : Front γ α) (k : α → Front γ β) (text : List γ) :
    (x >>= k).read text = (x.read text).bind fun first => (k first.1).read first.2 := rfl

/-- What the first reader reads, or else the second. -/
def or (x y : Front γ α) : Front γ α where
  read text := (x.read text).or (y.read text)
  suffix := by
    intro text rest found h
    cases Option.or_eq_some_iff.mp h with
    | inl h => exact x.suffix h
    | inr h => exact y.suffix h.2

/-- What the reader reads, or else nothing. -/
def optional (x : Front γ α) : Front γ (Option α) :=
  (do let a ← x; pure (some a) : Front γ (Option α)).or (pure none)

/-- What the reader would read, without going behind it. -/
def ahead (x : Front γ α) : Front γ α where
  read text := (x.read text).map fun first => (first.1, text)
  suffix := by
    intro text rest found h
    simp only [Option.map_eq_some_iff, Prod.mk.injEq] at h
    obtain ⟨_, _, _, rfl⟩ := h
    exact List.suffix_refl _

/-- The longest front of items of a kind. -/
def many (p : γ → Bool) : Front γ (List γ) where
  read text := some (text.takeWhile p, text.dropWhile p)
  suffix := by
    intro text rest found h
    cases h
    exact List.dropWhile_suffix p

/-- The longest front of items of a kind, of one item at least. -/
def many1 (p : γ → Bool) : Front γ (List γ) where
  read text := if text.takeWhile p = [] then none else some (text.takeWhile p, text.dropWhile p)
  suffix := by
    intro text rest found h
    split at h
    · cases h
    · cases h
      exact List.dropWhile_suffix p

/-- A number of items of a kind. -/
def exactly (n : Nat) (p : γ → Bool) : Front γ (List γ) where
  read text :=
    if (text.take n).length = n ∧ (text.take n).all p then some (text.take n, text.drop n)
    else none
  suffix := by
    intro text rest found h
    split at h
    · cases h
      exact List.drop_suffix n text
    · cases h

/-- The shortest front of items of a kind with which the next reader can go on. -/
def lazilyRead (p : γ → Bool) (next : List γ → Front γ β) :
    List γ → List γ → Option (β × List γ)
  | found, [] => (next found).read []
  | found, c :: cs =>
    match (next found).read (c :: cs) with
    | some first => some first
    | none => if p c then lazilyRead p next (found ++ [c]) cs else none

def lazily (p : γ → Bool) (next : List γ → Front γ β) : Front γ β where
  read := lazilyRead p next []
  suffix := by
    intro text
    generalize ([] : List γ) = found
    induction text generalizing found with
    | nil =>
      intro rest b h
      exact (next found).suffix h
    | cons c cs ih =>
      intro rest b h
      rw [lazilyRead] at h
      split at h
      · rename_i first hfirst
        cases h
        exact (next found).suffix hfirst
      · split at h
        · exact (ih _ h).trans (List.suffix_cons c cs)
        · cases h

/-- A word, item for item. -/
def exact [DecidableEq γ] (word : List γ) : Front γ Unit where
  read text := (after word text).map fun rest => ((), rest)
  suffix := by
    intro text rest found h
    simp only [Option.map_eq_some_iff, Prod.mk.injEq, true_and] at h
    obtain ⟨behind, hbehind, rfl⟩ := h
    rw [after_eq_some.mp hbehind]
    exact List.suffix_append _ _

theorem many1_read {p : γ → Bool} {found rest : List γ} (hne : found ≠ [])
    (hfound : ∀ c ∈ found, p c = true) (hrest : ∀ c ∈ rest.head?, p c = false) :
    (many1 p).read (found ++ rest) = some (found, rest) := by
  have hnone : rest.takeWhile p = [] ∧ rest.dropWhile p = rest := by
    cases rest with
    | nil => exact ⟨rfl, rfl⟩
    | cons c cs =>
      have hc : p c = false := hrest c rfl
      exact ⟨List.takeWhile_cons_of_neg (by simp [hc]), List.dropWhile_cons_of_neg (by simp [hc])⟩
  have htake : (found ++ rest).takeWhile p = found := by
    rw [List.takeWhile_append_of_pos hfound, hnone.1, List.append_nil]
  have hdrop : (found ++ rest).dropWhile p = rest := by
    rw [List.dropWhile_append_of_pos hfound, hnone.2]
  rw [many1]
  simp only [htake, hdrop, hne, if_false]

theorem lazilyRead_append {p : γ → Bool} {next : List γ → Front γ β} {content : List γ}
    (hp : ∀ c ∈ content, p c = true) {rest : List γ} {x : β × List γ} (found : List γ)
    (hnone : ∀ before c behind, content = before ++ c :: behind →
      (next (found ++ before)).read (c :: behind ++ rest) = none)
    (hnext : (next (found ++ content)).read rest = some x) :
    lazilyRead p next found (content ++ rest) = some x := by
  induction content generalizing found with
  | nil =>
    rw [List.append_nil] at hnext
    cases rest with
    | nil => exact hnext
    | cons c cs => rw [List.nil_append, lazilyRead, hnext]
  | cons c cs ih =>
    have hfirst := hnone [] c cs rfl
    rw [List.append_nil] at hfirst
    rw [List.cons_append, lazilyRead, ← List.cons_append, hfirst, if_pos (hp c List.mem_cons_self)]
    refine ih (fun d hd => hp d (List.mem_cons_of_mem _ hd)) (found ++ [c]) ?_ ?_
    · intro before d behind heq
      have hdeep := hnone (c :: before) d behind (by rw [heq]; rfl)
      rwa [List.append_assoc]
    · rwa [List.append_assoc]

/-- A lazy part ends where the reader behind it can first go on. -/
theorem lazily_read {p : γ → Bool} {next : List γ → Front γ β} {content rest : List γ}
    {x : β × List γ} (hp : ∀ c ∈ content, p c = true)
    (hnone : ∀ before c behind, content = before ++ c :: behind →
      (next before).read (c :: behind ++ rest) = none)
    (hnext : (next content).read rest = some x) :
    (lazily p next).read (content ++ rest) = some x :=
  lazilyRead_append hp [] hnone hnext

end Front

namespace Matcher

variable {m : Matcher γ β}

/-- No match begins in the first text in front of the second. -/
def Quiet (m : Matcher γ β) (text behind : List γ) : Prop :=
  ∀ c cs, c :: cs <:+ text → m.front (c :: (cs ++ behind)) = none

theorem quiet_nil (behind : List γ) : m.Quiet [] behind := by
  intro c cs h
  cases List.suffix_nil.mp h

theorem quiet_cons {c : γ} {cs behind : List γ} :
    m.Quiet (c :: cs) behind ↔ m.front (c :: (cs ++ behind)) = none ∧ m.Quiet cs behind := by
  constructor
  · intro h
    exact ⟨h c cs List.suffix_rfl, fun d ds hds => h d ds (hds.trans (List.suffix_cons c cs))⟩
  · rintro ⟨hfirst, hrest⟩ d ds hds
    cases List.suffix_cons_iff.mp hds with
    | inl heq =>
      cases heq
      exact hfirst
    | inr hds => exact hrest d ds hds

theorem quiet_append {text other behind : List γ} :
    m.Quiet (text ++ other) behind ↔ m.Quiet text (other ++ behind) ∧ m.Quiet other behind := by
  induction text with
  | nil => simp [quiet_nil]
  | cons c cs ih =>
    rw [List.cons_append, quiet_cons, quiet_cons, ih, and_assoc, List.append_assoc]

theorem Quiet.sub_append {text behind : List γ} (h : m.Quiet text behind)
    (replacement : β → List γ) :
    m.sub replacement (text ++ behind) = text ++ m.sub replacement behind := by
  induction text with
  | nil => rfl
  | cons c cs ih =>
    obtain ⟨hfirst, hrest⟩ := quiet_cons.mp h
    rw [List.cons_append, sub_none hfirst, ih hrest]
    rfl

theorem Quiet.findAll_append {text behind : List γ} (h : m.Quiet text behind) :
    m.findAll (text ++ behind) = m.findAll behind := by
  induction text with
  | nil => rfl
  | cons c cs ih =>
    obtain ⟨hfirst, hrest⟩ := quiet_cons.mp h
    rw [List.cons_append, findAll_none hfirst, ih hrest]

theorem Quiet.sub_eq {text : List γ} (h : m.Quiet text []) (replacement : β → List γ) :
    m.sub replacement text = text := by
  have hsub := h.sub_append replacement
  rwa [List.append_nil, sub_nil, List.append_nil] at hsub

theorem Quiet.findAll_eq {text : List γ} (h : m.Quiet text []) : m.findAll text = [] := by
  have hfind := h.findAll_append
  rwa [List.append_nil, findAll_nil] at hfind

end Matcher

end Scanner

import Mathlib.Logic.Function.Basic

/-!
# Transactions

A transaction body reads and writes a store and may raise.  The store is kept
when it raises, since a caller may catch the failure and go on; `commit` is
what rolls a failed body back.

Three kinds of fact are proved about bodies.  `Leaves π x` says that `x` never
changes the part `π` of the store, whether it returns or raises.  `Follows R x`
says that the runs of `x` that return move the store along the preorder `R`;
`Keeps I x` is the case of an invariant.  Both compose along the combinators by
instance search.  `Returns x s Q` says that the run of `x` from `s` does return.
-/

/-- A body over the store `σ` that returns an `α` or raises an `ε`. -/
def Txn (σ ε α : Type) : Type := σ → Except ε α × σ

namespace Txn

variable {σ ε α β γ δ : Type}

protected def pure (a : α) : Txn σ ε α := fun s => (.ok a, s)

protected def bind (x : Txn σ ε α) (f : α → Txn σ ε β) : Txn σ ε β := fun s =>
  match x s with
  | (.ok a, t) => f a t
  | (.error e, t) => (.error e, t)

instance : Monad (Txn σ ε) where
  pure := Txn.pure
  bind := Txn.bind

/-- Read a part of the store. -/
def read (f : σ → α) : Txn σ ε α := fun s => (.ok (f s), s)

/-- Update the store. -/
def write (f : σ → σ) : Txn σ ε Unit := fun s => (.ok (), f s)

def raise (e : ε) : Txn σ ε α := fun s => (.error e, s)

/-- Raise when the condition holds of the store. -/
def refuse (p : σ → Prop) [DecidablePred p] (e : ε) : Txn σ ε Unit := fun s =>
  if p s then (.error e, s) else (.ok (), s)

/-- The value of an option, or a raise when there is none. -/
def require (f : σ → Option α) (e : ε) : Txn σ ε α := fun s =>
  match f s with
  | some a => (.ok a, s)
  | none => (.error e, s)

/-- The value of a computation that may fail. -/
def attempt (f : σ → Except ε α) : Txn σ ε α := fun s => (f s, s)

/-- Run the body for the value of an option, if there is one. -/
def onSome (o : Option α) (f : α → Txn σ ε Unit) : Txn σ ε Unit :=
  match o with
  | some a => f a
  | none => pure ()

/-- Run the body if the condition holds. -/
def when (c : Bool) (x : Txn σ ε Unit) : Txn σ ε Unit := if c then x else pure ()

/-- Run the body and go on with the handler when it raises a failure the handler
takes.  The store keeps what the body had written. -/
def recover (x : Txn σ ε Unit) (h : ε → Option (Txn σ ε Unit)) : Txn σ ε Unit := fun s =>
  match x s with
  | (.ok a, t) => (.ok a, t)
  | (.error e, t) =>
    match h e with
    | some y => y t
    | none => (.error e, t)

/-- The store after the transaction: a body that raises is rolled back. -/
def commit (x : Txn σ ε α) (s : σ) : σ :=
  match x s with
  | (.ok _, t) => t
  | (.error _, _) => s

/-! ## Runs that return -/

section Ok

variable {s t : σ} {a : α} {b : β}

@[simp] theorem pure_ok {b : α} : (pure a : Txn σ ε α) s = (.ok b, t) ↔ a = b ∧ s = t := by
  show ((Except.ok a : Except ε α), s) = (.ok b, t) ↔ _
  simp

@[simp] theorem bind_ok {x : Txn σ ε α} {f : α → Txn σ ε β} :
    (x >>= f) s = (.ok b, t) ↔ ∃ a u, x s = (.ok a, u) ∧ f a u = (.ok b, t) := by
  show Txn.bind x f s = _ ↔ _
  unfold Txn.bind
  constructor
  · intro h
    split at h
    · next a u hx => exact ⟨a, u, hx, h⟩
    · simp at h
  · rintro ⟨a, u, hx, hf⟩
    simp only [hx, hf]

@[simp] theorem read_ok {f : σ → α} {a : α} :
    (read f : Txn σ ε α) s = (.ok a, t) ↔ f s = a ∧ s = t := by
  simp [read]

@[simp] theorem write_ok {f : σ → σ} {u : Unit} :
    (write f : Txn σ ε Unit) s = (.ok u, t) ↔ f s = t := by
  simp [write]

@[simp] theorem raise_ok {e : ε} : (raise e : Txn σ ε α) s ≠ (.ok a, t) := by
  simp [raise]

@[simp] theorem refuse_ok {p : σ → Prop} [DecidablePred p] {e : ε} {u : Unit} :
    (refuse p e : Txn σ ε Unit) s = (.ok u, t) ↔ ¬ p s ∧ s = t := by
  unfold refuse
  split <;> simp_all

@[simp] theorem require_ok {f : σ → Option α} {e : ε} :
    (require f e : Txn σ ε α) s = (.ok a, t) ↔ f s = some a ∧ s = t := by
  unfold require
  split <;> simp_all

@[simp] theorem attempt_ok {f : σ → Except ε α} :
    (attempt f : Txn σ ε α) s = (.ok a, t) ↔ f s = .ok a ∧ s = t := by
  simp [attempt]

@[simp] theorem bind_error {x : Txn σ ε α} {f : α → Txn σ ε β} {e : ε} :
    (x >>= f) s = (.error e, t) ↔
      x s = (.error e, t) ∨ ∃ a u, x s = (.ok a, u) ∧ f a u = (.error e, t) := by
  show Txn.bind x f s = _ ↔ _
  unfold Txn.bind
  constructor
  · intro h
    split at h
    · next a u hx => exact .inr ⟨a, u, hx, h⟩
    · next e' u hx =>
      left
      simpa [hx] using h
  · rintro (hx | ⟨a, u, hx, hf⟩)
    · simp only [hx]
    · simp only [hx, hf]

@[simp] theorem read_error {f : σ → α} {e : ε} : (read f : Txn σ ε α) s ≠ (.error e, t) := by
  simp [read]

@[simp] theorem write_error {f : σ → σ} {e : ε} :
    (write f : Txn σ ε Unit) s ≠ (.error e, t) := by
  simp [write]

@[simp] theorem refuse_error {p : σ → Prop} [DecidablePred p] {e e' : ε} :
    (refuse p e : Txn σ ε Unit) s = (.error e', t) ↔ (p s ∧ e = e') ∧ s = t := by
  unfold refuse
  split <;> simp_all

@[simp] theorem attempt_error {f : σ → Except ε α} {e : ε} :
    (attempt f : Txn σ ε α) s = (.error e, t) ↔ f s = .error e ∧ s = t := by
  simp [attempt]

@[simp] theorem pure_error {e : ε} : (pure a : Txn σ ε α) s ≠ (.error e, t) := by
  show ((Except.ok a : Except ε α), s) ≠ _
  simp

theorem onSome_ok {o : Option α} {f : α → Txn σ ε Unit} {u : Unit} :
    onSome o f s = (.ok u, t) ↔
      (∃ a, o = some a ∧ f a s = (.ok u, t)) ∨ o = none ∧ s = t := by
  cases o <;> simp [onSome]

theorem when_ok {c : Bool} {x : Txn σ ε Unit} {u : Unit} :
    when c x s = (.ok u, t) ↔ (c = true ∧ x s = (.ok u, t)) ∨ c = false ∧ s = t := by
  cases c <;> simp [when]

theorem recover_ok {x : Txn σ ε Unit} {h : ε → Option (Txn σ ε Unit)} {u : Unit} :
    recover x h s = (.ok u, t) ↔ x s = (.ok u, t) ∨
      ∃ e v y, x s = (.error e, v) ∧ h e = some y ∧ y v = (.ok u, t) := by
  unfold recover
  constructor
  · intro hrun
    split at hrun
    · next a v hx => exact .inl (hx.trans hrun)
    · next e v hx =>
      split at hrun
      · next y hy => exact .inr ⟨e, v, y, hx, hy, hrun⟩
      · simp at hrun
  · rintro (hx | ⟨e, v, y, hx, hy, hrun⟩)
    · simp only [hx]
    · simp only [hx, hy, hrun]

theorem commit_eq {x : Txn σ ε α} (h : x s = (.ok a, t)) : commit x s = t := by
  simp [commit, h]

/-- A loop whose turns, in stores with an invariant, leave a part of the store alone. -/
theorem forM_ok_leaves {l : List α} {f : α → Txn σ ε Unit} {u : Unit} (J : σ → Prop) (π : σ → γ)
    (hJ : ∀ a ∈ l, ∀ s t u, J s → f a s = (.ok u, t) → J t)
    (hsame : ∀ a ∈ l, ∀ s t u, J s → f a s = (.ok u, t) → π t = π s) (hs : J s)
    (h : l.forM f s = (.ok u, t)) : π t = π s := by
  induction l generalizing s with
  | nil =>
    obtain ⟨-, rfl⟩ := pure_ok.mp h
    rfl
  | cons a rest ih =>
    obtain ⟨_, v, hone, hrest⟩ := bind_ok.mp h
    rw [ih (fun b hb => hJ b (List.mem_cons_of_mem a hb))
      (fun b hb => hsame b (List.mem_cons_of_mem a hb)) (hJ a List.mem_cons_self s v _ hs hone) hrest]
    exact hsame a List.mem_cons_self s v _ hs hone

/-- A loop in which one turn alone touches a part of the store. -/
theorem forM_ok_turn {l : List α} {f : α → Txn σ ε Unit} {u : Unit} {a : α} (J : σ → Prop)
    (π : σ → γ) (hnodup : l.Nodup) (ha : a ∈ l)
    (hJ : ∀ b ∈ l, ∀ s t u, J s → f b s = (.ok u, t) → J t)
    (hother : ∀ b ∈ l, b ≠ a → ∀ s t u, J s → f b s = (.ok u, t) → π t = π s) (hs : J s)
    (h : l.forM f s = (.ok u, t)) :
    ∃ s₁ t₁, J s₁ ∧ π s₁ = π s ∧ f a s₁ = (.ok (), t₁) ∧ π t = π t₁ := by
  induction l generalizing s with
  | nil => simp at ha
  | cons b rest ih =>
    obtain ⟨hb, hrest⟩ := List.nodup_cons.mp hnodup
    obtain ⟨_, v, hone, hloop⟩ := bind_ok.mp h
    have hJrest : ∀ c ∈ rest, ∀ s t u, J s → f c s = (.ok u, t) → J t := fun c hc =>
      hJ c (List.mem_cons_of_mem b hc)
    have hv := hJ b List.mem_cons_self s v _ hs hone
    by_cases hab : a = b
    · subst hab
      refine ⟨s, v, hs, rfl, hone, forM_ok_leaves J π hJrest (fun c hc s t u => ?_) hv hloop⟩
      exact hother c (List.mem_cons_of_mem a hc) (fun heq => hb (heq ▸ hc)) s t u
    · obtain ⟨s₁, t₁, hs₁, hbefore, hrun, hafter⟩ := ih hrest ((List.mem_cons.mp ha).resolve_left hab)
        hJrest (fun c hc => hother c (List.mem_cons_of_mem b hc)) hv hloop
      refine ⟨s₁, t₁, hs₁, hbefore.trans ?_, hrun, hafter⟩
      exact hother b List.mem_cons_self (Ne.symm hab) s v _ hs hone

/-- A run whose outcome was computed. -/
theorem ok_of_isOk {x : Txn σ ε Unit} (h : (x s).1.isOk = true) : x s = (.ok (), (x s).2) := by
  rcases hrun : x s with ⟨_ | u, t⟩
  · simp [hrun, Except.isOk, Except.toBool] at h
  · rfl

/-- A committed transaction either ran to its end or changed nothing. -/
theorem commit_cases (x : Txn σ ε α) (s : σ) :
    (∃ a, x s = (.ok a, commit x s)) ∨ (∃ e, (x s).1 = .error e) ∧ commit x s = s := by
  unfold commit
  split
  · next a t h => exact .inl ⟨a, h⟩
  · next e t h => exact .inr ⟨⟨e, by rw [h]⟩, rfl⟩

/-- A refused transaction changes nothing. -/
theorem commit_error {x : Txn σ ε α} {e : ε} (h : (x s).1 = .error e) : commit x s = s := by
  rcases commit_cases x s with ⟨a, ha⟩ | ⟨_, hs⟩
  · rw [ha] at h
    simp at h
  · exact hs

end Ok

/-! ## One step of a run -/

section Steps

variable {s : σ}

theorem bind_read {g : σ → α} {f : α → Txn σ ε β} : (read g >>= f) s = f (g s) s := rfl

theorem bind_refuse_of_not {p : σ → Prop} [DecidablePred p] {e : ε} {f : Unit → Txn σ ε β}
    (h : ¬ p s) : (refuse p e >>= f) s = f () s := by
  show Txn.bind (refuse p e) f s = _
  rw [Txn.bind, refuse, if_neg h]

theorem bind_refuse_of {p : σ → Prop} [DecidablePred p] {e : ε} {f : Unit → Txn σ ε β}
    (h : p s) : (refuse p e >>= f) s = (.error e, s) := by
  show Txn.bind (refuse p e) f s = _
  rw [Txn.bind, refuse, if_pos h]

theorem bind_require_of_some {g : σ → Option α} {a : α} {e : ε} {f : α → Txn σ ε β}
    (h : g s = some a) : (require g e >>= f) s = f a s := by
  show Txn.bind (require g e) f s = _
  rw [Txn.bind, require, h]

theorem bind_require_of_none {g : σ → Option α} {e : ε} {f : α → Txn σ ε β} (h : g s = none) :
    (require g e >>= f) s = (.error e, s) := by
  show Txn.bind (require g e) f s = _
  rw [Txn.bind, require, h]

end Steps

/-! ## Parts of the store a body leaves alone

`Frame` and `Leaves` are classes: the frame of a body is found by instance
search from the frames of the updates it makes. -/

/-- The update leaves the part `π` of the store alone. -/
class Frame (π : σ → γ) (f : σ → σ) : Prop where
  eq : ∀ s, π (f s) = π s

/-- The body leaves the part `π` of the store alone, whether it returns or raises. -/
class Leaves (π : σ → γ) (x : Txn σ ε α) : Prop where
  eq : ∀ s, π (x s).2 = π s

section Leaves

variable {π : σ → γ}

instance leaves_pure (a : α) : Leaves π (pure a : Txn σ ε α) := ⟨fun _ => rfl⟩

instance leaves_read (f : σ → α) : Leaves π (read f : Txn σ ε α) := ⟨fun _ => rfl⟩

instance leaves_raise (e : ε) : Leaves π (raise e : Txn σ ε α) := ⟨fun _ => rfl⟩

instance leaves_attempt (f : σ → Except ε α) : Leaves π (attempt f : Txn σ ε α) :=
  ⟨fun _ => rfl⟩

instance leaves_refuse (p : σ → Prop) [DecidablePred p] (e : ε) :
    Leaves π (refuse p e : Txn σ ε Unit) where
  eq s := by
    unfold refuse
    split <;> rfl

instance leaves_require (f : σ → Option α) (e : ε) : Leaves π (require f e : Txn σ ε α) where
  eq s := by
    unfold require
    split <;> rfl

instance leaves_write (f : σ → σ) [h : Frame π f] : Leaves π (write f : Txn σ ε Unit) :=
  ⟨h.eq⟩

instance leaves_bind {x : Txn σ ε α} {f : α → Txn σ ε β} [hx : Leaves π x]
    [hf : ∀ a, Leaves π (f a)] : Leaves π (x >>= f) where
  eq s := by
    show π (Txn.bind x f s).2 = π s
    unfold Txn.bind
    have hxs := hx.eq s
    split
    · next a t h => rw [(hf a).eq t, ← hxs, h]
    · next e t h => rw [← hxs, h]

/-- A body whose second part has to be split by cases first. -/
theorem Leaves.bind {x : Txn σ ε α} {f : α → Txn σ ε β} (hx : Leaves π x)
    (hf : ∀ a, Leaves π (f a)) : Leaves π (x >>= f) :=
  leaves_bind

instance leaves_ite (c : Prop) [Decidable c] {x y : Txn σ ε α} [hx : Leaves π x]
    [hy : Leaves π y] : Leaves π (if c then x else y) := by
  split
  · exact hx
  · exact hy

instance leaves_onSome (o : Option α) {f : α → Txn σ ε Unit} [hf : ∀ a, Leaves π (f a)] :
    Leaves π (onSome o f) := by
  cases o with
  | none => exact leaves_pure ()
  | some a => exact hf a

instance leaves_when (c : Bool) {x : Txn σ ε Unit} [hx : Leaves π x] : Leaves π (when c x) := by
  cases c with
  | false => exact leaves_pure ()
  | true => exact hx

instance leaves_forM (xs : List α) {f : α → Txn σ ε Unit} [hf : ∀ a, Leaves π (f a)] :
    Leaves π (forM xs f) := by
  induction xs with
  | nil => exact leaves_pure ()
  | cons a rest ih =>
    rw [List.forM_cons]
    exact leaves_bind

instance leaves_list_forM (xs : List α) {f : α → Txn σ ε Unit} [hf : ∀ a, Leaves π (f a)] :
    Leaves π (xs.forM f) :=
  leaves_forM xs

theorem leaves_recover {x : Txn σ ε Unit} {h : ε → Option (Txn σ ε Unit)} (hx : Leaves π x)
    (hh : ∀ e y, h e = some y → Leaves π y) : Leaves π (recover x h) where
  eq s := by
    unfold recover
    have hxs := hx.eq s
    split
    · next a t hr => rw [← hxs, hr]
    · next e t hr =>
      rw [hr] at hxs
      split
      · next y hy => rw [(hh e y hy).eq t, ← hxs]
      · exact hxs

theorem Leaves.ok {x : Txn σ ε α} {s t : σ} {a : α} (h : Leaves π x) (hx : x s = (.ok a, t)) :
    π t = π s := by
  have := h.eq s
  rwa [hx] at this

end Leaves

/-! ## Relations between the store before and after -/

/-- Every run that returns moves the store along `R`. -/
class Follows (R : σ → σ → Prop) (x : Txn σ ε α) : Prop where
  ok : ∀ {s a t}, x s = (.ok a, t) → R s t

section Follows

variable {R : σ → σ → Prop}

/-- A body that leaves a part of the store alone follows the relations that hold
of stores with the same part. -/
theorem Leaves.follows {π : σ → γ} {x : Txn σ ε α} (h : Leaves π x)
    (hR : ∀ s t, π t = π s → R s t) : Follows R x where
  ok hx := hR _ _ (h.ok hx)

/-- A body that changes nothing follows every reflexive relation. -/
instance follows_of_leaves_id [Std.Refl R] {x : Txn σ ε α} [h : Leaves id x] : Follows R x :=
  h.follows fun s t hst => by
    have hst : t = s := hst
    rw [hst]
    exact Std.Refl.refl s

instance follows_pure [Std.Refl R] (a : α) : Follows R (pure a : Txn σ ε α) :=
  follows_of_leaves_id

theorem follows_write {f : σ → σ} (h : ∀ s, R s (f s)) : Follows R (write f : Txn σ ε Unit) where
  ok ht := by
    obtain rfl := write_ok.mp ht
    exact h _

theorem Follows.mono {Q : σ → σ → Prop} {x : Txn σ ε α} (h : Follows Q x)
    (hQR : ∀ s t, Q s t → R s t) : Follows R x where
  ok hx := hQR _ _ (h.ok hx)

instance follows_bind [IsTrans σ R] {x : Txn σ ε α} {f : α → Txn σ ε β} [hx : Follows R x]
    [hf : ∀ a, Follows R (f a)] : Follows R (x >>= f) where
  ok h := by
    obtain ⟨a, u, h₁, h₂⟩ := bind_ok.mp h
    exact IsTrans.trans _ _ _ (hx.ok h₁) ((hf a).ok h₂)

instance follows_ite (c : Prop) [Decidable c] {x y : Txn σ ε α} [hx : Follows R x]
    [hy : Follows R y] : Follows R (if c then x else y) := by
  split
  · exact hx
  · exact hy

instance follows_onSome [Std.Refl R] (o : Option α) {f : α → Txn σ ε Unit}
    [hf : ∀ a, Follows R (f a)] : Follows R (onSome o f) := by
  cases o with
  | none => exact follows_pure ()
  | some a => exact hf a

instance follows_when [Std.Refl R] (c : Bool) {x : Txn σ ε Unit} [hx : Follows R x] :
    Follows R (when c x) := by
  cases c with
  | false => exact follows_pure ()
  | true => exact hx

instance follows_forM [Std.Refl R] [IsTrans σ R] (xs : List α) {f : α → Txn σ ε Unit}
    [hf : ∀ a, Follows R (f a)] : Follows R (forM xs f) := by
  induction xs with
  | nil => exact follows_pure ()
  | cons a rest ih =>
    rw [List.forM_cons]
    exact follows_bind

instance follows_list_forM [Std.Refl R] [IsTrans σ R] (xs : List α) {f : α → Txn σ ε Unit}
    [hf : ∀ a, Follows R (f a)] : Follows R (xs.forM f) :=
  follows_forM xs

theorem follows_recover [IsTrans σ R] {x : Txn σ ε Unit} {h : ε → Option (Txn σ ε Unit)}
    (hx : Follows R x) (hraise : ∀ s e t, x s = (.error e, t) → R s t)
    (hh : ∀ e y, h e = some y → Follows R y) : Follows R (recover x h) where
  ok hrun := by
    unfold recover at hrun
    split at hrun
    · next a t hr =>
      rw [hrun] at hr
      exact hx.ok hr
    · next e t hr =>
      split at hrun
      · next y hy => exact IsTrans.trans _ _ _ (hraise _ _ _ hr) ((hh e y hy).ok hrun)
      · simp at hrun

end Follows

/-! ## Runs that must return -/

/-- From the store `s` the body returns, with a value and a store that satisfy `Q`. -/
def Returns (x : Txn σ ε α) (s : σ) (Q : α → σ → Prop) : Prop := ∃ a t, x s = (.ok a, t) ∧ Q a t

section Returns

variable {s : σ} {a : α} {x : Txn σ ε α} {P Q : α → σ → Prop}

theorem Returns.mono (h : Returns x s P) (hPQ : ∀ a t, P a t → Q a t) : Returns x s Q := by
  obtain ⟨a, t, hrun, hP⟩ := h
  exact ⟨a, t, hrun, hPQ a t hP⟩

theorem Returns.follows {R : σ → σ → Prop} [h : Follows R x] (hx : Returns x s Q) :
    Returns x s fun a t => Q a t ∧ R s t := by
  obtain ⟨a, t, hrun, hQ⟩ := hx
  exact ⟨a, t, hrun, hQ, h.ok hrun⟩

theorem returns_pure (h : Q a s) : Returns (pure a : Txn σ ε α) s Q := ⟨a, s, rfl, h⟩

theorem Returns.bind {f : α → Txn σ ε β} {R : β → σ → Prop} (hx : Returns x s P)
    (hf : ∀ a t, P a t → Returns (f a) t R) : Returns (x >>= f) s R := by
  obtain ⟨a, t, hrun, hP⟩ := hx
  obtain ⟨b, u, hrest, hR⟩ := hf a t hP
  exact ⟨b, u, bind_ok.mpr ⟨a, t, hrun, hrest⟩, hR⟩

/-- The first part is known to return. -/
theorem returns_after {f : α → Txn σ ε β} {t : σ} {R : β → σ → Prop} (hx : x s = (.ok a, t))
    (h : Returns (f a) t R) : Returns (x >>= f) s R := by
  obtain ⟨b, u, hrest, hR⟩ := h
  exact ⟨b, u, bind_ok.mpr ⟨a, t, hx, hrest⟩, hR⟩

theorem returns_require {f : σ → Option α} {e : ε} {g : α → Txn σ ε β} {R : β → σ → Prop}
    (hf : f s = some a) (h : Returns (g a) s R) : Returns (require f e >>= g) s R :=
  returns_after (require_ok.mpr ⟨hf, rfl⟩) h

theorem returns_refuse {p : σ → Prop} [DecidablePred p] {e : ε} {g : Unit → Txn σ ε β}
    {R : β → σ → Prop} (hp : ¬ p s) (h : Returns (g ()) s R) : Returns (refuse p e >>= g) s R :=
  returns_after (refuse_ok.mpr ⟨hp, rfl⟩) h

theorem returns_write {f : σ → σ} {Q : Unit → σ → Prop} (h : Q () (f s)) :
    Returns (write f : Txn σ ε Unit) s Q :=
  ⟨(), f s, rfl, h⟩

theorem returns_when {c : Bool} {x : Txn σ ε Unit} {Q : Unit → σ → Prop}
    (hyes : c = true → Returns x s Q) (hno : c = false → Q () s) : Returns (when c x) s Q := by
  cases c with
  | true => exact hyes rfl
  | false => exact returns_pure (hno rfl)

/-- A failure that the handler takes is no failure. -/
theorem returns_recover {x : Txn σ ε Unit} {h : ε → Option (Txn σ ε Unit)}
    {Q : Unit → σ → Prop} (hok : ∀ u t, x s = (.ok u, t) → Q u t)
    (herror : ∀ e t, x s = (.error e, t) → ∃ y, h e = some y ∧ Returns y t Q) :
    Returns (recover x h) s Q := by
  rcases hrun : x s with ⟨e | u, t⟩
  · obtain ⟨y, hy, u, v, hrun', hQ⟩ := herror e t hrun
    exact ⟨u, v, recover_ok.mpr (.inr ⟨e, t, y, hrun, hy, hrun'⟩), hQ⟩
  · exact ⟨u, t, recover_ok.mpr (.inl hrun), hok u t hrun⟩

/-- A loop returns when every turn returns and keeps what the turns rely on. -/
theorem returns_forM {l : List α} {f : α → Txn σ ε Unit} (I : σ → Prop)
    (hstep : ∀ a ∈ l, ∀ s, I s → Returns (f a) s fun _ t => I t) (hs : I s) :
    Returns (l.forM f) s fun _ t => I t := by
  induction l generalizing s with
  | nil => exact returns_pure hs
  | cons a rest ih =>
    refine (hstep a List.mem_cons_self s hs).bind fun _ t ht => ?_
    exact ih (fun b hb => hstep b (List.mem_cons_of_mem a hb)) ht

end Returns

/-! ## Runs that may raise -/

/-- The outcome of the body from the store `s` and the store it leaves satisfy `Q`. -/
def Ends (x : Txn σ ε α) (s : σ) (Q : Except ε α → σ → Prop) : Prop := Q (x s).1 (x s).2

section Ends

variable {s : σ} {x : Txn σ ε α} {f : α → Txn σ ε β} {P : Except ε α → σ → Prop}
  {Q : Except ε β → σ → Prop}

theorem Ends.mono {P' : Except ε α → σ → Prop} (h : Ends x s P) (hPP' : ∀ r t, P r t → P' r t) :
    Ends x s P' :=
  hPP' _ _ h

theorem Ends.bind (hx : Ends x s P) (hok : ∀ a t, P (.ok a) t → Ends (f a) t Q)
    (herror : ∀ e t, P (.error e) t → Q (.error e) t) : Ends (x >>= f) s Q := by
  show Q (Txn.bind x f s).1 (Txn.bind x f s).2
  unfold Txn.bind
  unfold Ends at hx
  rcases hrun : x s with ⟨e | a, t⟩
  · rw [hrun] at hx
    exact herror e t hx
  · rw [hrun] at hx
    exact hok a t hx

theorem ends_pure {a : α} (h : P (.ok a) s) : Ends (pure a : Txn σ ε α) s P := h

theorem ends_raise {e : ε} (h : P (.error e) s) : Ends (raise e : Txn σ ε α) s P := h

theorem ends_write {g : σ → σ} {P : Except ε Unit → σ → Prop} (h : P (.ok ()) (g s)) :
    Ends (write g : Txn σ ε Unit) s P := h

theorem ends_read_bind {g : σ → α} (h : Ends (f (g s)) s Q) : Ends (read g >>= f) s Q := h

theorem ends_write_bind {g : σ → σ} {f : Unit → Txn σ ε β} (h : Ends (f ()) (g s) Q) :
    Ends (write g >>= f) s Q := h

theorem ends_refuse_bind {p : σ → Prop} [DecidablePred p] {e : ε} {f : Unit → Txn σ ε β}
    (hyes : p s → Q (.error e) s) (hno : ¬ p s → Ends (f ()) s Q) :
    Ends (refuse p e >>= f) s Q := by
  refine Ends.bind (P := fun r t => t = s ∧ match r with
    | .ok _ => ¬ p s
    | .error e' => p s ∧ e' = e) ?_ ?_ ?_
  · unfold Ends refuse
    split <;> simp_all
  · rintro _ _ ⟨rfl, hp⟩
    exact hno hp
  · rintro _ _ ⟨rfl, hp, rfl⟩
    exact hyes hp

theorem ends_require_bind {g : σ → Option α} {e : ε} (hnone : g s = none → Q (.error e) s)
    (hsome : ∀ a, g s = some a → Ends (f a) s Q) : Ends (require g e >>= f) s Q := by
  refine Ends.bind (P := fun r t => t = s ∧ match r with
    | .ok a => g s = some a
    | .error e' => g s = none ∧ e' = e) ?_ ?_ ?_
  · unfold Ends require
    split <;> simp_all
  · rintro _ _ ⟨rfl, hg⟩
    exact hsome _ hg
  · rintro _ _ ⟨rfl, hg, rfl⟩
    exact hnone hg

theorem ends_when {c : Bool} {x : Txn σ ε Unit} {P : Except ε Unit → σ → Prop}
    (hyes : c = true → Ends x s P) (hno : c = false → P (.ok ()) s) : Ends (when c x) s P := by
  cases c with
  | true => exact hyes rfl
  | false => exact hno rfl

end Ends

/-! ## Invariants of the store -/

/-- If the invariant holds before, it holds after. -/
def Preserves (I : σ → Prop) (s t : σ) : Prop := I s → I t

instance (I : σ → Prop) : Std.Refl (Preserves I) := ⟨fun _ hs => hs⟩

instance (I : σ → Prop) : IsTrans σ (Preserves I) := ⟨fun _ _ _ h₁ h₂ hs => h₂ (h₁ hs)⟩

/-- Every run that returns keeps the invariant. -/
abbrev Keeps (I : σ → Prop) (x : Txn σ ε α) : Prop := Follows (Preserves I) x

theorem keeps_write {I : σ → Prop} {f : σ → σ} (h : ∀ s, I s → I (f s)) :
    Keeps I (write f : Txn σ ε Unit) :=
  follows_write h

end Txn

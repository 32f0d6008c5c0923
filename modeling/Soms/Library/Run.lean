import Mathlib.Data.List.Basic
import Mathlib.Data.List.Induction

/-!
# Runs of a labelled transition system

A run takes steps one after another; `Run step P` are the runs in which every
label satisfies the condition `P` in the state it is taken from.  An invariant
that one step keeps holds at the end of every run.
-/

variable {σ ε : Type}

/-- The runs from one state to another whose steps satisfy `P`. -/
inductive Run (step : σ → ε → σ → Prop) (P : σ → ε → Prop) : σ → σ → Prop
  | refl (s : σ) : Run step P s s
  | tail {s t u : σ} {e : ε} (run : Run step P s t) (allowed : P t e) (last : step t e u) :
      Run step P s u

namespace Run

variable {step : σ → ε → σ → Prop} {P Q : σ → ε → Prop} {s t u : σ}

/-- What the allowed steps keep, a run keeps. -/
theorem invariant {I : σ → Prop} (hstep : ∀ s e t, I s → P s e → step s e t → I t)
    (hrun : Run step P s t) (hs : I s) : I t := by
  induction hrun with
  | refl => exact hs
  | tail _ hP hlast ih => exact hstep _ _ _ ih hP hlast

theorem mono (hPQ : ∀ s e, P s e → Q s e) (hrun : Run step P s t) : Run step Q s t := by
  induction hrun with
  | refl => exact .refl _
  | tail _ hP hlast ih => exact .tail ih (hPQ _ _ hP) hlast

theorem single {e : ε} (hP : P s e) (h : step s e t) : Run step P s t := .tail (.refl s) hP h

theorem trans (h₁ : Run step P s t) (h₂ : Run step P t u) : Run step P s u := by
  induction h₂ with
  | refl => exact h₁
  | tail _ hP hlast ih => exact .tail ih hP hlast

/-- Relations that each step respects and that compose hold from end to end. -/
theorem relates {R : σ → σ → Prop} [Std.Refl R] [IsTrans σ R]
    (hstep : ∀ s e t, P s e → step s e t → R s t) (hrun : Run step P s t) : R s t := by
  induction hrun with
  | refl => exact Std.Refl.refl _
  | tail _ hP hlast ih => exact IsTrans.trans _ _ _ ih (hstep _ _ _ hP hlast)

end Run

/-! ## Runs with their history -/

/-- The event happened, and the condition holds of the state it led to and of every
state after it. -/
def Since (ev : ε → Prop) (cond : σ → Prop) : List (ε × σ) → Prop
  | [] => False
  | x :: h => cond x.2 ∧ (ev x.1 ∨ Since ev cond h)

theorem Since.happened {ev : ε → Prop} {cond : σ → Prop} {e : ε} {s : σ} (he : ev e) (hs : cond s)
    (h : List (ε × σ)) : Since ev cond ((e, s) :: h) :=
  ⟨hs, .inl he⟩

theorem Since.still {ev : ε → Prop} {cond : σ → Prop} {h : List (ε × σ)}
    (hsince : Since ev cond h) {e : ε} {s : σ} (hs : cond s) : Since ev cond ((e, s) :: h) :=
  ⟨hs, .inr hsince⟩

/-- The state in which a history from `s₀` ended. -/
def endState (s₀ : σ) : List (ε × σ) → σ
  | [] => s₀
  | x :: _ => x.2

/-- The condition holds of every event of a history, of the events before it and of the
state it led to. -/
def Every (P : List (ε × σ) → ε → σ → Prop) : List (ε × σ) → Prop
  | [] => True
  | x :: h => Every P h ∧ P h x.1 x.2

instance Every.decidable (P : List (ε × σ) → ε → σ → Prop) [∀ h e s, Decidable (P h e s)] :
    (h : List (ε × σ)) → Decidable (Every P h)
  | [] => .isTrue trivial
  | x :: h => @instDecidableAnd (Every P h) (P h x.1 x.2) (Every.decidable P h) _

/-- The runs from `s₀` whose steps satisfy `P`, each with its events and the states
they led to, the newest first. -/
inductive Trace (step : σ → ε → σ → Prop) (P : σ → ε → Prop) (s₀ : σ) : List (ε × σ) → σ → Prop
  | refl : Trace step P s₀ [] s₀
  | tail {h : List (ε × σ)} {s t : σ} {e : ε} (run : Trace step P s₀ h s) (allowed : P s e)
      (last : step s e t) : Trace step P s₀ ((e, t) :: h) t

namespace Trace

variable {step : σ → ε → σ → Prop} {P : σ → ε → Prop} {s₀ s : σ} {h : List (ε × σ)}

/-- What the allowed steps keep, of the history and the state together, holds at
the end of every run. -/
theorem invariant {I : List (ε × σ) → σ → Prop}
    (hstep : ∀ h s e t, I h s → P s e → step s e t → I ((e, t) :: h) t)
    (hrun : Trace step P s₀ h s) (hs : I [] s₀) : I h s := by
  induction hrun with
  | refl => exact hs
  | tail _ hP hlast ih => exact hstep _ _ _ _ ih hP hlast

/-- A run without its history. -/
theorem toRun (hrun : Trace step P s₀ h s) : Run step P s₀ s := by
  induction hrun with
  | refl => exact .refl s₀
  | tail _ hP hlast ih => exact .tail ih hP hlast

theorem mono {P Q : σ → ε → Prop} (hPQ : ∀ s e, P s e → Q s e) (hrun : Trace step P s₀ h s) :
    Trace step Q s₀ h s := by
  induction hrun with
  | refl => exact .refl
  | tail _ hP hlast ih => exact .tail ih (hPQ _ _ hP) hlast

/-- The history determines where a run ended. -/
theorem last_unique {P Q : σ → ε → Prop} {s t : σ} (hs : Trace step P s₀ h s)
    (ht : Trace step Q s₀ h t) : s = t := by
  cases hs with
  | refl => cases ht; rfl
  | tail _ _ _ => cases ht; rfl

theorem endState_eq (hrun : Trace step P s₀ h s) : endState s₀ h = s := by
  cases hrun <;> rfl

/-- What holds at the start and after every step holds at the end. -/
theorem at_end {Q : σ → Prop} (hrun : Trace step P s₀ h s) (hs : Q s₀) (hall : ∀ x ∈ h, Q x.2) :
    Q s := by
  cases hrun with
  | refl => exact hs
  | tail _ _ _ => exact hall _ List.mem_cons_self

/-- What the steps that meet a condition on the past keep holds at the end of a run whose
steps all met it. -/
theorem of_every {I : List (ε × σ) → σ → Prop} {Q : List (ε × σ) → ε → σ → Prop} (hI₀ : I [] s₀)
    (hstep : ∀ h s e t, I h s → endState s₀ h = s → Q h e t → step s e t → I ((e, t) :: h) t)
    (hrun : Trace step P s₀ h s) (hQ : Every Q h) : I h s := by
  induction hrun with
  | refl => exact hI₀
  | tail past _ last ih => exact hstep _ _ _ _ (ih hQ.1) past.endState_eq hQ.2 last

/-- If `Q` survives exactly the steps that satisfy `P`, then it holds all along
exactly the runs whose steps satisfy `P`. -/
theorem always_iff {I Q : σ → Prop} (hI : ∀ s e t, I s → step s e t → I t)
    (hQ : ∀ s e t, I s → Q s → step s e t → (Q t ↔ P s e)) (hI₀ : I s₀) (hQ₀ : Q s₀)
    (hrun : Trace step (fun _ _ => True) s₀ h s) :
    (∀ x ∈ h, Q x.2) ↔ Trace step P s₀ h s := by
  induction hrun with
  | refl => simp [Trace.refl]
  | @tail h s t e run _ last ih =>
    have hIs : I s := run.invariant (I := fun _ s => I s)
      (fun _ _ _ _ hs _ hst => hI _ _ _ hs hst) hI₀
    constructor
    · intro hall
      have hbefore : ∀ x ∈ h, Q x.2 := fun x hx => hall x (List.mem_cons_of_mem _ hx)
      have hQt : Q t := hall (e, t) List.mem_cons_self
      exact (ih.mp hbefore).tail ((hQ s e t hIs (run.at_end hQ₀ hbefore) last).mp hQt) last
    · intro hP
      cases hP with
      | tail run' hP _ =>
        obtain rfl := run.last_unique run'
        have hbefore := ih.mpr run'
        rintro x hx
        rcases List.mem_cons.mp hx with rfl | hx
        · exact (hQ _ _ _ hIs (run.at_end hQ₀ hbefore) last).mpr hP
        · exact hbefore x hx

/-- If one condition on an event amounts to another as long as the other has held, and
the invariant that shows it is kept while it holds, then the two hold along the same
runs. -/
theorem every_iff {I : List (ε × σ) → σ → Prop} {P Q : List (ε × σ) → ε → σ → Prop}
    (hI₀ : I [] s₀)
    (hstep : ∀ h s e t, I h s → endState s₀ h = s → step s e t →
      (P h e t ↔ Q h e t) ∧ (Q h e t → I ((e, t) :: h) t))
    (hrun : Trace step (fun _ _ => True) s₀ h s) : Every P h ↔ Every Q h := by
  suffices hboth : (Every P h ↔ Every Q h) ∧ (Every Q h → I h s) from hboth.1
  induction hrun with
  | refl => exact ⟨Iff.rfl, fun _ => hI₀⟩
  | @tail past s t e hpast _ hlast ih =>
    have hone := fun hQ => hstep past s e t (ih.2 hQ) hpast.endState_eq hlast
    refine ⟨?_, fun ⟨hbefore, hQ⟩ => (hone hbefore).2 hQ⟩
    rw [Every, Every, ih.1]
    exact and_congr_right fun hbefore => (hone hbefore).1

end Trace

/-! ## Systems whose events lead to one state -/

/-- The history of some events from `s₀`, the newest first. -/
def historyOf (after : σ → ε → σ) (s₀ : σ) : List ε → List (ε × σ)
  | [] => []
  | e :: past => (e, after (endState s₀ (historyOf after s₀ past)) e) :: historyOf after s₀ past

theorem trace_historyOf {step : σ → ε → σ → Prop} {after : σ → ε → σ} (s₀ : σ) (es : List ε)
    (hstep : ∀ e ∈ es, ∀ s, step s e (after s e)) :
    Trace step (fun _ _ => True) s₀ (historyOf after s₀ es)
      (endState s₀ (historyOf after s₀ es)) := by
  induction es with
  | nil => exact .refl
  | cons e past ih =>
    have hpast := ih fun e' he' => hstep e' (List.mem_cons_of_mem e he')
    exact hpast.tail trivial (hstep e List.mem_cons_self _)

/-- The run of some events that all meet a condition. -/
theorem trace_historyOf_of_every {step : σ → ε → σ → Prop} {P : σ → ε → Prop} {after : σ → ε → σ}
    (s₀ : σ) (es : List ε) (hstep : ∀ s e, step s e (after s e))
    (hP : Every (fun past e _ => P (endState s₀ past) e) (historyOf after s₀ es)) :
    Trace step P s₀ (historyOf after s₀ es) (endState s₀ (historyOf after s₀ es)) := by
  induction es with
  | nil => exact .refl
  | cons e past ih => exact (ih hP.1).tail hP.2 (hstep _ e)

theorem run_historyOf {step : σ → ε → σ → Prop} {P : σ → ε → Prop} {after : σ → ε → σ} (s₀ : σ)
    (es : List ε) (hstep : ∀ s e, step s e (after s e))
    (hP : Every (fun past e _ => P (endState s₀ past) e) (historyOf after s₀ es)) :
    Run step P s₀ (endState s₀ (historyOf after s₀ es)) :=
  (trace_historyOf_of_every s₀ es hstep hP).toRun

/-- The history of some events that may not all happen, the newest first. -/
def historyOf? (step : σ → ε → Option σ) (s₀ : σ) : List ε → Option (List (ε × σ))
  | [] => some []
  | e :: past => (historyOf? step s₀ past).bind fun h =>
    (step (endState s₀ h) e).map fun t => (e, t) :: h

theorem trace_historyOf? {step : σ → ε → Option σ} {s₀ : σ} {es : List ε} {h : List (ε × σ)}
    (hh : historyOf? step s₀ es = some h) :
    Trace (fun s e t => step s e = some t) (fun _ _ => True) s₀ h (endState s₀ h) ∧
      h.map Prod.fst = es := by
  induction es generalizing h with
  | nil =>
    obtain rfl := Option.some.inj hh
    exact ⟨.refl, rfl⟩
  | cons e past ih =>
    obtain ⟨h', hh', hlast⟩ := Option.bind_eq_some_iff.mp hh
    obtain ⟨t, ht, rfl⟩ := Option.map_eq_some_iff.mp hlast
    obtain ⟨hrun, hevents⟩ := ih hh'
    exact ⟨hrun.tail trivial ht, by rw [List.map_cons, hevents]⟩

/-! ## Folds -/

/-- A fold whose steps leave a part of the state alone leaves it alone. -/
theorem foldl_leaves {α β γ : Type} (π : β → γ) {f : β → α → β} (h : ∀ b a, π (f b a) = π b)
    (l : List α) (b : β) : π (l.foldl f b) = π b := by
  induction l generalizing b with
  | nil => rfl
  | cons a rest ih => rw [List.foldl_cons, ih, h]

/-- Steps of which the last one counts: one that is taken twice counts once, and where it agrees on
two states it agrees whatever came in between.  Going over them again then changes nothing. -/
theorem foldl_again {α β : Type} {f : β → α → β} (htwice : ∀ b a, f (f b a) a = f b a)
    (hcongr : ∀ b c a x, f b a = f c a → f (f b x) a = f (f c x) a) (l : List α) (b : β) :
    l.foldl f (l.foldl f b) = l.foldl f b := by
  have hlast : ∀ (l : List α) (b c : β) (a : α), f b a = f c a →
      f (l.foldl f b) a = f (l.foldl f c) a := by
    intro l
    induction l with
    | nil => exact fun _ _ _ h => h
    | cons x rest ih => exact fun b c a h => ih _ _ a (hcongr b c a x h)
  induction l using List.reverseRecOn with
  | nil => rfl
  | append_singleton l a ih =>
    simp only [List.foldl_append, List.foldl_cons, List.foldl_nil]
    rw [hlast l _ _ a (htwice (l.foldl f b) a), ih]

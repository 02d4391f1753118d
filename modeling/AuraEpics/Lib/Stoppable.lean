import Mathlib.Logic.Basic

/-!
# Stateful computations that may stop part-way

A task changes a state and returns a value, or is stopped (it panics, or is
aborted at a suspension point); what it did to the state until then stays done.
`Spec P m Q R` is the triple for such a task: started where `P` holds it returns
a value and a state related by `Q`, or it is stopped in a state with `R`.
-/

/-- A computation on `σ` that returns an `α` or is stopped. -/
def Stoppable (σ α : Type) : Type := σ → Option α × σ

namespace Stoppable

variable {σ α β : Type}

instance : Monad (Stoppable σ) where
  pure a := fun s => (some a, s)
  bind m f := fun s =>
    match m s with
    | (some a, s') => f a s'
    | (none, s') => (none, s')

/-- Being stopped. -/
def stop : Stoppable σ α := fun s => (none, s)

/-- A change of the state. -/
def modify (f : σ → σ) : Stoppable σ Unit := fun s => (some (), f s)

/-- The current state. -/
def get : Stoppable σ σ := fun s => (some s, s)

@[simp] theorem pure_apply (a : α) (s : σ) : (pure a : Stoppable σ α) s = (some a, s) := rfl

theorem bind_apply (m : Stoppable σ α) (f : α → Stoppable σ β) (s : σ) :
    (m >>= f) s = match m s with
      | (some a, s') => f a s'
      | (none, s') => (none, s') := rfl

@[simp] theorem get_apply (s : σ) : (get : Stoppable σ σ) s = (some s, s) := rfl

@[simp] theorem modify_apply (f : σ → σ) (s : σ) : modify f s = (some (), f s) := rfl

/-- From `P`, the task returns with `Q` or is stopped with `R`. -/
def Spec (P : σ → Prop) (m : Stoppable σ α) (Q : α → σ → Prop) (R : σ → Prop) : Prop :=
  ∀ s, P s → match m s with
    | (some a, s') => Q a s'
    | (none, s') => R s'

namespace Spec

variable {P P' : σ → Prop} {Q Q' : α → σ → Prop} {R R' : σ → Prop}

theorem pure {a : α} (h : ∀ s, P s → Q a s) : Spec P (Pure.pure a) Q R := h

theorem stop (h : ∀ s, P s → R s) : Spec P (Stoppable.stop : Stoppable σ α) Q R := h

theorem modify {f : σ → σ} {Q : Unit → σ → Prop} (h : ∀ s, P s → Q () (f s)) :
    Spec P (Stoppable.modify f) Q R := h

/-- The condition after the first part is the one before the second; a stop in
    either part is a stop of the whole. -/
theorem bind {m : Stoppable σ α} {f : α → Stoppable σ β} {Q : α → σ → Prop} {Q' : β → σ → Prop}
    (hm : Spec P m Q R) (hf : ∀ a, Spec (Q a) (f a) Q' R) : Spec P (m >>= f) Q' R := by
  intro s hs
  have hms := hm s hs
  change match (match m s with
    | (some a, s') => f a s'
    | (none, s') => (none, s')) with
    | (some b, s') => Q' b s'
    | (none, s') => R s'
  rcases h : m s with ⟨_ | a, s'⟩
  · rw [h] at hms
    exact hms
  · rw [h] at hms
    exact hf a s' hms

theorem mono {m : Stoppable σ α} (h : Spec P m Q R) (hP : ∀ s, P' s → P s)
    (hQ : ∀ a s, Q a s → Q' a s) (hR : ∀ s, R s → R' s) : Spec P' m Q' R' := by
  intro s hs
  have hms := h s (hP s hs)
  rcases hr : m s with ⟨_ | a, s'⟩
  · rw [hr] at hms
    exact hR s' hms
  · rw [hr] at hms
    exact hQ a s' hms

/-- A condition of the precondition that does not depend on the state. -/
theorem of_pure {p : Prop} {m : Stoppable σ α} (h : p → Spec P m Q R) :
    Spec (fun s => p ∧ P s) m Q R := fun s hs => h hs.1 s hs.2

theorem of_exists {ι : Type*} {P : ι → σ → Prop} {m : Stoppable σ α}
    (h : ∀ x, Spec (P x) m Q R) : Spec (fun s => ∃ x, P x s) m Q R :=
  fun s ⟨x, hx⟩ => h x s hx

theorem ite {c : Prop} [Decidable c] {m m' : Stoppable σ α} (h : c → Spec P m Q R)
    (h' : ¬c → Spec P m' Q R) : Spec P (if c then m else m') Q R := by
  split
  · exact h ‹_›
  · exact h' ‹_›

end Spec

end Stoppable

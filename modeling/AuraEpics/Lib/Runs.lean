import Mathlib.Data.List.Infix

/-!
# Runs of a step function

The states along a run of `step` over a list of actions, and the two rules for
invariants: one that says for which runs a property holds in every state, and one
that carries an invariant along under a condition on the states.
-/

namespace Runs

variable {σ α : Type*} (step : σ → α → σ)

/-- The state after the actions. -/
def run (s : σ) (as : List α) : σ := as.foldl step s

/-- `I` holds in every state along the run, the first and the last included. -/
def AlongStates (I : σ → Prop) : σ → List α → Prop
  | s, [] => I s
  | s, a :: as => I s ∧ AlongStates I (step s a) as

instance AlongStates.decidable (I : σ → Prop) [DecidablePred I] :
    (s : σ) → (as : List α) → Decidable (AlongStates step I s as)
  | s, [] => inferInstanceAs (Decidable (I s))
  | s, a :: as =>
    have := AlongStates.decidable I (step s a) as
    inferInstanceAs (Decidable (I s ∧ AlongStates step I (step s a) as))

/-- `C` holds of every step of the run, in the state the step is taken from. -/
def AlongSteps (C : σ → α → Prop) : σ → List α → Prop
  | _, [] => True
  | s, a :: as => C s a ∧ AlongSteps C (step s a) as

instance AlongSteps.decidable (C : σ → α → Prop) [∀ s a, Decidable (C s a)] :
    (s : σ) → (as : List α) → Decidable (AlongSteps step C s as)
  | _, [] => inferInstanceAs (Decidable True)
  | s, a :: as =>
    have := AlongSteps.decidable C (step s a) as
    inferInstanceAs (Decidable (C s a ∧ AlongSteps step C (step s a) as))

/-- `P`, once it holds, holds until an action `Q`. -/
def HeldUntil (P : σ → Prop) (Q : α → Prop) (s : σ) (as : List α) : Prop :=
  ∀ pre mid post, as = pre ++ mid ++ post → P (run step s pre) → (∀ a ∈ mid, ¬Q a) →
    P (run step s (pre ++ mid))

/-- What the steps of the run put out, in order. -/
def outputs {β : Type*} (out : σ → α → List β) : σ → List α → List β
  | _, [] => []
  | s, a :: as => out s a ++ outputs out (step s a) as

variable {step}

theorem alongStates_iff_prefixes {I : σ → Prop} {s : σ} {as : List α} :
    AlongStates step I s as ↔ ∀ pre, pre <+: as → I (run step s pre) := by
  induction as generalizing s with
  | nil => simp [AlongStates, run]
  | cons a as ih =>
    rw [AlongStates, ih]
    constructor
    · rintro ⟨hs, h⟩ pre hpre
      cases pre with
      | nil => exact hs
      | cons b bs =>
        obtain ⟨rfl, hbs⟩ := List.cons_prefix_cons.1 hpre
        exact h bs hbs
    · intro h
      exact ⟨h [] (List.nil_prefix), fun pre hpre => h (a :: pre) (List.cons_prefix_cons.2 ⟨rfl, hpre⟩)⟩

theorem AlongStates.head {I : σ → Prop} {s : σ} {as : List α} (h : AlongStates step I s as) :
    I s := by
  cases as with
  | nil => exact h
  | cons a as => exact h.1

theorem AlongStates.last {I : σ → Prop} {s : σ} {as : List α} (h : AlongStates step I s as) :
    I (run step s as) := alongStates_iff_prefixes.1 h as (List.prefix_refl as)

theorem AlongStates.mono {I J : σ → Prop} {s : σ} {as : List α} (h : AlongStates step I s as)
    (hij : ∀ s, I s → J s) : AlongStates step J s as :=
  alongStates_iff_prefixes.2 fun pre hpre => hij _ (alongStates_iff_prefixes.1 h pre hpre)

/-- Let `J` be an invariant. If a step from a state with `J` and `I` leads to one with `I`
    exactly when `C` holds of it, then `I` holds along a run exactly when `C` holds of all its
    steps. -/
theorem alongStates_iff_alongSteps_of_invariant {I J : σ → Prop} {C : σ → α → Prop}
    (hJ : ∀ s a, J s → J (step s a)) (hstep : ∀ s a, J s → I s → (I (step s a) ↔ C s a)) {s : σ}
    (hs : J s) (hs' : I s) (as : List α) : AlongStates step I s as ↔ AlongSteps step C s as := by
  induction as generalizing s with
  | nil => exact ⟨fun _ => trivial, fun _ => hs'⟩
  | cons a as ih =>
    constructor
    · rintro ⟨-, h⟩
      have hsa : I (step s a) := h.head
      exact ⟨(hstep s a hs hs').1 hsa, (ih (hJ s a hs) hsa).1 h⟩
    · rintro ⟨hc, h⟩
      exact ⟨hs', (ih (hJ s a hs) ((hstep s a hs hs').2 hc)).2 h⟩

theorem alongStates_iff_alongSteps {I : σ → Prop} {C : σ → α → Prop}
    (hstep : ∀ s a, I s → (I (step s a) ↔ C s a)) {s : σ} (hs : I s) (as : List α) :
    AlongStates step I s as ↔ AlongSteps step C s as :=
  alongStates_iff_alongSteps_of_invariant (J := fun _ => True) (fun _ _ _ => trivial)
    (fun s a _ => hstep s a) trivial hs as

/-- An invariant of the steps between states with `H` holds along every run through
    such states. -/
theorem AlongStates.preserved {H I : σ → Prop}
    (hstep : ∀ s a, H s → H (step s a) → I s → I (step s a)) {s : σ} {as : List α}
    (hH : AlongStates step H s as) (hs : I s) : AlongStates step I s as := by
  induction as generalizing s with
  | nil => exact hs
  | cons a as ih => exact ⟨hs, ih hH.2 (hstep s a hH.1 hH.2.head hs)⟩

/-- An invariant of the steps with `C` holds along every run of such steps. -/
theorem AlongSteps.invariant {C : σ → α → Prop} {I : σ → Prop}
    (hstep : ∀ s a, C s a → I s → I (step s a)) {s : σ} {as : List α}
    (h : AlongSteps step C s as) (hs : I s) : AlongStates step I s as := by
  induction as generalizing s with
  | nil => exact hs
  | cons a as ih => exact ⟨hs, ih h.2 (hstep s a h.1 hs)⟩

/-- An invariant of every step holds along every run. -/
theorem alongStates_of_step {I : σ → Prop} (hstep : ∀ s a, I s → I (step s a)) {s : σ} (hs : I s)
    (as : List α) : AlongStates step I s as := by
  induction as generalizing s with
  | nil => exact hs
  | cons a as ih => exact ⟨hs, ih (hstep s a hs)⟩

/-- What holds of every step from a state with `I` holds of the steps of a run through such
    states. -/
theorem AlongStates.steps {I : σ → Prop} {C : σ → α → Prop} (hC : ∀ s a, I s → C s a) {s : σ}
    {as : List α} (h : AlongStates step I s as) : AlongSteps step C s as := by
  induction as generalizing s with
  | nil => trivial
  | cons a as ih => exact ⟨hC s a h.1, ih h.2⟩

/-- What an invariant says of the state each step of a run is taken from. -/
theorem AlongStates.before {I : σ → Prop} {s : σ} {pre post : List α}
    (h : AlongStates step I s (pre ++ post)) : I (run step s pre) :=
  alongStates_iff_prefixes.1 h pre (List.prefix_append pre post)

theorem alongSteps_append {C : σ → α → Prop} {s : σ} {pre post : List α} :
    AlongSteps step C s (pre ++ post) ↔
      AlongSteps step C s pre ∧ AlongSteps step C (run step s pre) post := by
  induction pre generalizing s with
  | nil => exact ⟨fun h => ⟨trivial, h⟩, fun h => h.2⟩
  | cons a pre ih =>
    show C s a ∧ AlongSteps step C (step s a) (pre ++ post) ↔ _
    rw [ih, ← and_assoc]
    rfl

/-- Two conditions on steps that agree in the states with an invariant `J`, which steps with
    one of them keep, hold of the same runs. -/
theorem alongSteps_congr {J : σ → Prop} {C D : σ → α → Prop}
    (hJ : ∀ s a, J s → C s a → J (step s a)) (h : ∀ s a, J s → (C s a ↔ D s a)) {s : σ} (hs : J s)
    (as : List α) : AlongSteps step C s as ↔ AlongSteps step D s as := by
  induction as generalizing s with
  | nil => exact Iff.rfl
  | cons a as ih =>
    constructor
    · rintro ⟨hc, hrest⟩
      exact ⟨(h s a hs).1 hc, (ih (hJ s a hs hc)).1 hrest⟩
    · rintro ⟨hd, hrest⟩
      have hc : C s a := (h s a hs).2 hd
      exact ⟨hc, (ih (hJ s a hs hc)).2 hrest⟩

/-- What holds in every state of a run holds at its start and after every step. -/
theorem alongStates_and_alongSteps_iff {I : σ → Prop} {C : σ → α → Prop} {s : σ} {as : List α} :
    AlongStates step I s as ∧ AlongSteps step C s as ↔
      I s ∧ AlongSteps step (fun s a => C s a ∧ I (step s a)) s as := by
  induction as generalizing s with
  | nil => exact ⟨fun h => ⟨h.1, trivial⟩, fun h => ⟨h.1, trivial⟩⟩
  | cons a as ih =>
    constructor
    · rintro ⟨⟨hs, hstates⟩, hc, hsteps⟩
      obtain ⟨hsa, hrest⟩ := ih.1 ⟨hstates, hsteps⟩
      exact ⟨hs, ⟨hc, hsa⟩, hrest⟩
    · rintro ⟨hs, ⟨hc, hsa⟩, hrest⟩
      obtain ⟨hstates, hsteps⟩ := ih.2 ⟨hsa, hrest⟩
      exact ⟨⟨hs, hstates⟩, hc, hsteps⟩

/-- A condition on the actions of a run holds of its steps. -/
theorem AlongSteps.and_mem {C : σ → α → Prop} {P : α → Prop} {s : σ} {as : List α}
    (h : AlongSteps step C s as) (hP : ∀ a ∈ as, P a) :
    AlongSteps step (fun s a => C s a ∧ P a) s as := by
  induction as generalizing s with
  | nil => trivial
  | cons a as ih =>
    refine ⟨⟨h.1, hP a List.mem_cons_self⟩, ih h.2 fun b hb => ?_⟩
    exact hP b (List.mem_cons_of_mem a hb)

theorem alongSteps_of_mem {P : α → Prop} {s : σ} {as : List α} (hP : ∀ a ∈ as, P a) :
    AlongSteps step (fun _ a => P a) s as := by
  induction as generalizing s with
  | nil => trivial
  | cons a as ih => exact ⟨hP a List.mem_cons_self, ih fun b hb => hP b (List.mem_cons_of_mem a hb)⟩

/-- A relation that every pair of steps keeps holds after the same actions. -/
theorem run_related {τ : Type*} {step' : τ → α → τ} {R : σ → τ → Prop}
    (hstep : ∀ s t a, R s t → R (step s a) (step' t a)) {s : σ} {t : τ} (hst : R s t)
    (as : List α) : R (run step s as) (run step' t as) := by
  induction as generalizing s t with
  | nil => exact hst
  | cons a as ih => exact ih (hstep s t a hst)

theorem run_append (s : σ) (pre post : List α) :
    run step s (pre ++ post) = run step (run step s pre) post := List.foldl_append

theorem outputs_concat {β : Type*} {out : σ → α → List β} (s : σ) (as : List α) (a : α) :
    outputs step out s (as ++ [a]) = outputs step out s as ++ out (run step s as) a := by
  induction as generalizing s with
  | nil => exact List.append_nil _
  | cons b as ih =>
    show out s b ++ outputs step out (step s b) (as ++ [a]) = _
    rw [ih, ← List.append_assoc]
    rfl

theorem mem_outputs {β : Type*} {out : σ → α → List β} {s : σ} {as : List α} {b : β}
    (h : b ∈ outputs step out s as) :
    ∃ pre a post, as = pre ++ a :: post ∧ b ∈ out (run step s pre) a := by
  induction as generalizing s with
  | nil => cases h
  | cons a as ih =>
    obtain hb | hb := List.mem_append.1 h
    · exact ⟨[], a, as, rfl, hb⟩
    · obtain ⟨pre, a', post, rfl, hout⟩ := ih hb
      exact ⟨a :: pre, a', post, rfl, hout⟩

/-- What no action touches stays as it is. -/
theorem run_untouched {ν : Type*} {f : σ → ν} {as : List α}
    (h : ∀ a ∈ as, ∀ s, f (step s a) = f s) (s : σ) : f (run step s as) = f s := by
  induction as generalizing s with
  | nil => rfl
  | cons a as ih =>
    have hrest := ih (fun b hb => h b (List.mem_cons_of_mem a hb)) (step s a)
    exact hrest.trans (h a List.mem_cons_self s)

/-- What only one action touches is what that action makes of it. -/
theorem run_touched_once {ν : Type*} {f : σ → ν} {as : List α} (hnodup : as.Nodup) {a : α}
    (ha : a ∈ as) (h : ∀ b ∈ as, b ≠ a → ∀ s, f (step s b) = f s) (s : σ) :
    ∃ s', f s' = f s ∧ f (run step s as) = f (step s' a) := by
  obtain ⟨pre, post, rfl⟩ := List.append_of_mem ha
  obtain ⟨-, hpost, hdisjoint⟩ := List.nodup_append.1 hnodup
  have hpre : ∀ b ∈ pre, ∀ s, f (step s b) = f s := fun b hb =>
    h b (List.mem_append_left _ hb) (hdisjoint b hb a List.mem_cons_self)
  have hrest : ∀ b ∈ post, ∀ s, f (step s b) = f s := fun b hb =>
    h b (List.mem_append_right _ (List.mem_cons_of_mem a hb)) fun heq =>
      (List.nodup_cons.1 hpost).1 (heq ▸ hb)
  refine ⟨run step s pre, run_untouched hpre s, ?_⟩
  rw [run_append]
  exact run_untouched hrest _

theorem alongSteps_and {C D : σ → α → Prop} {s : σ} {as : List α} :
    AlongSteps step (fun s a => C s a ∧ D s a) s as ↔
      AlongSteps step C s as ∧ AlongSteps step D s as := by
  induction as generalizing s with
  | nil => exact ⟨fun _ => ⟨trivial, trivial⟩, fun _ => trivial⟩
  | cons a as ih =>
    show (C s a ∧ D s a) ∧ AlongSteps step _ (step s a) as ↔ _
    rw [ih]
    exact and_and_and_comm

theorem alongSteps_forall {κ : Type*} {C : κ → σ → α → Prop} {s : σ} {as : List α} :
    AlongSteps step (fun s a => ∀ k, C k s a) s as ↔ ∀ k, AlongSteps step (C k) s as := by
  induction as generalizing s with
  | nil => exact ⟨fun _ _ => trivial, fun _ => trivial⟩
  | cons a as ih =>
    show (∀ k, C k s a) ∧ AlongSteps step _ (step s a) as ↔ _
    rw [ih]
    exact forall_and.symm

/-- What every step but a `Q` keeps is held until a `Q`. -/
theorem heldUntil_iff {P : σ → Prop} {Q : α → Prop} {s : σ} {as : List α} :
    HeldUntil step P Q s as ↔ AlongSteps step (fun s a => P s → ¬Q a → P (step s a)) s as := by
  constructor
  · intro h
    induction as generalizing s with
    | nil => trivial
    | cons a as ih =>
      refine ⟨fun hs ha => h [] [a] as rfl hs ?_, ih fun pre mid post hsplit => ?_⟩
      · intro b hb
        rwa [List.mem_singleton.1 hb]
      · exact h (a :: pre) mid post (by rw [hsplit]; rfl)
  · rintro h pre mid post rfl hs hmid
    rw [run_append]
    replace h := (alongSteps_append.1 (alongSteps_append.1 h).1).2
    -- the steps of `mid` keep `P` one by one
    exact ((h.and_mem hmid).invariant (fun s a hc => fun hs => hc.1 hs hc.2) hs).last

end Runs

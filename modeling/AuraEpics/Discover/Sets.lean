import AuraEpics.Discover.Poller
import AuraEpics.Lib.Runs

/-!
# The three sets of the reconciler

The calls of `Reconciler` (`crates/aura-discover/src/reconciler.rs`, lines 76-175) move PVs
between `resolved`, `pending` and `not_found`. `mark_resolved` takes a PV out of the two other
sets and `mark_disconnected` out of the one it was in; `mark_not_found` takes it out of
`pending` only, and an added or a modified PV is put into `pending` wherever else it is.

* `Call`, `step`: the calls, with any arguments;
* `Separate`: no PV is in two of the sets;
* `Moves`: the calls that keep the sets separate.

Result: `separate_iff`, for which runs of calls the sets stay separate. A removal, in any
state, leaves the PV in none of them.
-/

namespace AuraEpics.Discover

open Runs

namespace Reconciler

/-- `new` (lines 64-72). -/
def new : Reconciler := ⟨[], [], []⟩

/-- One pass of the loop of `mark_not_found` (lines 150-160). -/
def markNotFoundName (acc : Reconciler × List Action) (name : String) :
    Reconciler × List Action :=
  let (r, actions) := acc
  let r := { r with pending := r.pending.filter (· ≠ name) }
  if name ∈ r.notFound then (r, actions)
  else ({ r with notFound := name :: r.notFound }, actions ++ [.alert])

/-- `mark_not_found` (lines 148-162). -/
def markNotFound (r : Reconciler) (names : List String) : Reconciler × List Action :=
  names.foldl markNotFoundName (r, [])

/-- `mark_disconnected` (lines 165-176). -/
def markDisconnected (r : Reconciler) (name : String) : Reconciler × Option Action :=
  if name ∈ r.resolved then
    ({ r with resolved := r.resolved.filter (· ≠ name), pending := r.pending.insert name },
      some .alert)
  else (r, none)

/-- The calls that move PVs. -/
inductive Call where
  | reconcile (changes : List PvChange)
  | markResolved (names : List String)
  | markNotFound (names : List String)
  | markDisconnected (name : String)
  deriving DecidableEq, Repr

/-- The sets after a call. -/
def step (r : Reconciler) : Call → Reconciler
  | .reconcile changes => (r.reconcile changes).1
  | .markResolved names => (r.markResolved names).1
  | .markNotFound names => (r.markNotFound names).1
  | .markDisconnected name => (r.markDisconnected name).1

/-- The PV is in at most one of the three sets. -/
def SeparateAt (r : Reconciler) (name : String) : Prop :=
  (name ∈ r.resolved → name ∉ r.pending ∧ name ∉ r.notFound) ∧
    (name ∈ r.pending → name ∉ r.notFound)

instance (r : Reconciler) (name : String) : Decidable (r.SeparateAt name) :=
  inferInstanceAs (Decidable (_ ∧ _))

/-- No PV is in two of the three sets. -/
def Separate (r : Reconciler) : Prop := ∀ name, r.SeparateAt name

/-- The PV is in none of the three sets. -/
def Untracked (r : Reconciler) (name : String) : Prop :=
  name ∉ r.resolved ∧ name ∉ r.pending ∧ name ∉ r.notFound

/-- A change that no later one of its call overrides by a removal leaves its PV in at most one
    set: only an untracked or a pending PV is added, and no PV in `not_found` is modified. -/
def MovesChange (r : Reconciler) : PvChange → Prop
  | .added cfg => cfg.pvName ∉ r.resolved ∧ cfg.pvName ∉ r.notFound
  | .removed _ => True
  | .modified cfg => cfg.pvName ∉ r.notFound

/-- The calls after which the sets are still separate. -/
def Moves (r : Reconciler) : Call → Prop
  | .reconcile changes =>
    ∀ change ∈ changes, .removed change.keeps.1 ∉ changes → r.MovesChange change
  | .markResolved _ => True
  | .markNotFound names => ∀ name ∈ names, name ∉ r.resolved
  | .markDisconnected _ => True

/-- A PV that a call removes, and names in no later change, is in none of the sets after it. -/
def Removes (r : Reconciler) (call : Call) : Prop :=
  ∀ pre name post, call = .reconcile (pre ++ .removed name :: post) →
    (∀ change ∈ post, change.keeps.1 ≠ name) → (r.step call).Untracked name

/-! ## `reconcile` -/

/-- A change takes nothing out of `resolved` and `notFound` but the PV it removes. -/
theorem mem_reconcileChange (acc : Reconciler × Plan) (change : PvChange) (name : String) :
    (name ∈ (reconcileChange acc change).1.resolved ↔
        name ∈ acc.1.resolved ∧ .removed name ≠ change) ∧
      (name ∈ (reconcileChange acc change).1.notFound ↔
        name ∈ acc.1.notFound ∧ .removed name ≠ change) := by
  obtain ⟨r, plan⟩ := acc
  cases change with
  | added cfg => simp [reconcileChange]
  | removed other =>
    show (name ∈ r.resolved.filter (· ≠ other) ↔ _) ∧ (name ∈ r.notFound.filter (· ≠ other) ↔ _)
    simp
  | modified cfg =>
    unfold reconcileChange
    by_cases hres : cfg.pvName ∈ r.resolved
    · simp [hres]
    · simp [hres]

theorem mem_foldl_reconcileChange (acc : Reconciler × Plan) (changes : List PvChange)
    (name : String) :
    (name ∈ (changes.foldl reconcileChange acc).1.resolved ↔
        name ∈ acc.1.resolved ∧ .removed name ∉ changes) ∧
      (name ∈ (changes.foldl reconcileChange acc).1.notFound ↔
        name ∈ acc.1.notFound ∧ .removed name ∉ changes) := by
  induction changes generalizing acc with
  | nil => simp
  | cons change changes ih =>
    obtain ⟨hres, hnot⟩ := ih (reconcileChange acc change)
    obtain ⟨hres', hnot'⟩ := mem_reconcileChange acc change name
    rw [List.foldl_cons, hres, hres', hnot, hnot', List.mem_cons, not_or, and_assoc, and_assoc]
    exact ⟨Iff.rfl, Iff.rfl⟩

/-- A PV that no change removes is pending after the changes if it was so before, if it is added,
    or if it is modified before it is resolved. -/
theorem mem_pending_foldl_reconcileChange {acc : Reconciler × Plan} {changes : List PvChange}
    {name : String} (hrem : .removed name ∉ changes) :
    name ∈ (changes.foldl reconcileChange acc).1.pending ↔
      name ∈ acc.1.pending ∨ (∃ cfg, .added cfg ∈ changes ∧ cfg.pvName = name) ∨
        (name ∉ acc.1.resolved ∧ ∃ cfg, .modified cfg ∈ changes ∧ cfg.pvName = name) := by
  induction changes generalizing acc with
  | nil => simp
  | cons change changes ih =>
    rw [List.mem_cons, not_or] at hrem
    rw [List.foldl_cons, ih hrem.2]
    obtain ⟨r, plan⟩ := acc
    cases change with
    | added cfg =>
      show name ∈ r.pending.insert cfg.pvName ∨ _ ∨ (name ∉ r.resolved ∧ _) ↔
        name ∈ r.pending ∨ _ ∨ (name ∉ r.resolved ∧ _)
      simp only [List.mem_insert_iff, List.mem_cons, reduceCtorEq, false_or, PvChange.added.injEq,
        or_and_right, exists_or, exists_eq_left, eq_comm (a := name)]
      grind
    | removed other =>
      have hne : name ≠ other := fun heq => hrem.1 (heq ▸ rfl)
      show name ∈ r.pending.filter (· ≠ other) ∨ _ ∨ (name ∉ r.resolved.filter (· ≠ other) ∧ _) ↔
        name ∈ r.pending ∨ _ ∨ (name ∉ r.resolved ∧ _)
      simp [hne]
    | modified cfg =>
      unfold reconcileChange
      by_cases hres : cfg.pvName ∈ r.resolved
      · -- only the filter is updated
        have hname : cfg.pvName = name → ¬name ∉ r.resolved := fun heq hnot => hnot (heq ▸ hres)
        simp only [hres, if_true, List.mem_cons, reduceCtorEq, false_or, PvChange.modified.injEq,
          or_and_right, exists_or, exists_eq_left]
        grind
      · simp only [hres, if_false, List.mem_insert_iff, List.mem_cons, reduceCtorEq, false_or,
          PvChange.modified.injEq, or_and_right, exists_or, exists_eq_left, eq_comm (a := name)]
        have hname : cfg.pvName = name → name ∉ r.resolved := fun heq => heq ▸ hres
        grind

theorem reconcile_fst (r : Reconciler) (changes : List PvChange) :
    (r.reconcile changes).1 = (changes.foldl reconcileChange (r, ⟨[], [], []⟩)).1 := rfl

theorem separateAt_reconcile_iff {r : Reconciler} {name : String} (h : r.SeparateAt name)
    (changes : List PvChange) :
    (r.reconcile changes).1.SeparateAt name ↔
      ∀ change ∈ changes, change.keeps.1 = name → .removed name ∉ changes →
        r.MovesChange change := by
  obtain ⟨hresolved, hnotFound⟩ := mem_foldl_reconcileChange (r, ⟨[], [], []⟩) changes name
  unfold SeparateAt
  rw [reconcile_fst, hresolved, hnotFound]
  by_cases hrem : .removed name ∈ changes
  · simp [hrem]
  · rw [mem_pending_foldl_reconcileChange hrem]
    constructor
    · rintro ⟨hres, hpend⟩ change hchange heq -
      cases change with
      | added cfg =>
        have hadded : ∃ cfg, .added cfg ∈ changes ∧ cfg.pvName = name := ⟨cfg, hchange, heq⟩
        obtain rfl : cfg.pvName = name := heq
        refine ⟨fun hin => ?_, fun hin => ?_⟩
        · exact (hres ⟨hin, hrem⟩).1 (.inr (.inl hadded))
        · exact hpend (.inr (.inl hadded)) ⟨hin, hrem⟩
      | removed other => trivial
      | modified cfg =>
        have hmodified : ∃ cfg, .modified cfg ∈ changes ∧ cfg.pvName = name := ⟨cfg, hchange, heq⟩
        obtain rfl : cfg.pvName = name := heq
        intro hin
        have hunres : cfg.pvName ∉ r.resolved := fun hr => (h.1 hr).2 hin
        exact hpend (.inr (.inr ⟨hunres, hmodified⟩)) ⟨hin, hrem⟩
    · intro hmoves
      have hadded : (∃ cfg, .added cfg ∈ changes ∧ cfg.pvName = name) →
          name ∉ r.resolved ∧ name ∉ r.notFound := by
        rintro ⟨cfg, hcfg, rfl⟩
        exact hmoves _ hcfg rfl hrem
      have hmodified : (∃ cfg, .modified cfg ∈ changes ∧ cfg.pvName = name) →
          name ∉ r.notFound := by
        rintro ⟨cfg, hcfg, rfl⟩
        exact hmoves _ hcfg rfl hrem
      unfold SeparateAt at h
      grind

theorem separate_reconcile_iff {r : Reconciler} (h : r.Separate) (changes : List PvChange) :
    (r.reconcile changes).1.Separate ↔ r.Moves (.reconcile changes) := by
  constructor
  · intro hsep change hchange hrem
    exact (separateAt_reconcile_iff (h _) changes).1 (hsep change.keeps.1) change hchange rfl hrem
  · intro hmoves name
    rw [separateAt_reconcile_iff (h name)]
    rintro change hchange rfl hrem
    exact hmoves change hchange hrem

theorem removes (r : Reconciler) (call : Call) : r.Removes call := by
  rintro pre name post rfl hpost
  have hrem : PvChange.removed name ∈ pre ++ .removed name :: post := by simp
  have hlater : PvChange.removed name ∉ post := fun hmem => hpost _ hmem rfl
  refine ⟨?_, ?_, ?_⟩
  · show name ∉ (r.reconcile _).1.resolved
    rw [reconcile_fst, (mem_foldl_reconcileChange _ _ name).1]
    exact fun hin => hin.2 hrem
  · show name ∉ (r.reconcile _).1.pending
    rw [reconcile_fst, List.foldl_append, List.foldl_cons, mem_pending_foldl_reconcileChange hlater]
    rintro (hpend | ⟨cfg, hcfg, heq⟩ | ⟨-, cfg, hcfg, heq⟩)
    · exact absurd rfl (of_decide_eq_true (List.mem_filter.1 hpend).2)
    · exact hpost _ hcfg heq
    · exact hpost _ hcfg heq
  · show name ∉ (r.reconcile _).1.notFound
    rw [reconcile_fst, (mem_foldl_reconcileChange _ _ name).2]
    exact fun hin => hin.2 hrem

/-! ## The other calls -/

theorem separate_markResolved {r : Reconciler} (h : r.Separate) (names : List String) :
    (r.markResolved names).1.Separate := by
  intro name
  obtain ⟨hres, hpend, hnot, -⟩ := foldl_markResolvedName r [] names name
  unfold SeparateAt markResolved
  rw [hres, hpend, hnot]
  have hsep := h name
  unfold SeparateAt at hsep
  grind

theorem foldl_markNotFoundName (acc : Reconciler × List Action) (names : List String)
    (name : String) :
    let out := (names.foldl markNotFoundName acc).1
    out.resolved = acc.1.resolved ∧
      (name ∈ out.pending ↔ name ∈ acc.1.pending ∧ name ∉ names) ∧
      (name ∈ out.notFound ↔ name ∈ acc.1.notFound ∨ name ∈ names) := by
  induction names generalizing acc with
  | nil => simp
  | cons other names ih =>
    obtain ⟨r, actions⟩ := acc
    obtain ⟨hres, hpend, hnot⟩ := ih (markNotFoundName (r, actions) other)
    intro out
    show _ = r.resolved ∧ (_ ↔ name ∈ r.pending ∧ _) ∧ (_ ↔ name ∈ r.notFound ∨ _)
    rw [show out = (names.foldl markNotFoundName (markNotFoundName (r, actions) other)).1 from rfl,
      hres, hpend, hnot]
    unfold markNotFoundName
    by_cases hin : other ∈ r.notFound
    · have hname : name = other → name ∈ r.notFound := fun heq => heq ▸ hin
      simp only [hin, if_true, List.mem_filter, decide_eq_true_eq, List.mem_cons, true_and]
      grind
    · simp only [hin, if_false, List.mem_filter, decide_eq_true_eq, List.mem_cons, true_and]
      grind

theorem separate_markNotFound_iff {r : Reconciler} (h : r.Separate) (names : List String) :
    (r.markNotFound names).1.Separate ↔ ∀ name ∈ names, name ∉ r.resolved := by
  have hat : ∀ name, (r.markNotFound names).1.SeparateAt name ↔
      (name ∈ names → name ∉ r.resolved) := by
    intro name
    obtain ⟨hres, hpend, hnot⟩ := foldl_markNotFoundName (r, []) names name
    unfold SeparateAt markNotFound
    rw [hres, hpend, hnot]
    have hsep := h name
    unfold SeparateAt at hsep
    grind
  exact forall_congr' hat

theorem separate_markDisconnected {r : Reconciler} (h : r.Separate) (other : String) :
    (r.markDisconnected other).1.Separate := by
  intro name
  have hsep := h name
  unfold SeparateAt at hsep
  unfold SeparateAt markDisconnected
  by_cases hin : other ∈ r.resolved
  · have hname : name = other → name ∈ r.resolved := fun heq => heq ▸ hin
    simp only [hin, if_true, List.mem_filter, decide_eq_true_eq, List.mem_insert_iff]
    grind
  · simpa only [hin, if_false] using hsep

/-! ## Runs -/

theorem separate_step_iff {r : Reconciler} (h : r.Separate) (call : Call) :
    (r.step call).Separate ↔ r.Moves call := by
  cases call with
  | reconcile changes => exact separate_reconcile_iff h changes
  | markResolved names => exact iff_of_true (separate_markResolved h names) trivial
  | markNotFound names => exact separate_markNotFound_iff h names
  | markDisconnected name => exact iff_of_true (separate_markDisconnected h name) trivial

/-- **Main theorem.** In every state along a run of calls no PV is in two sets, and every
    removal leaves its PV in none, exactly when no call adds a resolved PV or one not found,
    modifies one not found, or marks a resolved PV as not found. -/
theorem separate_iff (calls : List Call) :
    AlongStates step Separate new calls ∧ AlongSteps step Removes new calls ↔
      AlongSteps step Moves new calls := by
  have hnew : new.Separate := by
    intro name
    simp [SeparateAt, new]
  have hstep : ∀ r call, Separate r → ((step r call).Separate ↔ Moves r call) :=
    fun r call h => separate_step_iff h call
  have hruns := alongStates_iff_alongSteps hstep hnew calls
  constructor
  · rintro ⟨hsep, -⟩
    exact hruns.1 hsep
  · intro hmoves
    have hsep := hruns.2 hmoves
    exact ⟨hsep, hsep.steps fun r call _ => removes r call⟩

/-- A resolved PV that is marked as not found is in both sets, although `mark_resolved` takes a
    PV out of `not_found`. -/
theorem resolved_and_notFound :
    ¬AlongStates step Separate new
      [.reconcile [.added ⟨"A", 0, none, true⟩], .markResolved ["A"], .markNotFound ["A"]] := by
  intro h
  have hlast := h.last "A"
  revert hlast
  decide

end Reconciler

end AuraEpics.Discover

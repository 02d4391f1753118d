import Mathlib

/-!
# Admission to a bounded buffer

A gate in front of a buffer with a byte limit. An item is refused when the buffer
holds something and the item would take the byte count over the limit; the first
item of an empty buffer always passes.

Result: `Gate.admitsAll_iff_fits`, a sequence of items all pass exactly when their
total does, up to the privilege of the first.
-/

namespace Admission

/-- The state of a gate. -/
structure Gate where
  limit : ℕ
  occupied : Bool
  bytes : ℕ

namespace Gate

/-- An item of size `n` passes. -/
def Admits (g : Gate) (n : ℕ) : Prop := ¬(g.occupied = true ∧ g.limit < g.bytes + n)

/-- The gate after an item of size `n` has passed. -/
def take (g : Gate) (n : ℕ) : Gate := { g with occupied := true, bytes := g.bytes + n }

/-- The gate after items of the sizes `ns`. -/
def takeAll (g : Gate) (ns : List ℕ) : Gate := ns.foldl take g

/-- Items of the sizes `ns` pass one after another. -/
def AdmitsAll : Gate → List ℕ → Prop
  | _, [] => True
  | g, n :: ns => g.Admits n ∧ (g.take n).AdmitsAll ns

/-- The sizes `ns` fit: there is nothing to take, or one item for an empty buffer, or
    the total stays within the limit. -/
def Fits (g : Gate) (ns : List ℕ) : Prop :=
  ns = [] ∨ (g.occupied = false ∧ ns.length = 1) ∨ g.bytes + ns.sum ≤ g.limit

theorem takeAll_cons (g : Gate) (n : ℕ) (ns : List ℕ) : g.takeAll (n :: ns) = (g.take n).takeAll ns :=
  rfl

theorem takeAll_append (g : Gate) (ms ns : List ℕ) :
    g.takeAll (ms ++ ns) = (g.takeAll ms).takeAll ns := List.foldl_append

theorem takeAll_of_ne_nil (g : Gate) {ns : List ℕ} (hns : ns ≠ []) :
    g.takeAll ns = ⟨g.limit, true, g.bytes + ns.sum⟩ := by
  induction ns generalizing g with
  | nil => exact absurd rfl hns
  | cons n ns ih =>
    rw [takeAll_cons]
    cases ns with
    | nil => simp [takeAll, take]
    | cons m ms =>
      rw [ih (g.take n) (List.cons_ne_nil m ms)]
      simp [take, Nat.add_assoc]

theorem admitsAll_append (g : Gate) (ms ns : List ℕ) :
    g.AdmitsAll (ms ++ ns) ↔ g.AdmitsAll ms ∧ (g.takeAll ms).AdmitsAll ns := by
  induction ms generalizing g with
  | nil => simp [AdmitsAll, takeAll]
  | cons m ms ih => rw [List.cons_append, AdmitsAll, AdmitsAll, ih, takeAll_cons, and_assoc]

theorem admitsAll_occupied_iff (g : Gate) (ns : List ℕ) (hg : g.occupied = true) :
    g.AdmitsAll ns ↔ ns = [] ∨ g.bytes + ns.sum ≤ g.limit := by
  induction ns generalizing g with
  | nil => simp [AdmitsAll]
  | cons n ns ih =>
    have htail := ih (g.take n) rfl
    simp only [take] at htail
    simp only [AdmitsAll, Admits, hg, true_and, take, htail, List.sum_cons, reduceCtorEq,
      false_or]
    constructor
    · rintro ⟨hn, rfl | hns⟩
      · simpa using hn
      · omega
    · intro h
      exact ⟨by omega, .inr (by omega)⟩

/-- **Main theorem**: whether a sequence of items passes, without running the gate. -/
theorem admitsAll_iff_fits (g : Gate) (ns : List ℕ) : g.AdmitsAll ns ↔ g.Fits ns := by
  unfold Fits
  cases hg : g.occupied with
  | true =>
    rw [admitsAll_occupied_iff g ns hg]
    simp
  | false =>
    cases ns with
    | nil => simp [AdmitsAll]
    | cons n ns =>
      have htail := admitsAll_occupied_iff (g.take n) ns rfl
      simp only [AdmitsAll, Admits, hg, Bool.false_eq_true, false_and, not_false_eq_true, true_and,
        htail, List.length_cons, Nat.add_eq_right, List.length_eq_zero_iff, reduceCtorEq, false_or,
        List.sum_cons]
      simp only [take, Nat.add_assoc]

end Gate

end Admission

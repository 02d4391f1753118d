import Mathlib.Data.List.Basic

/-!
# Successive replacements

Replacing one symbol of a text after another, each by a text of its own. If no replacement
writes a symbol that a later one replaces, this replaces all of them at once.

Result: `substitute_eq_flatMap`.
-/

namespace Substitution

variable {α : Type*} [DecidableEq α]

/-- Every `c` is replaced by `r`. -/
def replace (c : α) (r : List α) (s : List α) : List α :=
  s.flatMap fun x => if x = c then r else [x]

/-- The replacements one after another. -/
def substitute (subs : List (α × List α)) (s : List α) : List α :=
  subs.foldl (fun s p => replace p.1 p.2 s) s

/-- What all replacements together make of a symbol. -/
def image (subs : List (α × List α)) (x : α) : List α := (subs.lookup x).getD [x]

theorem image_cons_self (c : α) (r : List α) (subs : List (α × List α)) :
    image ((c, r) :: subs) c = r := by
  simp [image]

theorem image_cons_of_ne {c x : α} (h : x ≠ c) (r : List α) (subs : List (α × List α)) :
    image ((c, r) :: subs) x = image subs x := by
  have hne : (x == c) = false := beq_eq_false_iff_ne.2 h
  simp [image, List.lookup_cons, hne]

theorem image_of_notMem {subs : List (α × List α)} {x : α} (h : ∀ p ∈ subs, p.1 ≠ x) :
    image subs x = [x] := by
  induction subs with
  | nil => rfl
  | cons p subs ih =>
    obtain ⟨c, r⟩ := p
    rw [image_cons_of_ne (h (c, r) List.mem_cons_self).symm]
    exact ih fun q hq => h q (List.mem_cons_of_mem _ hq)

/-- A text without the symbols that are replaced stays as it is. -/
theorem flatMap_image {subs : List (α × List α)} {s : List α} (h : ∀ p ∈ subs, p.1 ∉ s) :
    s.flatMap (image subs) = s := by
  have himage : ∀ x ∈ s, image subs x = [x] := by
    intro x hx
    apply image_of_notMem
    rintro p hp rfl
    exact h p hp hx
  rw [List.flatMap_congr himage]
  exact List.flatMap_singleton' s

/-- If no replacement writes a symbol that a later one replaces, the replacements happen all at
    once. -/
theorem substitute_eq_flatMap {subs : List (α × List α)}
    (h : subs.Pairwise fun p q => q.1 ∉ p.2) (s : List α) :
    substitute subs s = s.flatMap (image subs) := by
  induction subs generalizing s with
  | nil => exact (flatMap_image (by simp)).symm
  | cons p subs ih =>
    obtain ⟨c, r⟩ := p
    obtain ⟨hp, hsubs⟩ := List.pairwise_cons.1 h
    show substitute subs (replace c r s) = _
    rw [ih hsubs, replace, List.flatMap_assoc]
    refine List.flatMap_congr fun x _ => ?_
    by_cases hx : x = c
    · subst hx
      rw [if_pos rfl, image_cons_self]
      exact flatMap_image hp
    · rw [if_neg hx, image_cons_of_ne hx, List.flatMap_singleton]

end Substitution

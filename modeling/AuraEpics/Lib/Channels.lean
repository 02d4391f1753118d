import AuraEpics.Lib.Latest

/-!
# Messages on several channels

Messages in flight, oldest first, each with its channel. A channel delivers its messages
in order; between channels there is no order.

* `onChannel c l`: the messages of a channel;
* `takeFrom c n l`: the first `n` messages of a channel, and what stays in flight.

`latest_takeFrom` is for messages that give values to keys: a key that the messages that
stay say nothing about has the value the messages taken give it.
-/

namespace Channels

open Latest

variable {C M K V : Type} [DecidableEq C] [DecidableEq K]

/-- The messages of a channel. -/
def onChannel (c : C) (l : List (C × M)) : List M := (l.filter (·.1 = c)).map Prod.snd

/-- The first `n` messages of a channel, and the messages that stay in flight. -/
def takeFrom (c : C) : ℕ → List (C × M) → List M × List (C × M)
  | 0, l => ([], l)
  | _ + 1, [] => ([], [])
  | n + 1, m :: l =>
    if m.1 = c then
      (m.2 :: (takeFrom c n l).1, (takeFrom c n l).2)
    else
      ((takeFrom c (n + 1) l).1, m :: (takeFrom c (n + 1) l).2)

theorem takeFrom_fst (c : C) (n : ℕ) (l : List (C × M)) :
    (takeFrom c n l).1 = (onChannel c l).take n := by
  induction l generalizing n with
  | nil => cases n <;> simp [takeFrom, onChannel]
  | cons m l ih =>
    cases n with
    | zero => simp [takeFrom]
    | succ n =>
      by_cases h : m.1 = c
      · simp only [takeFrom, if_pos h, ih, onChannel]
        simp [h]
      · simp only [takeFrom, if_neg h, ih, onChannel]
        simp [h]

theorem takeFrom_snd_sublist (c : C) (n : ℕ) (l : List (C × M)) :
    (takeFrom c n l).2.Sublist l := by
  induction l generalizing n with
  | nil => cases n <;> simp [takeFrom]
  | cons m l ih =>
    cases n with
    | zero => simp [takeFrom]
    | succ n =>
      by_cases h : m.1 = c
      · simp only [takeFrom, if_pos h]
        exact (ih n).cons m
      · simp only [takeFrom, if_neg h]
        exact (ih (n + 1)).cons_cons m

/-- A key the messages that stay say nothing about. -/
theorem latest_takeFrom (f : M → List (K × V)) (c : C) (n : ℕ) (l : List (C × M)) (k : K)
    (hrest : latest ((takeFrom c n l).2.flatMap fun m => f m.2) k = none) :
    latest (l.flatMap fun m => f m.2) k = latest ((takeFrom c n l).1.flatMap f) k := by
  induction l generalizing n with
  | nil => cases n <;> rfl
  | cons m l ih =>
    cases n with
    | zero => exact hrest
    | succ n =>
      by_cases h : m.1 = c
      · simp only [takeFrom, if_pos h] at hrest ⊢
        rw [List.flatMap_cons, List.flatMap_cons, latest_append, latest_append, ih n hrest]
      · simp only [takeFrom, if_neg h] at hrest ⊢
        rw [List.flatMap_cons, latest_append, Option.or_eq_none_iff] at hrest
        rw [List.flatMap_cons, latest_append, hrest.2, Option.or_none, ih (n + 1) hrest.1]

end Channels

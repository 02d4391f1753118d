import Mathlib.Data.List.Basic

/-!
# Bounded first-in first-out queues

A queue that refuses what is beyond its capacity. The bound is a field, so that no queue
over its capacity exists.

`Fifo accepted taken q` is the law of the queue over a history: what was taken, followed by
what the queue holds, is what it accepted. The three operations keep it.
-/

/-- A queue of at most `cap` items, the oldest first. -/
structure BoundedQueue (α : Type*) (cap : ℕ) where
  items : List α
  bounded : items.length ≤ cap

namespace BoundedQueue

variable {α : Type*} {cap : ℕ}

def empty : BoundedQueue α cap := ⟨[], Nat.zero_le cap⟩

/-- The queue with `x` at its end, or `none` when it is full. -/
def push (q : BoundedQueue α cap) (x : α) : Option (BoundedQueue α cap) :=
  if h : q.items.length < cap then
    some ⟨q.items ++ [x], by rw [List.length_append, List.length_singleton]; omega⟩
  else none

/-- The oldest item and the rest, or `none` when there is no item. -/
def pop (q : BoundedQueue α cap) : Option (α × BoundedQueue α cap) :=
  match h : q.items with
  | [] => none
  | x :: xs => some (x, ⟨xs, by have := q.bounded; rw [h, List.length_cons] at this; omega⟩)

theorem items_of_push {q q' : BoundedQueue α cap} {x : α} (h : q.push x = some q') :
    q'.items = q.items ++ [x] := by
  unfold push at h
  split_ifs at h with hlt
  rw [← Option.some.inj h]

theorem suffix_of_push {q q' : BoundedQueue α cap} {x : α} (h : q.push x = some q') :
    [x] <:+ q'.items := by
  rw [items_of_push h]
  exact List.suffix_append _ _

/-- A push is refused exactly by a full queue. -/
theorem push_cases (q : BoundedQueue α cap) (x : α) :
    (q.items.length < cap ∧ ∃ q', q.push x = some q') ∨ (¬q.items.length < cap ∧ q.push x = none) := by
  unfold push
  split_ifs with hlt
  · exact .inl ⟨hlt, _, rfl⟩
  · exact .inr ⟨hlt, rfl⟩

theorem items_of_pop {q q' : BoundedQueue α cap} {x : α} (h : q.pop = some (x, q')) :
    q.items = x :: q'.items := by
  unfold pop at h
  split at h
  · cases h
  next y ys hitems =>
    cases h
    exact hitems

/-! ## Histories -/

/-- What was taken and what is held make up what was accepted, in its order. -/
def Fifo (accepted taken : List α) (q : BoundedQueue α cap) : Prop := taken ++ q.items = accepted

namespace Fifo

variable {accepted taken : List α} {q q' : BoundedQueue α cap} {x : α}

theorem start : Fifo [] [] (empty : BoundedQueue α cap) := rfl

theorem push (h : Fifo accepted taken q) (hpush : q.push x = some q') :
    Fifo (accepted ++ [x]) taken q' := by
  show taken ++ q'.items = accepted ++ [x]
  rw [items_of_push hpush, ← List.append_assoc, h]

theorem pop (h : Fifo accepted taken q) (hpop : q.pop = some (x, q')) :
    Fifo accepted (taken ++ [x]) q' := by
  show taken ++ [x] ++ q'.items = accepted
  rw [List.append_assoc, List.singleton_append, ← items_of_pop hpop, h]

theorem takeAll (h : Fifo accepted taken q) :
    Fifo accepted (taken ++ q.items) (empty : BoundedQueue α cap) := by
  show taken ++ q.items ++ [] = accepted
  rw [List.append_nil, h]

theorem length_add (h : Fifo accepted taken q) :
    taken.length + q.items.length = accepted.length := by
  rw [← List.length_append, h]

end Fifo

end BoundedQueue

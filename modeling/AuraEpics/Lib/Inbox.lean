import Mathlib.Data.List.Perm.Basic

/-!
# Loops that wait for answers

A loop that reads what arrives until it has counted `n` answers, or until it has waited long
enough. What arrives is a list in which `none` ends the wait of the loop that reads it.

* `awaitAnswers`: the loop;
* `received` and `unread`: what it reads, and what it leaves to the next loop.

Result: `awaitAnswers_eq`, the loop handles what it receives in order.
-/

namespace Inbox

variable {σ φ : Type*}

/-- What a loop that waits for `n` answers reads. -/
def received (counts : φ → Bool) : ℕ → List (Option φ) → List φ
  | 0, _ => []
  | _ + 1, [] => []
  | _ + 1, none :: _ => []
  | n + 1, some f :: wire => f :: received counts (if counts f then n else n + 1) wire

/-- What it leaves. -/
def unread (counts : φ → Bool) : ℕ → List (Option φ) → List (Option φ)
  | 0, wire => wire
  | _ + 1, [] => []
  | _ + 1, none :: wire => wire
  | n + 1, some f :: wire => unread counts (if counts f then n else n + 1) wire

/-- The loop. -/
def awaitAnswers (counts : φ → Bool) (handle : σ → φ → σ) :
    ℕ → σ → List (Option φ) → σ × List (Option φ)
  | 0, s, wire => (s, wire)
  | _ + 1, s, [] => (s, [])
  | _ + 1, s, none :: wire => (s, wire)
  | n + 1, s, some f :: wire =>
    awaitAnswers counts handle (if counts f then n else n + 1) (handle s f) wire

theorem awaitAnswers_eq (counts : φ → Bool) (handle : σ → φ → σ) (n : ℕ) (s : σ)
    (wire : List (Option φ)) :
    awaitAnswers counts handle n s wire =
      ((received counts n wire).foldl handle s, unread counts n wire) := by
  induction wire generalizing n s with
  | nil =>
    cases n with
    | zero => rfl
    | succ n => rfl
  | cons f wire ih =>
    cases n with
    | zero => rfl
    | succ n =>
      cases f with
      | none => rfl
      | some f => exact ih _ _

/-- A loop reads no more answers than it waits for. -/
theorem countP_received_le (counts : φ → Bool) (n : ℕ) (wire : List (Option φ)) :
    (received counts n wire).countP counts ≤ n := by
  induction wire generalizing n with
  | nil =>
    cases n with
    | zero => exact Nat.le_refl 0
    | succ n => exact Nat.zero_le _
  | cons f wire ih =>
    cases n with
    | zero => exact Nat.le_refl 0
    | succ n =>
      cases f with
      | none => exact Nat.zero_le _
      | some f =>
        show (f :: received counts (if counts f then n else n + 1) wire).countP counts ≤ n + 1
        rw [List.countP_cons]
        have hrest := ih (if counts f then n else n + 1)
        by_cases hf : counts f = true
        · simp only [hf, if_true] at hrest ⊢
          omega
        · simp only [hf, Bool.false_eq_true, if_false] at hrest ⊢
          omega

/-- A loop reads only what arrives. -/
theorem mem_of_mem_received {counts : φ → Bool} {n : ℕ} {wire : List (Option φ)} {f : φ}
    (h : f ∈ received counts n wire) : some f ∈ wire := by
  induction wire generalizing n with
  | nil => cases n <;> cases h
  | cons g wire ih =>
    cases n with
    | zero => cases h
    | succ n =>
      cases g with
      | none => cases h
      | some g =>
        obtain rfl | h := List.mem_cons.1 h
        · exact List.mem_cons_self
        · exact List.mem_cons_of_mem _ (ih h)

/-- A loop that waits for no answer reads nothing. -/
theorem received_zero (counts : φ → Bool) (wire : List (Option φ)) :
    received counts 0 wire = [] := by
  cases wire <;> rfl

end Inbox

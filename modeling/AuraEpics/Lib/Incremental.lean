import Mathlib

/-!
# Incremental decoders

A decoder that consumes a growing input buffer and keeps a state between calls.
One `step` either asks for more input, moves on silently, emits an item or fails.
`run` steps until it has one of the three answers a caller sees, `drain` runs until
no item is left, and `feed` drains after each chunk of a stream.

If a step that does not ask for more input is not changed by input behind it,
then neither is anything above it: `feed_eq_drain`, the items and the first error
do not depend on how a stream is cut into chunks.
-/

namespace Incremental

variable {σ β α ε : Type}

/-- What one step does with state and buffer. -/
inductive Step (σ β α ε : Type) where
  | more
  | next (s : σ) (rest : List β)
  | emit (a : α) (s : σ) (rest : List β)
  | fail (e : ε) (s : σ) (rest : List β)

/-- The same step with input `ys` behind what is left. -/
def Step.push (ys : List β) : Step σ β α ε → Step σ β α ε
  | more => more
  | next s rest => next s (rest ++ ys)
  | emit a s rest => emit a s (rest ++ ys)
  | fail e s rest => fail e s (rest ++ ys)

/-- The buffer a step leaves, unless it waits. -/
def Step.left? : Step σ β α ε → Option (List β)
  | more => none
  | next _ rest => some rest
  | emit _ _ rest => some rest
  | fail _ _ rest => some rest

/-- What a caller sees of a run. -/
inductive Outcome (σ β α ε : Type) where
  | more (s : σ) (rest : List β)
  | emit (a : α) (s : σ) (rest : List β)
  | fail (e : ε) (s : σ) (rest : List β)

/-- The same outcome with input `ys` behind what is left. -/
def Outcome.push (ys : List β) : Outcome σ β α ε → Outcome σ β α ε
  | more s rest => more s (rest ++ ys)
  | emit a s rest => emit a s (rest ++ ys)
  | fail e s rest => fail e s (rest ++ ys)

/-- The state and the buffer a run leaves. -/
def Outcome.left : Outcome σ β α ε → σ × List β
  | more s rest => (s, rest)
  | emit _ s rest => (s, rest)
  | fail _ s rest => (s, rest)

/-- The step function of a decoder. A step that moves on or emits makes progress,
    and input behind the buffer changes no step that does not wait for it. -/
structure Machine (σ β α ε : Type) where
  step : σ → List β → Step σ β α ε
  rank : σ → ℕ
  next_decreases : ∀ {s xs s' rest}, step s xs = .next s' rest →
    rest.length < xs.length ∨ (rest.length = xs.length ∧ rank s' < rank s)
  emit_shorter : ∀ {s xs a s' rest}, step s xs = .emit a s' rest → rest.length < xs.length
  step_append : ∀ s xs ys, step s xs ≠ .more → step s (xs ++ ys) = (step s xs).push ys

namespace Machine

variable (M : Machine σ β α ε)

/-! ## Runs -/

/-- Step until there is an answer. -/
def run (s : σ) (xs : List β) : Outcome σ β α ε :=
  match _h : M.step s xs with
  | .more => .more s xs
  | .next s' rest => run s' rest
  | .emit a s' rest => .emit a s' rest
  | .fail e s' rest => .fail e s' rest
termination_by (xs.length, M.rank s)
decreasing_by
  rcases M.next_decreases _h with hlt | ⟨heq, hlt⟩
  · exact Prod.Lex.left _ _ hlt
  · rw [heq]; exact Prod.Lex.right _ hlt

section Equations

variable {M} {s s' : σ} {xs rest : List β}

theorem run_more (h : M.step s xs = .more) : M.run s xs = .more s xs := by
  rw [run]; split <;> simp_all

theorem run_next (h : M.step s xs = .next s' rest) : M.run s xs = M.run s' rest := by
  rw [run]; split <;> simp_all

theorem run_emit {a : α} (h : M.step s xs = .emit a s' rest) : M.run s xs = .emit a s' rest := by
  rw [run]; split <;> simp_all

theorem run_fail {e : ε} (h : M.step s xs = .fail e s' rest) : M.run s xs = .fail e s' rest := by
  rw [run]; split <;> simp_all

/-- Induction along a run: a property of each answer that passes back over silent
    steps holds of every state and buffer. -/
theorem run_induction {motive : σ → List β → Prop}
    (answer : ∀ s xs, (∀ s' rest, M.step s xs ≠ .next s' rest) → motive s xs)
    (next : ∀ s xs s' rest, M.step s xs = .next s' rest → motive s' rest → motive s xs)
    (s : σ) (xs : List β) : motive s xs := by
  induction s, xs using run.induct M with
  | case1 s xs h => exact answer s xs (by simp [h])
  | case2 s xs s' rest h ih => exact next s xs s' rest h ih
  | case3 s xs a s' rest h => exact answer s xs (by simp [h])
  | case4 s xs e s' rest h => exact answer s xs (by simp [h])

end Equations

/-- Input behind the buffer is left alone by a run that answers, and resumes one
    that waits. -/
theorem run_append (s : σ) (xs ys : List β) :
    M.run s (xs ++ ys) =
      match M.run s xs with
      | .more s' rest => M.run s' (rest ++ ys)
      | out => out.push ys := by
  induction s, xs using M.run_induction with
  | answer s xs h =>
    cases hs : M.step s xs with
    | more => rw [run_more hs]
    | next s' rest => exact absurd hs (h s' rest)
    | emit a s' rest =>
      have happ := M.step_append s xs ys (by simp [hs])
      rw [hs] at happ
      rw [run_emit hs, run_emit happ]
      rfl
    | fail e s' rest =>
      have happ := M.step_append s xs ys (by simp [hs])
      rw [hs] at happ
      rw [run_fail hs, run_fail happ]
      rfl
  | next s xs s' rest h ih =>
    have happ := M.step_append s xs ys (by simp [h])
    rw [h] at happ
    rw [run_next h, run_next happ, ih]

theorem run_emit_shorter {s s' : σ} {xs rest : List β} {a : α}
    (h : M.run s xs = .emit a s' rest) : rest.length < xs.length := by
  induction s, xs using M.run_induction with
  | answer s xs hn =>
    cases hs : M.step s xs with
    | more => simp [run_more hs] at h
    | next s' rest => exact absurd hs (hn s' rest)
    | emit a s' rest =>
      rw [run_emit hs] at h
      cases h
      exact M.emit_shorter hs
    | fail e s' rest => simp [run_fail hs] at h
  | next s xs s₁ rest₁ hn ih =>
    rw [run_next hn] at h
    have := ih h
    rcases M.next_decreases hn with hlt | ⟨heq, _⟩ <;> omega

/-- A run that waits stops where running again waits at once. -/
theorem run_more_again {s s' : σ} {xs rest : List β} (h : M.run s xs = .more s' rest) :
    M.run s' rest = .more s' rest := by
  have := M.run_append s xs []
  rw [h, List.append_nil, h] at this
  simpa using this.symm

/-! ## Draining and feeding -/

/-- The items of a drained buffer, the error that stopped it, and what is kept. -/
structure Drained (σ β α ε : Type) where
  items : List α
  error : Option ε
  state : σ
  rest : List β

/-- Run until no complete item is left or a run fails. -/
def drain (s : σ) (xs : List β) : Drained σ β α ε :=
  match _h : M.run s xs with
  | .more s' rest => ⟨[], none, s', rest⟩
  | .fail e s' rest => ⟨[], some e, s', rest⟩
  | .emit a s' rest =>
    let d := drain s' rest
    { d with items := a :: d.items }
termination_by xs.length
decreasing_by exact M.run_emit_shorter _h

section Equations

variable {M} {s s' : σ} {xs rest : List β}

theorem drain_more (h : M.run s xs = .more s' rest) : M.drain s xs = ⟨[], none, s', rest⟩ := by
  rw [drain]; split <;> simp_all

theorem drain_fail {e : ε} (h : M.run s xs = .fail e s' rest) :
    M.drain s xs = ⟨[], some e, s', rest⟩ := by
  rw [drain]; split <;> simp_all

theorem drain_emit {a : α} (h : M.run s xs = .emit a s' rest) :
    M.drain s xs = { M.drain s' rest with items := a :: (M.drain s' rest).items } := by
  rw [drain]; split <;> simp_all

end Equations

/-- Draining `xs` and then what is left together with `ys` is draining both. -/
theorem drain_append (s : σ) (xs ys : List β) :
    (M.drain s (xs ++ ys)).items =
        (M.drain s xs).items ++
          (if (M.drain s xs).error.isSome then []
           else (M.drain (M.drain s xs).state ((M.drain s xs).rest ++ ys)).items) ∧
      (M.drain s (xs ++ ys)).error =
        (M.drain s xs).error.or
          (M.drain (M.drain s xs).state ((M.drain s xs).rest ++ ys)).error := by
  induction hn : xs.length using Nat.strongRecOn generalizing s xs with
  | ind n ih =>
    have happ := M.run_append s xs ys
    cases hr : M.run s xs with
    | more s' rest =>
      rw [hr] at happ
      rw [drain_more hr]
      -- the waiting run resumes with `ys` behind it
      cases hr' : M.run s' (rest ++ ys) with
      | more s₂ rest₂ => rw [drain_more (happ.trans hr'), drain_more hr']; simp
      | emit a s₂ rest₂ => rw [drain_emit (happ.trans hr'), drain_emit hr']; simp
      | fail e s₂ rest₂ => rw [drain_fail (happ.trans hr'), drain_fail hr']; simp
    | fail e s' rest =>
      rw [hr] at happ
      rw [drain_fail happ, drain_fail hr]
      simp
    | emit a s' rest =>
      rw [hr] at happ
      have hlt := M.run_emit_shorter hr
      obtain ⟨hitems, herror⟩ := ih rest.length (hn ▸ hlt) s' rest rfl
      rw [drain_emit happ, drain_emit hr]
      exact ⟨by simp [hitems], herror⟩

/-! ## Input that is used up -/

/-- The same drain with `as` emitted before. -/
def Drained.prepend (as : List α) (d : Drained σ β α ε) : Drained σ β α ε :=
  { d with items := as ++ d.items }

/-- From `s` the input `xs` is used up, whatever follows it: it emits `as` and leaves
    the state `s'`. -/
def Consumes (s : σ) (xs : List β) (as : List α) (s' : σ) : Prop :=
  ∀ rest, M.drain s (xs ++ rest) = (M.drain s' rest).prepend as

section Consumes

variable {M} {s s' s'' : σ} {xs ys rest : List β} {as bs : List α}

theorem drain_congr (h : M.run s xs = M.run s' ys) : M.drain s xs = M.drain s' ys := by
  cases hr : M.run s' ys with
  | more s₁ rest => rw [drain_more (h.trans hr), drain_more hr]
  | emit a s₁ rest => rw [drain_emit (h.trans hr), drain_emit hr]
  | fail e s₁ rest => rw [drain_fail (h.trans hr), drain_fail hr]

theorem Consumes.nil (s : σ) : M.Consumes s [] [] s := fun _ => rfl

theorem Consumes.append (hx : M.Consumes s xs as s') (hy : M.Consumes s' ys bs s'') :
    M.Consumes s (xs ++ ys) (as ++ bs) s'' := by
  intro rest
  rw [List.append_assoc, hx, hy]
  simp [Drained.prepend]

theorem consumes_of_emit {a : α} (h : ∀ rest, M.run s (xs ++ rest) = .emit a s' rest) :
    M.Consumes s xs [a] s' := fun rest => drain_emit (h rest)

theorem consumes_of_run (h : ∀ rest, M.run s (xs ++ rest) = M.run s' rest) :
    M.Consumes s xs [] s' := fun rest => drain_congr (h rest)

/-- Input that is used up leaves nothing behind. -/
theorem Consumes.drain (h : M.Consumes s xs as s') (hwait : M.run s' [] = .more s' []) :
    M.drain s xs = ⟨as, none, s', []⟩ := by
  have hxs := h []
  rw [List.append_nil, drain_more hwait] at hxs
  simpa [Drained.prepend] using hxs

end Consumes

/-- The buffer a drain leaves behind without an error is drained. -/
theorem run_of_drain {s : σ} {xs : List β} (h : (M.drain s xs).error = none) :
    M.run (M.drain s xs).state (M.drain s xs).rest =
      .more (M.drain s xs).state (M.drain s xs).rest := by
  induction hn : xs.length using Nat.strongRecOn generalizing s xs with
  | ind n ih =>
    cases hr : M.run s xs with
    | more s' rest =>
      rw [drain_more hr]
      exact M.run_more_again hr
    | fail e s' rest => rw [drain_fail hr] at h; cases h
    | emit a s' rest =>
      rw [drain_emit hr] at h ⊢
      exact ih rest.length (hn ▸ M.run_emit_shorter hr) h rfl

/-- Feed the chunks one after another, draining after each; stop at an error. -/
def feed : σ → List β → List (List β) → List α × Option ε
  | _, _, [] => ([], none)
  | s, buf, chunk :: chunks =>
    let d := M.drain s (buf ++ chunk)
    match d.error with
    | some e => (d.items, some e)
    | none =>
      let r := feed d.state d.rest chunks
      (d.items ++ r.1, r.2)

/-- **Main theorem**: from a state that waits, feeding a stream in any chunks gives
    the items and the first error of draining the whole. -/
theorem feed_eq_drain (s : σ) (buf : List β) (chunks : List (List β))
    (hwait : ∃ s' rest, M.run s buf = .more s' rest) :
    M.feed s buf chunks =
      ((M.drain s (buf ++ chunks.flatten)).items, (M.drain s (buf ++ chunks.flatten)).error) := by
  induction chunks generalizing s buf with
  | nil =>
    obtain ⟨s', rest, h⟩ := hwait
    rw [List.flatten_nil, List.append_nil, drain_more h]
    rfl
  | cons chunk chunks ih =>
    obtain ⟨hitems, herror⟩ := M.drain_append s (buf ++ chunk) chunks.flatten
    rw [List.flatten_cons, ← List.append_assoc, hitems, herror, feed]
    cases he : (M.drain s (buf ++ chunk)).error with
    | some e => simp
    | none =>
      have := ih _ _ ⟨_, _, M.run_of_drain he⟩
      simp [this]

end Machine

end Incremental

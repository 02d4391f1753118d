import AuraEpics.Lib.Incremental

/-!
# Asking a decoder for one item at a time

A reader keeps the state and the buffer of an incremental decoder and is asked for one item
at a time. A call runs the decoder and waits for input until there is an answer, an item or an
error. A wait can also end the call without one: the input is at its end, or whoever called
no longer wants to wait. The reader keeps what it has read and is asked again later.

* `answers`: the first answers of the decoder on an input, errors included;
* `pull`: one call;
* `Answered`: some input is used up by some answers, whatever follows it.

Results:
* `pull_spec`, a call gives the next answer of everything read so far or none at all, and
  none only if there is none;
* `drained_prefix` and `answers_of_drained`, the answers against the items of a drained buffer;
* `answers_map`, a change of the state that no step looks at changes no answer.
-/

namespace Incremental

variable {σ β α ε τ : Type}

/-! ## Answers -/

namespace Machine

variable (M : Machine σ β α ε)

/-- The first `n` answers on the input, fewer if the decoder waits before. -/
def answers : ℕ → σ → List β → List (α ⊕ ε)
  | 0, _, _ => []
  | n + 1, s, xs =>
    match M.run s xs with
    | .more _ _ => []
    | .emit a s' rest => .inl a :: answers n s' rest
    | .fail e s' rest => .inr e :: answers n s' rest

section Equations

variable {M} {s s' : σ} {xs ys rest : List β}

theorem answers_more (h : M.run s xs = .more s' rest) (n : ℕ) : M.answers n s xs = [] := by
  cases n with
  | zero => rfl
  | succ n => simp only [answers, h]

theorem answers_emit {a : α} (h : M.run s xs = .emit a s' rest) (n : ℕ) :
    M.answers (n + 1) s xs = .inl a :: M.answers n s' rest := by
  simp only [answers, h]

theorem answers_fail {e : ε} (h : M.run s xs = .fail e s' rest) (n : ℕ) :
    M.answers (n + 1) s xs = .inr e :: M.answers n s' rest := by
  simp only [answers, h]

theorem answers_congr (h : M.run s xs = M.run s' ys) (n : ℕ) :
    M.answers n s xs = M.answers n s' ys := by
  cases n with
  | zero => rfl
  | succ n => simp only [answers, h]

end Equations

/-- Fewer answers are the first of more. -/
theorem answers_take (m n : ℕ) (s : σ) (xs : List β) :
    (M.answers (m + n) s xs).take m = M.answers m s xs := by
  induction m generalizing s xs with
  | zero => exact List.take_zero
  | succ m ih =>
    rw [Nat.succ_add]
    cases hr : M.run s xs with
    | more s' rest => rw [answers_more hr, answers_more hr, List.take_nil]
    | emit a s' rest => rw [answers_emit hr, answers_emit hr, List.take_succ_cons, ih]
    | fail e s' rest => rw [answers_fail hr, answers_fail hr, List.take_succ_cons, ih]

/-- Draining gives the answers up to the first error. -/
theorem drained_prefix (n : ℕ) (s : σ) (xs : List β) :
    ((M.drain s xs).items.map Sum.inl ++ (M.drain s xs).error.toList.map Sum.inr).take n <+:
      M.answers n s xs := by
  induction n generalizing s xs with
  | zero => simp
  | succ n ih =>
    cases hr : M.run s xs with
    | more s' rest => simp [drain_more hr]
    | fail e s' rest =>
      rw [answers_fail hr, drain_fail hr]
      simp
    | emit a s' rest =>
      rw [answers_emit hr, drain_emit hr]
      exact List.cons_prefix_cons.2 ⟨rfl, ih s' rest⟩

/-- Without an error the items of a drained buffer are all answers. -/
theorem answers_of_drained {s : σ} {xs : List β} (h : (M.drain s xs).error = none) (n : ℕ) :
    M.answers n s xs = ((M.drain s xs).items.take n).map Sum.inl := by
  induction n generalizing s xs with
  | zero => simp [answers]
  | succ n ih =>
    cases hr : M.run s xs with
    | more s' rest => simp [answers_more hr, drain_more hr]
    | fail e s' rest =>
      rw [drain_fail hr] at h
      cases h
    | emit a s' rest =>
      rw [drain_emit hr] at h
      rw [answers_emit hr, drain_emit hr, ih h]
      rfl

/-- The first answers are items just if draining gives these items first. -/
theorem answers_items_iff (as : List α) (s : σ) (xs : List β) :
    M.answers as.length s xs = as.map Sum.inl ↔ as <+: (M.drain s xs).items := by
  induction as generalizing s xs with
  | nil => exact iff_of_true rfl (List.nil_prefix)
  | cons a as ih =>
    rw [List.length_cons, List.map_cons]
    cases hr : M.run s xs with
    | more s' rest =>
      rw [answers_more hr, drain_more hr]
      exact iff_of_false (List.cons_ne_nil _ _).symm (by simp)
    | fail e s' rest =>
      rw [answers_fail hr, drain_fail hr]
      exact iff_of_false (by simp) (by simp)
    | emit a' s' rest =>
      rw [answers_emit hr, drain_emit hr, List.cons.injEq, Sum.inl.injEq, ih s' rest]
      exact (and_congr_left fun _ => eq_comm).trans List.cons_prefix_cons.symm

/-- The items of a drained buffer, from the answers. -/
theorem items_of_answers {s : σ} {xs : List β} {as : List α}
    (h : ∀ n, M.answers n s xs = (as.take n).map Sum.inl) : (M.drain s xs).items = as := by
  have hpre : ∀ bs, bs <+: (M.drain s xs).items ↔ bs <+: as := by
    intro bs
    have hinj : Function.Injective (List.map (Sum.inl : α → α ⊕ ε)) :=
      List.map_injective_iff.2 Sum.inl_injective
    rw [← answers_items_iff, h, hinj.eq_iff, List.prefix_iff_eq_take, eq_comm]
  exact List.IsPrefix.eq_of_length_le ((hpre _).1 List.prefix_rfl)
    ((hpre _).2 List.prefix_rfl).length_le

end Machine

/-! ## What no step looks at -/

/-- The same step from a state changed by `f`. -/
def Step.mapState (f : σ → σ) : Step σ β α ε → Step σ β α ε
  | more => more
  | next s rest => next (f s) rest
  | emit a s rest => emit a (f s) rest
  | fail e s rest => fail e (f s) rest

/-- The same outcome of a run from a state changed by `f`. -/
def Outcome.mapState (f : σ → σ) : Outcome σ β α ε → Outcome σ β α ε
  | more s rest => more (f s) rest
  | emit a s rest => emit a (f s) rest
  | fail e s rest => fail e (f s) rest

namespace Machine

variable (M : Machine σ β α ε)

/-- No step looks at what `f` changes, or changes it back. -/
def Ignores (f : σ → σ) : Prop := ∀ s xs, M.step (f s) xs = (M.step s xs).mapState f

section Ignores

variable {M} {f : σ → σ}

theorem run_map (hf : M.Ignores f) (s : σ) (xs : List β) :
    M.run (f s) xs = (M.run s xs).mapState f := by
  induction s, xs using M.run_induction with
  | answer s xs h =>
    have hstep := hf s xs
    cases hs : M.step s xs with
    | more => rw [hs] at hstep; rw [run_more hs, run_more hstep]; rfl
    | next s' rest => exact absurd hs (h s' rest)
    | emit a s' rest => rw [hs] at hstep; rw [run_emit hs, run_emit hstep]; rfl
    | fail e s' rest => rw [hs] at hstep; rw [run_fail hs, run_fail hstep]; rfl
  | next s xs s' rest h ih =>
    have hstep := hf s xs
    rw [h] at hstep
    rw [run_next h, run_next hstep, ih]

theorem answers_map (hf : M.Ignores f) (n : ℕ) (s : σ) (xs : List β) :
    M.answers n (f s) xs = M.answers n s xs := by
  induction n generalizing s xs with
  | zero => rfl
  | succ n ih =>
    have hrun := run_map hf s xs
    cases hr : M.run s xs with
    | more s' rest => rw [hr] at hrun; rw [answers_more hr, answers_more hrun]
    | emit a s' rest => rw [hr] at hrun; rw [answers_emit hr, answers_emit hrun, ih]
    | fail e s' rest => rw [hr] at hrun; rw [answers_fail hr, answers_fail hrun, ih]

end Ignores

end Machine

/-! ## Calls -/

/-- What a wait for input comes to: some input, or the end of the call. -/
inductive Wait (β τ : Type) where
  | data (xs : List β)
  | stop (why : τ)
  deriving DecidableEq

/-- The wait brings input. -/
def Wait.isData : Wait β τ → Bool
  | data _ => true
  | stop _ => false

/-- The waits up to the first that ends a call are those of some chunks. -/
theorem Wait.exists_chunks (waits : List (Wait β τ)) :
    ∃ chunks : List (List β), waits.takeWhile isData = chunks.map data := by
  induction waits with
  | nil => exact ⟨[], rfl⟩
  | cons w waits ih =>
    cases w with
    | stop why => exact ⟨[], rfl⟩
    | data xs =>
      obtain ⟨chunks, hchunks⟩ := ih
      exact ⟨xs :: chunks, congrArg (data xs :: ·) hchunks⟩

theorem Wait.takeWhile_data (chunks : List (List β)) (waits : List (Wait β τ)) :
    (chunks.map data ++ waits).takeWhile isData = chunks.map data ++ waits.takeWhile isData := by
  induction chunks with
  | nil => rfl
  | cons xs chunks ih => exact congrArg (data xs :: ·) ih

/-- The input of some waits. -/
def Wait.inputs : List (Wait β τ) → List β
  | [] => []
  | data xs :: waits => xs ++ inputs waits
  | stop _ :: waits => inputs waits

theorem Wait.inputs_data (chunks : List (List β)) :
    inputs (chunks.map (data : List β → Wait β τ)) = chunks.flatten := by
  induction chunks with
  | nil => rfl
  | cons xs chunks ih => exact congrArg (xs ++ ·) ih

theorem Wait.inputs_append (ws vs : List (Wait β τ)) :
    inputs (ws ++ vs) = inputs ws ++ inputs vs := by
  induction ws with
  | nil => rfl
  | cons w ws ih =>
    cases w with
    | data xs => exact (congrArg (xs ++ ·) ih).trans (List.append_assoc _ _ _).symm
    | stop why => exact ih

/-- What a call comes to; `pending` is one that waits longer than anything is known. -/
inductive Pulled (α ε τ : Type) where
  | item (a : α)
  | failed (e : ε)
  | stopped (why : τ)
  | pending
  deriving DecidableEq

/-- The answer a call gives, if it gives one. -/
def Pulled.answer : Pulled α ε τ → List (α ⊕ ε)
  | item a => [.inl a]
  | failed e => [.inr e]
  | stopped _ => []
  | pending => []

namespace Machine

variable (M : Machine σ β α ε)

/-- One call of a reader with state `s` and buffer `buf`, when its waits come to `waits`:
    what it comes to, the reader after it and the waits of later calls. -/
def pull (s : σ) (buf : List β) (waits : List (Wait β τ)) :
    Pulled α ε τ × (σ × List β) × List (Wait β τ) :=
  match M.run s buf with
  | .emit a s' rest => (.item a, (s', rest), waits)
  | .fail e s' rest => (.failed e, (s', rest), waits)
  | .more s' rest =>
    match waits with
    | [] => (.pending, (s', rest), [])
    | .data xs :: waits => pull s' (rest ++ xs) waits
    | .stop why :: waits => (.stopped why, (s', rest), waits)

/-- Reading `xs` behind `buf` from `s`, the answers are `as` and then those of the reader
    `(s', buf')` with whatever comes next. -/
def Answered (s : σ) (buf xs : List β) (as : List (α ⊕ ε)) (s' : σ) (buf' : List β) : Prop :=
  ∀ n ys, M.answers (as.length + n) s (buf ++ xs ++ ys) = as ++ M.answers n s' (buf' ++ ys)

section Answered

variable {M} {s s' s'' : σ} {buf buf' buf'' xs ys : List β} {as bs : List (α ⊕ ε)}

theorem Answered.refl (s : σ) (buf : List β) : M.Answered s buf [] [] s buf := by
  intro n ys
  simp

theorem Answered.trans (h : M.Answered s buf xs as s' buf')
    (h' : M.Answered s' buf' ys bs s'' buf'') :
    M.Answered s buf (xs ++ ys) (as ++ bs) s'' buf'' := by
  intro n zs
  have hfirst := h (bs.length + n) (ys ++ zs)
  have hsecond := h' n zs
  rw [List.length_append, Nat.add_assoc, ← List.append_assoc buf, List.append_assoc (buf ++ xs),
    hfirst, ← List.append_assoc buf', hsecond, List.append_assoc]

theorem answered_of_run (h : ∀ ys, M.run s (buf ++ xs ++ ys) = M.run s' (buf' ++ ys)) :
    M.Answered s buf xs [] s' buf' := by
  intro n ys
  rw [List.length_nil, Nat.zero_add]
  exact answers_congr (h ys) n

theorem answered_emit {a : α} (h : M.run s buf = .emit a s' buf') :
    M.Answered s buf [] [.inl a] s' buf' := by
  intro n ys
  have happ := M.run_append s buf ys
  rw [h] at happ
  rw [List.append_nil, List.length_singleton, Nat.add_comm, answers_emit happ]
  rfl

theorem answered_fail {e : ε} (h : M.run s buf = .fail e s' buf') :
    M.Answered s buf [] [.inr e] s' buf' := by
  intro n ys
  have happ := M.run_append s buf ys
  rw [h] at happ
  rw [List.append_nil, List.length_singleton, Nat.add_comm, answers_fail happ]
  rfl

theorem answered_more (h : M.run s buf = .more s' buf') :
    M.Answered s buf [] [] s' buf' := by
  refine answered_of_run fun ys => ?_
  have happ := M.run_append s buf ys
  rw [h] at happ
  rw [List.append_nil]
  exact happ

/-- What was answered are the first answers of everything read. -/
theorem Answered.answers_eq (h : M.Answered s buf xs as s' buf') :
    M.answers as.length s (buf ++ xs) = as := by
  have := h 0 []
  simpa [answers] using this

/-- If the reader waits, there are no others. -/
theorem Answered.all (h : M.Answered s buf xs as s' buf')
    (hwait : M.run s' buf' = .more s' buf') (n : ℕ) :
    M.answers (as.length + n) s (buf ++ xs) = as := by
  have := h n []
  rw [List.append_nil, List.append_nil, answers_more hwait, List.append_nil] at this
  exact this

end Answered

/-- What a call does. It uses up some of the waits; what it answers is the next answer of the
    buffer with their input, and then none of them ended a call; and if it answers nothing, the
    reader waits. -/
structure PullSpec (s : σ) (buf : List β) (waits : List (Wait β τ)) (p : Pulled α ε τ)
    (s' : σ) (buf' : List β) (later : List (Wait β τ)) : Prop where
  used : ∃ used, waits = used ++ later ∧ M.Answered s buf (Wait.inputs used) p.answer s' buf' ∧
    (p.answer ≠ [] → ∃ chunks : List (List β), used = chunks.map .data)
  waits : p.answer = [] → M.run s' buf' = .more s' buf'

theorem pullSpec_answered {s s' : σ} {buf rest : List β} {waits : List (Wait β τ)}
    {p : Pulled α ε τ} (h : M.Answered s buf [] p.answer s' rest) (hne : p.answer ≠ []) :
    M.PullSpec s buf waits p s' rest waits :=
  ⟨⟨[], rfl, h, fun _ => ⟨[], rfl⟩⟩, fun hnil => absurd hnil hne⟩

theorem pull_spec (s : σ) (buf : List β) (waits : List (Wait β τ)) :
    let (p, (s', buf'), later) := M.pull s buf waits
    M.PullSpec s buf waits p s' buf' later := by
  induction waits generalizing s buf with
  | nil =>
    unfold pull
    cases hr : M.run s buf with
    | emit a s' rest => exact pullSpec_answered M (answered_emit hr) (List.cons_ne_nil _ _)
    | fail e s' rest => exact pullSpec_answered M (answered_fail hr) (List.cons_ne_nil _ _)
    | more s' rest =>
      exact ⟨⟨[], rfl, answered_more hr, fun _ => ⟨[], rfl⟩⟩, fun _ => M.run_more_again hr⟩
  | cons w waits ih =>
    unfold pull
    cases hr : M.run s buf with
    | emit a s' rest => exact pullSpec_answered M (answered_emit hr) (List.cons_ne_nil _ _)
    | fail e s' rest => exact pullSpec_answered M (answered_fail hr) (List.cons_ne_nil _ _)
    | more s' rest =>
      cases w with
      | stop why =>
        exact ⟨⟨[.stop why], rfl, answered_more hr, fun hne => absurd rfl hne⟩,
          fun _ => M.run_more_again hr⟩
      | data xs =>
        obtain ⟨⟨used, hused, hanswered, hdata⟩, hwaits⟩ := ih s' (rest ++ xs)
        refine ⟨⟨.data xs :: used, congrArg (Wait.data xs :: ·) hused, ?_, fun hne => ?_⟩, hwaits⟩
        rotate_left
        · obtain ⟨chunks, hchunks⟩ := hdata hne
          exact ⟨xs :: chunks, congrArg (Wait.data xs :: ·) hchunks⟩
        -- the run that waited goes on with the new input behind what it kept
        have hmoved : M.Answered s buf xs [] s' (rest ++ xs) := by
          refine answered_of_run fun ys => ?_
          have happ := M.run_append s buf (xs ++ ys)
          rw [hr] at happ
          rw [List.append_assoc, happ, List.append_assoc]
        exact hmoved.trans hanswered

/-- A call whose waits bring enough input gives the next answer, and its reader has the rest of
    the input before it. -/
theorem pull_enough {s : σ} {buf : List β} {chunks : List (List β)} {a : α}
    (h : M.answers 1 s (buf ++ chunks.flatten) = [.inl a]) (later : List (Wait β τ)) :
    ∃ (s' : σ) (buf' : List β) (rest : List (List β)),
      M.pull s buf (chunks.map .data ++ later) =
        (.item a, (s', buf'), rest.map .data ++ later) ∧
      ∀ n, M.answers (n + 1) s (buf ++ chunks.flatten) =
        .inl a :: M.answers n s' (buf' ++ rest.flatten) := by
  induction chunks generalizing s buf with
  | nil =>
    rw [List.flatten_nil, List.append_nil] at h ⊢
    cases hr : M.run s buf with
    | more s' rest => rw [answers_more hr] at h; cases h
    | fail e s' rest => rw [answers_fail hr] at h; cases h
    | emit a' s' rest =>
      rw [answers_emit hr] at h
      obtain rfl : a' = a := Sum.inl.inj (List.cons.inj h).1
      refine ⟨s', rest, [], ?_, fun n => ?_⟩
      · unfold pull
        rw [hr]
      · rw [answers_emit hr, List.flatten_nil, List.append_nil]
  | cons xs chunks ih =>
    have happ := M.run_append s buf (xs ++ chunks.flatten)
    rw [List.flatten_cons] at h ⊢
    cases hr : M.run s buf with
    | fail e s' rest =>
      rw [hr] at happ
      rw [answers_fail happ] at h
      cases h
    | emit a' s' rest =>
      rw [hr] at happ
      rw [answers_emit happ] at h
      obtain rfl : a' = a := Sum.inl.inj (List.cons.inj h).1
      refine ⟨s', rest, xs :: chunks, ?_, fun n => answers_emit happ n⟩
      unfold pull
      rw [hr]
    | more s' rest =>
      rw [hr] at happ
      have hmoved : ∀ n, M.answers n s (buf ++ (xs ++ chunks.flatten)) =
          M.answers n s' (rest ++ xs ++ chunks.flatten) := by
        intro n
        rw [List.append_assoc]
        exact answers_congr happ n
      rw [hmoved] at h
      obtain ⟨s'', buf'', rest'', hpull, hnext⟩ := ih h
      refine ⟨s'', buf'', rest'', ?_, fun n => (hmoved (n + 1)).trans (hnext n)⟩
      unfold pull
      rw [hr]
      exact hpull

end Machine

end Incremental

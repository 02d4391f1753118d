import Mathlib

/-!
# Programs over a cursor

A program reads a buffer through a cursor: it takes elements, looks at the next one or asks how
many are left, and goes on with the answer. What it is told of the buffer are the answers alone.

`run` gives a program its meaning on natural numbers. `exec w` runs it on a machine whose positions
are words of `w` bits, and stops (`none`) where such a machine does: at a sum that does not fit, a
difference below zero, a slice or an element outside of the buffer.

Results: `exec_eq_run`, programs whose requests are small for the word never stop the machine;
`le_run` and `run_le_length`, the cursor only moves forward and stays inside the buffer.
-/

namespace CursorProgram

/-- A program over a buffer of `β`, with results in `α` and errors in `ε`. -/
inductive Program (β ε α : Type) where
  | ret (a : α)
  | fail (e : ε)
  /-- Move over `n` elements, or fail with the error for what is left. -/
  | take (n : ℕ) (short : ℕ → ε) (next : List β → Program β ε α)
  /-- Look at the next element, or fail. -/
  | peek (short : ε) (next : β → Program β ε α)
  /-- How many elements are left. -/
  | left (next : ℕ → Program β ε α)

variable {β ε α γ : Type}

namespace Program

/-! ## Meaning -/

/-- The outcome of a program and the position after it. -/
def run : Program β ε α → List β → ℕ → Except ε α × ℕ
  | ret a, _, pos => (.ok a, pos)
  | fail e, _, pos => (.error e, pos)
  | take n short next, buf, pos =>
    if pos + n ≤ buf.length then run (next ((buf.drop pos).take n)) buf (pos + n)
    else (.error (short (buf.length - pos)), pos)
  | peek short next, buf, pos =>
    match buf[pos]? with
    | some b => run (next b) buf pos
    | none => (.error short, pos)
  | left next, buf, pos => run (next (buf.length - pos)) buf pos

/-- The sum of two words. -/
def addWord (w m n : ℕ) : Option ℕ := if m + n < 2 ^ w then some (m + n) else none

/-- The difference of two words. -/
def subWord (m n : ℕ) : Option ℕ := if n ≤ m then some (m - n) else none

/-- `buf[start..stop]`. -/
def slice (buf : List β) (start stop : ℕ) : Option (List β) :=
  if start ≤ stop ∧ stop ≤ buf.length then some ((buf.drop start).take (stop - start)) else none

/-- A program on a machine with words of `w` bits. -/
def exec (w : ℕ) : Program β ε α → List β → ℕ → Option (Except ε α × ℕ)
  | ret a, _, pos => some (.ok a, pos)
  | fail e, _, pos => some (.error e, pos)
  | take n short next, buf, pos =>
    (addWord w pos n).bind fun stop =>
      if buf.length < stop then
        (subWord buf.length pos).bind fun available => some (.error (short available), pos)
      else (slice buf pos stop).bind fun bs => exec w (next bs) buf stop
  | peek short next, buf, pos =>
    if pos < buf.length then buf[pos]?.bind fun b => exec w (next b) buf pos
    else some (.error short, pos)
  | left next, buf, pos => (subWord buf.length pos).bind fun n => exec w (next n) buf pos

/-- Every request is for fewer than `bound` elements and every result satisfies `P`, whatever the
    answers are. -/
def Within (bound : ℕ) (P : α → Prop) : Program β ε α → Prop
  | ret a => P a
  | fail _ => True
  | take n _ next => n < bound ∧ ∀ bs, (next bs).Within bound P
  | peek _ next => ∀ b, (next b).Within bound P
  | left next => ∀ n, (next n).Within bound P

/-! ## The cursor -/

theorem le_run (prog : Program β ε α) (buf : List β) (pos : ℕ) : pos ≤ (prog.run buf pos).2 := by
  induction prog generalizing pos with
  | ret a => exact Nat.le_refl pos
  | fail e => exact Nat.le_refl pos
  | take n short next ih =>
    simp only [run]
    split
    · exact Nat.le_trans (Nat.le_add_right pos n) (ih _ (pos + n))
    · exact Nat.le_refl pos
  | peek short next ih =>
    simp only [run]
    split
    · exact ih _ pos
    · exact Nat.le_refl pos
  | left next ih => exact ih _ pos

theorem run_le_length (prog : Program β ε α) (buf : List β) {pos : ℕ} (hpos : pos ≤ buf.length) :
    (prog.run buf pos).2 ≤ buf.length := by
  induction prog generalizing pos with
  | ret a => exact hpos
  | fail e => exact hpos
  | take n short next ih =>
    simp only [run]
    split
    · next hle => exact ih _ hle
    · exact hpos
  | peek short next ih =>
    simp only [run]
    split
    · exact ih _ hpos
    · exact hpos
  | left next ih => exact ih _ hpos

/-! ## The machine -/

theorem addWord_of_lt {w m n : ℕ} (h : m + n < 2 ^ w) : addWord w m n = some (m + n) := if_pos h

theorem subWord_of_le {m n : ℕ} (h : n ≤ m) : subWord m n = some (m - n) := if_pos h

theorem slice_add {buf : List β} {pos n : ℕ} (h : pos + n ≤ buf.length) :
    slice buf pos (pos + n) = some ((buf.drop pos).take n) := by
  unfold slice
  rw [if_pos ⟨Nat.le_add_right pos n, h⟩, Nat.add_sub_cancel_left]

/-- Where the buffer and a request together fit into a word, the machine does not stop. -/
theorem exec_eq_run {w bound : ℕ} {P : α → Prop} {prog : Program β ε α} {buf : List β}
    (hprog : prog.Within bound P) (hfit : buf.length + bound ≤ 2 ^ w) {pos : ℕ}
    (hpos : pos ≤ buf.length) : prog.exec w buf pos = some (prog.run buf pos) := by
  induction prog generalizing pos with
  | ret a => rfl
  | fail e => rfl
  | take n short next ih =>
    obtain ⟨hn, hnext⟩ := hprog
    have hadd : addWord w pos n = some (pos + n) := by
      apply addWord_of_lt
      omega
    simp only [exec, run, hadd, Option.bind_some]
    by_cases hle : pos + n ≤ buf.length
    · rw [if_neg (by omega), if_pos hle, slice_add hle, Option.bind_some]
      exact ih _ (hnext _) hle
    · rw [if_pos (by omega), if_neg hle, subWord_of_le hpos, Option.bind_some]
  | peek short next ih =>
    simp only [exec, run]
    by_cases hlt : pos < buf.length
    · rw [if_pos hlt, List.getElem?_eq_getElem hlt, Option.bind_some]
      exact ih _ (hprog _) hpos
    · rw [if_neg hlt, List.getElem?_eq_none (by omega)]
  | left next ih =>
    simp only [exec, run]
    rw [subWord_of_le hpos, Option.bind_some]
    exact ih _ (hprog _) hpos

theorem Within.mono {bound : ℕ} {P Q : α → Prop} {prog : Program β ε α}
    (hprog : prog.Within bound P) (himp : ∀ a, P a → Q a) : prog.Within bound Q := by
  induction prog with
  | ret a => exact himp a hprog
  | fail e => trivial
  | take n short next ih => exact ⟨hprog.1, fun bs => ih bs (hprog.2 bs)⟩
  | peek short next ih => exact fun b => ih b (hprog b)
  | left next ih => exact fun n => ih n (hprog n)

/-- A result of a program is one of those it promises. -/
theorem Within.of_run {bound : ℕ} {P : α → Prop} {prog : Program β ε α} {buf : List β} {a : α}
    (hprog : prog.Within bound P) {pos : ℕ} (h : (prog.run buf pos).1 = .ok a) : P a := by
  induction prog generalizing pos with
  | ret b =>
    cases h
    exact hprog
  | fail e => cases h
  | take n short next ih =>
    simp only [run] at h
    split at h
    · exact ih _ (hprog.2 _) h
    · cases h
  | peek short next ih =>
    simp only [run] at h
    split at h
    · exact ih _ (hprog _) h
    · cases h
  | left next ih => exact ih _ (hprog _) h

/-! ## One program after another -/

/-- `f` on the result of a program. -/
def bind : Program β ε α → (α → Program β ε γ) → Program β ε γ
  | ret a, f => f a
  | fail e, _ => fail e
  | take n short next, f => take n short fun bs => (next bs).bind f
  | peek short next, f => peek short fun b => (next b).bind f
  | left next, f => left fun n => (next n).bind f

instance : Monad (Program β ε) where
  pure := ret
  bind := bind

theorem run_bind (prog : Program β ε α) (f : α → Program β ε γ) (buf : List β) (pos : ℕ) :
    (prog.bind f).run buf pos =
      match prog.run buf pos with
      | (.ok a, pos') => (f a).run buf pos'
      | (.error e, pos') => (.error e, pos') := by
  induction prog generalizing pos with
  | ret a => rfl
  | fail e => rfl
  | take n short next ih =>
    simp only [bind, run]
    split
    · exact ih _ (pos + n)
    · rfl
  | peek short next ih =>
    simp only [bind, run]
    split
    · exact ih _ pos
    · rfl
  | left next ih => exact ih _ pos

theorem Within.bind {bound : ℕ} {P : α → Prop} {Q : γ → Prop} {prog : Program β ε α}
    {f : α → Program β ε γ} (hprog : prog.Within bound P) (hf : ∀ a, P a → (f a).Within bound Q) :
    (prog.bind f).Within bound Q := by
  induction prog with
  | ret a => exact hf a hprog
  | fail e => trivial
  | take n short next ih => exact ⟨hprog.1, fun bs => ih bs (hprog.2 bs)⟩
  | peek short next ih => exact fun b => ih b (hprog b)
  | left next ih => exact fun n => ih n (hprog n)

/-! ## Sequences -/

/-- Programs one after another, each from where the one before stopped, also where that one failed:
    the outcomes and the positions after them. -/
def runEach : List (Program β ε α) → List β → ℕ → List (Except ε α × ℕ)
  | [], _, _ => []
  | prog :: progs, buf, pos =>
    prog.run buf pos :: runEach progs buf (prog.run buf pos).2

/-- The same on the machine. -/
def execEach (w : ℕ) : List (Program β ε α) → List β → ℕ → Option (List (Except ε α × ℕ))
  | [], _, _ => some []
  | prog :: progs, buf, pos =>
    (prog.exec w buf pos).bind fun out =>
      (execEach w progs buf out.2).bind fun outs => some (out :: outs)

theorem execEach_eq_runEach {w bound : ℕ} {P : α → Prop} {progs : List (Program β ε α)}
    {buf : List β} (hprogs : ∀ prog ∈ progs, prog.Within bound P)
    (hfit : buf.length + bound ≤ 2 ^ w) {pos : ℕ} (hpos : pos ≤ buf.length) :
    execEach w progs buf pos = some (runEach progs buf pos) := by
  induction progs generalizing pos with
  | nil => rfl
  | cons prog progs ih =>
    have hhead := exec_eq_run (hprogs prog List.mem_cons_self) hfit hpos
    have hnext : (prog.run buf pos).2 ≤ buf.length := run_le_length prog buf hpos
    have htail := ih (fun p hp => hprogs p (List.mem_cons_of_mem prog hp)) hnext
    simp only [execEach, runEach, hhead, htail, Option.bind_some]

theorem le_of_mem_runEach {progs : List (Program β ε α)} {buf : List β} {pos : ℕ}
    {out : Except ε α × ℕ} (h : out ∈ runEach progs buf pos) : pos ≤ out.2 := by
  induction progs generalizing pos with
  | nil => cases h
  | cons prog progs ih =>
    have hle := le_run prog buf pos
    rcases List.mem_cons.mp h with rfl | h
    · exact hle
    · exact Nat.le_trans hle (ih h)

/-- The positions never decrease. -/
theorem runEach_pairwise (progs : List (Program β ε α)) (buf : List β) (pos : ℕ) :
    (pos :: (runEach progs buf pos).map Prod.snd).Pairwise (· ≤ ·) := by
  induction progs generalizing pos with
  | nil => simp [runEach]
  | cons prog progs ih =>
    refine List.pairwise_cons.mpr ⟨?_, ih _⟩
    intro p hp
    obtain ⟨out, hout, rfl⟩ := List.mem_map.mp hp
    exact le_of_mem_runEach hout

/-- The positions stay inside the buffer. -/
theorem runEach_le_length {progs : List (Program β ε α)} {buf : List β} {pos : ℕ}
    (hpos : pos ≤ buf.length) {out : Except ε α × ℕ} (h : out ∈ runEach progs buf pos) :
    out.2 ≤ buf.length := by
  induction progs generalizing pos with
  | nil => cases h
  | cons prog progs ih =>
    have hle := run_le_length prog buf hpos
    rcases List.mem_cons.mp h with rfl | h
    · exact hle
    · exact ih hle h

end Program

end CursorProgram

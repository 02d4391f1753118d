import AuraEpics.Lib.Runs
import Mathlib.Data.List.Forall2

/-!
# The pool of COPY connections

Model of `CopyPool` (`crates/aura-store/src/writer/copy_pool.rs`, lines 91-120 and 284-331). All
clones of the pool share one list of clients. A client that has lost its connection is closed for
good, and `reconnect_dead`, which the store loop calls before it sends a bundle again
(`store_loop.rs`, lines 143, 366 and 423), puts new clients in the places of the closed ones. It
awaits them one by one, and connections can be lost meanwhile. The calls do not overlap.

Results:
* `slots_kept`, a slot keeps its client unless the client is closed;
* `reconnect_dead_heals`, what a call has done when no connection was lost meanwhile.
-/

namespace AuraEpics.Store

/-! ## Model -/

/-- The variables of a call of `reconnect_dead` and the place it looks at next. -/
structure Healing where
  next : List ℕ
  place : ℕ
  reconnected : ℕ
  stillDead : ℕ

/-- The pool: its clients, numbered in the order they were made, which of them are closed, how
    many have been made, the call that is running and what the calls have returned. -/
structure CopyPool where
  clients : List ℕ
  closed : List ℕ
  made : ℕ
  healing : Option Healing
  returned : List (ℕ × ℕ)

/-- A connection is lost, `reconnect_dead` is called, or it looks at the next place; `dialled`
    says whether a new client would be connected in time. -/
inductive PoolAct where
  | lose (client : ℕ)
  | reconnectDead
  | visit (dialled : Bool)

namespace CopyPool

/-- A pool of `n` clients, as `add` makes it. -/
def start (n : ℕ) : CopyPool := ⟨List.range n, [], n, none, []⟩

/-- One pass of the loop over the places (lines 301-325), or the end (lines 327-330). -/
def visit (p : CopyPool) (h : Healing) (dialled : Bool) : CopyPool :=
  match h.next[h.place]? with
  | none =>
    { p with
      clients := if 0 < h.reconnected then h.next else p.clients
      healing := none
      returned := p.returned ++ [(h.reconnected, h.stillDead)] }
  | some client =>
    if client ∉ p.closed then { p with healing := some { h with place := h.place + 1 } }
    else if dialled then
      { p with
        made := p.made + 1
        healing := some ⟨h.next.set h.place p.made, h.place + 1, h.reconnected + 1, h.stillDead⟩ }
    else { p with
      healing := some { h with place := h.place + 1, stillDead := h.stillDead + 1 } }

/-- One step. -/
def step (p : CopyPool) : PoolAct → CopyPool
  | .lose client => if client < p.made then { p with closed := client :: p.closed } else p
  | .reconnectDead =>
    if p.healing.isSome then p
    else if ∃ k ∈ p.clients, k ∈ p.closed then { p with healing := some ⟨p.clients, 0, 0, 0⟩ }
    else { p with returned := p.returned ++ [(0, 0)] }
  | .visit dialled =>
    match p.healing with
    | none => p
    | some h => p.visit h dialled

/-! ## Slots -/

/-- Slot by slot the second list has the client of the first, or that one is closed. -/
def Kept (closed : List ℕ) (clients clients' : List ℕ) : Prop :=
  List.Forall₂ (fun k k' => k' = k ∨ k ∈ closed) clients clients'

section Kept

variable {closed closed' a b c : List ℕ}

theorem Kept.refl (closed a : List ℕ) : Kept closed a a := by
  induction a with
  | nil => exact .nil
  | cons k a ih => exact .cons (.inl rfl) ih

theorem Kept.mono (h : Kept closed a b) (hsub : ∀ k ∈ closed, k ∈ closed') : Kept closed' a b :=
  List.Forall₂.imp (fun _ _ hk => hk.imp_right (hsub _)) h

theorem Kept.trans (h : Kept closed a b) (h' : Kept closed b c) : Kept closed a c := by
  induction h generalizing c with
  | nil => exact h'
  | cons hk _ ih =>
    cases h' with
    | cons hk' hrest =>
      refine .cons ?_ (ih hrest)
      obtain rfl | hclosed := hk
      · exact hk'
      · exact .inr hclosed

/-- A closed client is replaced. -/
theorem Kept.set (h : Kept closed a b) {i k : ℕ} (hk : b[i]? = some k) (hclosed : k ∈ closed)
    (m : ℕ) : Kept closed a (b.set i m) := by
  induction h generalizing i with
  | nil => cases hk
  | @cons x y a b hxy hrest ih =>
    cases i with
    | zero =>
      obtain rfl : y = k := Option.some.inj hk
      refine .cons (.inr ?_) hrest
      obtain rfl | hx := hxy
      · exact hclosed
      · exact hx
    | succ i => exact .cons hxy (ih hk)

end Kept

/-- The list a call is about to store has kept the clients that are not closed; every client has
    been made. -/
structure Sound (p : CopyPool) : Prop where
  kept : ∀ h ∈ p.healing, Kept p.closed p.clients h.next
  closed : ∀ k ∈ p.closed, k < p.made

/-- What a step keeps. -/
theorem Sound.step {p : CopyPool} (h : p.Sound) (a : PoolAct) :
    (p.step a).Sound ∧ (∀ k ∈ p.closed, k ∈ (p.step a).closed) ∧
      Kept (p.step a).closed p.clients (p.step a).clients := by
  have hsame : ∀ k ∈ p.closed, k ∈ p.closed := fun _ hk => hk
  have hkept := Kept.refl p.closed p.clients
  cases a with
  | lose client =>
    simp only [CopyPool.step]
    split_ifs with hmade
    · have hmore : ∀ k ∈ p.closed, k ∈ client :: p.closed := fun k hk => List.mem_cons_of_mem _ hk
      refine ⟨⟨fun g hg => (h.kept g hg).mono hmore, fun k hk => ?_⟩, hmore, hkept.mono hmore⟩
      obtain rfl | hk := List.mem_cons.1 hk
      · exact hmade
      · exact h.closed k hk
    · exact ⟨h, hsame, hkept⟩
  | reconnectDead =>
    simp only [CopyPool.step]
    split_ifs with hrunning hdead
    · exact ⟨h, hsame, hkept⟩
    · refine ⟨⟨fun g hg => ?_, h.closed⟩, hsame, hkept⟩
      obtain rfl := Option.some.inj hg
      exact hkept
    · exact ⟨⟨h.kept, h.closed⟩, hsame, hkept⟩
  | visit dialled =>
    cases hhealing : p.healing with
    | none =>
      have hstep : p.step (.visit dialled) = p := by
        simp only [CopyPool.step, hhealing]
      rw [hstep]
      exact ⟨h, hsame, hkept⟩
    | some g =>
      have hstep : p.step (.visit dialled) = p.visit g dialled := by
        simp only [CopyPool.step, hhealing]
      have hg := h.kept g hhealing
      rw [hstep]
      unfold CopyPool.visit
      cases hplace : g.next[g.place]? with
      | none =>
        refine ⟨⟨fun _ hnone => (by cases hnone), h.closed⟩, hsame, ?_⟩
        show Kept p.closed p.clients (if 0 < g.reconnected then g.next else p.clients)
        split_ifs
        · exact hg
        · exact hkept
      | some client =>
        dsimp only
        split_ifs with hclosed hdialled
        · refine ⟨⟨fun g' hg' => ?_, fun k hk => (h.closed k hk).trans (Nat.lt_succ_self _)⟩,
            hsame, hkept⟩
          obtain rfl := Option.some.inj hg'
          exact hg.set hplace hclosed p.made
        · refine ⟨⟨fun g' hg' => ?_, h.closed⟩, hsame, hkept⟩
          obtain rfl := Option.some.inj hg'
          exact hg
        · refine ⟨⟨fun g' hg' => ?_, h.closed⟩, hsame, hkept⟩
          obtain rfl := Option.some.inj hg'
          exact hg

theorem sound_start (n : ℕ) : (start n).Sound :=
  ⟨fun _ h => (by cases h), fun _ h => absurd h List.not_mem_nil⟩

theorem Sound.run {p : CopyPool} (h : p.Sound) (acts : List PoolAct) :
    (Runs.run CopyPool.step p acts).Sound ∧
      (∀ k ∈ p.closed, k ∈ (Runs.run CopyPool.step p acts).closed) ∧
      Kept (Runs.run CopyPool.step p acts).closed p.clients
        (Runs.run CopyPool.step p acts).clients := by
  induction acts generalizing p with
  | nil => exact ⟨h, fun _ hk => hk, .refl _ _⟩
  | cons a acts ih =>
    obtain ⟨hsound, hclosed, hkept⟩ := h.step a
    obtain ⟨hsound', hclosed', hkept'⟩ := ih hsound
    exact ⟨hsound', fun k hk => hclosed' k (hclosed k hk), (hkept.mono hclosed').trans hkept'⟩

/-- **Main theorem**: from one time to a later one every slot of a pool of `n` keeps its client,
    unless that client is closed at the later time. -/
theorem slots_kept (n : ℕ) (pre post : List PoolAct) :
    let p := Runs.run step (start n) pre
    let p' := Runs.run step p post
    p'.clients.length = n ∧ Kept p'.closed p.clients p'.clients := by
  intro p p'
  obtain ⟨hsound, -, hkept⟩ := (sound_start n).run pre
  obtain ⟨-, -, hkept'⟩ := hsound.run post
  refine ⟨?_, hkept'⟩
  rw [← List.Forall₂.length_eq hkept', ← List.Forall₂.length_eq hkept]
  exact List.length_range

/-! ## A call that is not disturbed -/

/-- The number of closed clients. -/
def dead (closed : List ℕ) (clients : List ℕ) : ℕ := clients.countP fun k => decide (k ∈ closed)

theorem dead_append (closed a b : List ℕ) : dead closed (a ++ b) = dead closed a + dead closed b :=
  List.countP_append

/-- One pass: the client `m` it leaves in the place of `k`, and what it counts. -/
theorem visit_one {p : CopyPool} {done rest : List ℕ} {k r : ℕ}
    (hsound : ∀ j ∈ p.closed, j < p.made)
    (hhealing : p.healing = some ⟨done ++ k :: rest, done.length, r, dead p.closed done⟩)
    (b : Bool) :
    ∃ m r₁ made, p.made ≤ made ∧ r ≤ r₁ ∧ r₁ + dead p.closed [m] = r + dead p.closed [k] ∧
      (r₁ = r → m = k) ∧ (b = true → dead p.closed [m] = 0) ∧
      p.step (.visit b) = { p with
        made := made
        healing := some ⟨done ++ [m] ++ rest, (done ++ [m]).length, r₁,
          dead p.closed (done ++ [m])⟩ } := by
  have hplace : (done ++ k :: rest)[done.length]? = some k := by simp
  have hstep : p.step (.visit b) =
      p.visit ⟨done ++ k :: rest, done.length, r, dead p.closed done⟩ b := by
    simp only [CopyPool.step, hhealing]
  rw [hstep]
  simp only [CopyPool.visit, hplace, dead_append, List.length_append, List.length_singleton]
  by_cases hk : k ∈ p.closed
  · have hdead : dead p.closed [k] = 1 := by simp [dead, hk]
    rw [if_neg (not_not.2 hk)]
    cases b with
    | true =>
      have hnew : p.made ∉ p.closed := fun h => Nat.lt_irrefl _ (hsound _ h)
      have hopen : dead p.closed [p.made] = 0 := by simp [dead, hnew]
      refine ⟨p.made, r + 1, p.made + 1, Nat.le_succ _, Nat.le_succ r, ?_, ?_, fun _ => hopen, ?_⟩
      · rw [hdead, hopen]
      · intro h
        omega
      · rw [if_pos rfl, hopen]
        simp
    | false =>
      refine ⟨k, r, p.made, Nat.le_refl _, Nat.le_refl r, rfl, fun _ => rfl,
        fun h => absurd h Bool.false_ne_true, ?_⟩
      rw [if_neg Bool.false_ne_true, hdead]
      simp
  · have hdead : dead p.closed [k] = 0 := by simp [dead, hk]
    refine ⟨k, r, p.made, Nat.le_refl _, Nat.le_refl r, rfl, fun _ => rfl, fun _ => hdead, ?_⟩
    rw [if_pos hk, hdead]
    simp

/-- The passes over the places that are left: what they count, and what they put in the list. -/
theorem visits_spec (dials : List Bool) {p : CopyPool} {done rest : List ℕ} {r : ℕ}
    (hsound : ∀ j ∈ p.closed, j < p.made) (hlen : dials.length = rest.length)
    (hhealing : p.healing = some ⟨done ++ rest, done.length, r, dead p.closed done⟩) :
    ∃ done' r' made, r ≤ r' ∧
      r' + dead p.closed done' = r + dead p.closed done + dead p.closed rest ∧
      (r' = r → done' = done ++ rest) ∧
      ((∀ b ∈ dials, b = true) → dead p.closed done' = dead p.closed done) ∧
      Runs.run step p (dials.map .visit) = { p with
        made := made
        healing := some ⟨done', done'.length, r', dead p.closed done'⟩ } := by
  induction dials generalizing p done rest r with
  | nil =>
    obtain rfl := List.length_eq_zero_iff.1 hlen.symm
    refine ⟨done, r, p.made, Nat.le_refl r, rfl, fun _ => (List.append_nil done).symm,
      fun _ => rfl, ?_⟩
    rw [List.append_nil] at hhealing
    show p = _
    rw [← hhealing]
  | cons b dials ih =>
    obtain _ | ⟨k, rest⟩ := rest
    · cases hlen
    obtain ⟨m, r₁, made, hmade, hle, hcount, hkeep, hdial, hstep⟩ := visit_one hsound hhealing b
    have hrun : Runs.run step p ((b :: dials).map .visit) =
        Runs.run step (p.step (.visit b)) (dials.map .visit) := rfl
    rw [hstep] at hrun
    rw [hrun]
    obtain ⟨done', r', made', hle', hcount', hkeep', hdial', hrest⟩ :=
      ih (p := { p with
        made := made
        healing := some ⟨done ++ [m] ++ rest, (done ++ [m]).length, r₁,
          dead p.closed (done ++ [m])⟩ }) (fun j hj => (hsound j hj).trans_le hmade)
        (Nat.succ.inj hlen) rfl
    dsimp only at hcount' hdial' hrest
    have hsplit : dead p.closed (k :: rest) = dead p.closed [k] + dead p.closed rest :=
      dead_append p.closed [k] rest
    rw [dead_append] at hcount' hdial'
    refine ⟨done', r', made', hle.trans hle', ?_, ?_, ?_, hrest⟩
    · rw [hsplit]
      omega
    · intro h
      obtain rfl : m = k := hkeep (by omega)
      rw [hkeep' (by omega), List.append_assoc]
      rfl
    · intro hall
      rw [hdial' fun c hc => hall c (List.mem_cons_of_mem b hc), hdial (hall b List.mem_cons_self)]
      rfl

/-- **Main theorem**: let `reconnect_dead` be called on a pool of `n` where no call is running, and
    let no connection be lost while it runs. It returns how many clients it has replaced and how
    many are still closed: together these were closed before, and no others are closed now. If
    every new connection comes in time, none is. -/
theorem reconnect_dead_heals (n : ℕ) (acts : List PoolAct) (dials : List Bool)
    (hidle : (Runs.run step (start n) acts).healing = none) (hlen : dials.length = n) :
    let p := Runs.run step (start n) acts
    let p' := Runs.run step p (.reconnectDead :: dials.map .visit ++ [.visit false])
    ∃ reconnected stillDead, p'.healing = none ∧
      p'.returned = p.returned ++ [(reconnected, stillDead)] ∧
      reconnected + stillDead = dead p.closed p.clients ∧
      dead p'.closed p'.clients = stillDead ∧ ((∀ b ∈ dials, b = true) → stillDead = 0) := by
  intro p p'
  obtain ⟨hsound, -, hkept⟩ := (sound_start n).run acts
  have hclients : dials.length = p.clients.length := by
    rw [hlen, ← List.Forall₂.length_eq hkept]
    exact List.length_range.symm
  have hrun : p' = Runs.run step (Runs.run step (p.step .reconnectDead) (dials.map .visit))
      [.visit false] := Runs.run_append (p.step .reconnectDead) _ _
  have hnot : p.healing.isSome ≠ true := by
    rw [hidle]
    exact Bool.false_ne_true
  by_cases hdead : ∃ k ∈ p.clients, k ∈ p.closed
  · have hstep : p.step .reconnectDead = { p with healing := some ⟨p.clients, 0, 0, 0⟩ } := by
      show ite _ _ (ite _ _ _) = _
      rw [if_neg hnot, if_pos hdead]
    let q : CopyPool := { p with healing := some ⟨p.clients, 0, 0, 0⟩ }
    have hhealing : q.healing =
        some ⟨[] ++ p.clients, ([] : List ℕ).length, 0, dead q.closed []⟩ := rfl
    obtain ⟨done, r, made, -, hcount, hkeep, hdial, hvisits⟩ :=
      visits_spec dials (p := q) hsound.closed hclients hhealing
    have hend : p' = { p with
        clients := if 0 < r then done else p.clients
        made := made
        healing := none
        returned := p.returned ++ [(r, dead p.closed done)] } := by
      rw [hrun, hstep]
      show Runs.run step (Runs.run step q (dials.map .visit)) [.visit false] = _
      rw [hvisits]
      have hplace : done[done.length]? = none := List.getElem?_eq_none (Nat.le_refl _)
      show CopyPool.visit _ ⟨done, done.length, r, dead q.closed done⟩ false = _
      simp only [CopyPool.visit, hplace, q]
    have hlist : (if 0 < r then done else p.clients) = done := by
      split_ifs with hpos
      · rfl
      · exact (hkeep (Nat.eq_zero_of_not_pos hpos)).symm
    rw [hend, hlist]
    refine ⟨r, dead p.closed done, rfl, rfl, ?_, rfl, fun hall => ?_⟩
    · rw [hcount]
      show 0 + 0 + dead p.closed p.clients = _
      omega
    · exact hdial hall
  · have hnone : dead p.closed p.clients = 0 := by
      refine List.countP_eq_zero.2 fun k hk h => hdead ⟨k, hk, of_decide_eq_true h⟩
    have hstep : p.step .reconnectDead = { p with returned := p.returned ++ [(0, 0)] } := by
      show ite _ _ (ite _ _ _) = _
      rw [if_neg hnot, if_neg hdead]
    have hidle' : ∀ (q : CopyPool), q.healing = none → ∀ bs : List Bool,
        Runs.run step q (bs.map .visit) = q := by
      intro q hq bs
      induction bs with
      | nil => rfl
      | cons b bs ih =>
        show Runs.run step (q.step (.visit b)) _ = q
        rw [show q.step (.visit b) = q by simp only [CopyPool.step, hq]]
        exact ih
    let q : CopyPool := { p with returned := p.returned ++ [(0, 0)] }
    have hq : q.healing = none := hidle
    have hend : p' = q := by
      rw [hrun, hstep]
      show Runs.run step (Runs.run step q (dials.map .visit)) ([false].map .visit) = q
      rw [hidle' q hq dials]
      exact hidle' q hq [false]
    rw [hend]
    exact ⟨0, 0, hidle, rfl, hnone.symm, hnone, fun _ => rfl⟩

/-- One of two connections is lost, and comes back. -/
theorem reconnect_dead_heals_one :
    let p := Runs.run step (start 2) [.lose 0]
    let p' := Runs.run step p [.reconnectDead, .visit true, .visit true, .visit false]
    p'.clients = [2, 1] ∧ ∃ reconnected stillDead, p'.healing = none ∧
      p'.returned = p.returned ++ [(reconnected, stillDead)] ∧
      reconnected + stillDead = dead p.closed p.clients ∧
      dead p'.closed p'.clients = stillDead ∧ ((∀ b ∈ [true, true], b = true) → stillDead = 0) :=
  ⟨by decide, reconnect_dead_heals 2 [.lose 0] [true, true] rfl rfl⟩

end CopyPool

end AuraEpics.Store

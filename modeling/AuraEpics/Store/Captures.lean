import AuraEpics.Store.Writer
import AuraEpics.Lib.Runs

/-!
# Captures and their rows

`ArrayWriter::push` (`crates/aura-store/src/writer/array.rs`, lines 232-292) makes one row of
every element of a capture. What groups them again is the `array_id`, drawn from a counter of
the process (lines 44-49) that all writers share.

* `ArrayProcess`: the counter and the writers, with the calls that push captures and empty
  buffers;
* `Exploded`: rows that hold the elements in order;
* `drawn`: the ids the captures of a run are given, in order.

Result: `push_explodes`, what a push does in any state of a run, and when two captures are
given the same id: the counter comes back to an id after `2 ^ 64` captures.
-/

namespace AuraEpics.Store

open Numeric Runs

/-- The rows hold the values, in order and numbered from 0. -/
def Exploded {V R : Type} (row : Int32 → V → R) (values : List V) (rows : List R) : Prop :=
  rows.length = values.length ∧
    ∀ (k : ℕ) value, values[k]? = some value →
      ∃ idx : Int32, idx.toInt = k ∧ rows[k]? = some (row idx value)

/-- The rows that `push` numbers from 0, when an `i32` holds every index. -/
theorem exploded_zipIdx {V R : Type} (row : Int32 → V → R) {values : List V}
    (hlen : values.length < 2 ^ 31) :
    Exploded row values (values.zipIdx.map fun p => row (.ofNat p.2) p.1) := by
  refine ⟨by simp, fun k value hk => ⟨.ofNat k, ?_, ?_⟩⟩
  · obtain ⟨hlt, -⟩ := List.getElem?_eq_some_iff.1 hk
    apply Int32.toInt_ofNat_of_lt
    omega
  · rw [List.getElem?_map, List.getElem?_zipIdx, hk]
    simp

namespace ArrayWriter

/-- The two `mem::take` of `take_flush_bundle` (mod.rs, lines 352-353). -/
def take (w : ArrayWriter) : ArrayWriter := { w with numBuffer := [], strBuffer := [] }

/-- What a push comes to. -/
theorem push_cases (w : ArrayWriter) (c : ArrayCapture) :
    (c.len = 0 ∧ w.push c = (.accepted, w)) ∨
    (c.len ≠ 0 ∧ w.push c =
      (.backpressureExceeded, { w with totalBackpressure := w.totalBackpressure + 1 })) ∨
    (c.len ≠ 0 ∧ (w.push c).1 ≠ .backpressureExceeded ∧
      (w.push c).2.nextArrayId = w.nextArrayId + 1 ∧
      match c.data with
      | .numeric values =>
        (w.push c).2.numBuffer = w.numBuffer ++ numRows c w.nextArrayId values ∧
          (w.push c).2.strBuffer = w.strBuffer
      | .string values =>
        (w.push c).2.strBuffer = w.strBuffer ++ strRows c w.nextArrayId values ∧
          (w.push c).2.numBuffer = w.numBuffer) := by
  unfold push
  split_ifs with hempty hfull
  · exact .inl ⟨hempty, rfl⟩
  · exact .inr (.inl ⟨hempty, rfl⟩)
  · refine .inr (.inr ⟨hempty, ?_, ?_, ?_⟩)
    · show (if _ then PushResult.full else .accepted) ≠ _
      split_ifs <;> simp
    · rcases c with ⟨time, pvId, sev, st, values | values⟩ <;> rfl
    · rcases c with ⟨time, pvId, sev, st, values | values⟩
      · exact ⟨rfl, rfl⟩
      · exact ⟨rfl, rfl⟩

end ArrayWriter

/-- The array writers of a process with the counter they share (`NEXT_ARRAY_ID`, line 45). -/
structure ArrayProcess (ι : Type) where
  nextArrayId : Int64
  writers : ι → ArrayWriter

/-- Calls on one of the writers. -/
inductive ArrayCall (ι : Type) where
  | push (i : ι) (c : ArrayCapture)
  | take (i : ι)
  | discard (i : ι)

namespace ArrayProcess

variable {ι : Type} [DecidableEq ι]

/-- A process before any capture. -/
def new (batchSize : ι → ℕ) : ArrayProcess ι := ⟨1, fun i => .new (batchSize i)⟩

/-- A push of a writer, which draws from the counter of the process. -/
def push (p : ArrayProcess ι) (i : ι) (c : ArrayCapture) : PushResult × ArrayProcess ι :=
  let (result, w) := ({ p.writers i with nextArrayId := p.nextArrayId }).push c
  (result, ⟨w.nextArrayId, Function.update p.writers i w⟩)

/-- One call. -/
def step (p : ArrayProcess ι) : ArrayCall ι → ArrayProcess ι
  | .push i c => (p.push i c).2
  | .take i => ⟨p.nextArrayId, Function.update p.writers i (p.writers i).take⟩
  | .discard i => ⟨p.nextArrayId, Function.update p.writers i (p.writers i).discard⟩

/-- The id an accepted capture is given. -/
def drawnBy (p : ArrayProcess ι) : ArrayCall ι → List Int64
  | .push i c => if c.len ≠ 0 ∧ (p.push i c).1 ≠ .backpressureExceeded then [p.nextArrayId] else []
  | _ => []

/-- The ids the captures of a run are given, in order. -/
def drawn (p : ArrayProcess ι) (calls : List (ArrayCall ι)) : List Int64 :=
  outputs step drawnBy p calls

/-- A push: an empty capture leaves no trace, a rejected one changes neither the buffers nor the
    two counters, and an accepted one appends its elements under the id it is given. -/
structure PushExplodes (p : ArrayProcess ι) (i : ι) (c : ArrayCapture) : Prop where
  others : ∀ j, j ≠ i → (p.push i c).2.writers j = p.writers j
  unchanged : c.len = 0 ∨ (p.push i c).1 = .backpressureExceeded →
    p.drawnBy (.push i c) = [] ∧
      (p.push i c).2.nextArrayId = p.nextArrayId ∧
      ((p.push i c).2.writers i).numBuffer = (p.writers i).numBuffer ∧
      ((p.push i c).2.writers i).strBuffer = (p.writers i).strBuffer ∧
      ((p.push i c).2.writers i).currentBytes = (p.writers i).currentBytes
  appended : c.len ≠ 0 → (p.push i c).1 ≠ .backpressureExceeded →
    ∃ aid, p.drawnBy (.push i c) = [aid] ∧
      match c.data with
      | .numeric values => ∃ rows,
        Exploded (fun idx value =>
          ⟨pgMicros c.time, c.pvId, aid, idx, value, c.severity, c.status⟩) values rows ∧
        ((p.push i c).2.writers i).numBuffer = (p.writers i).numBuffer ++ rows ∧
        ((p.push i c).2.writers i).strBuffer = (p.writers i).strBuffer
      | .string values => ∃ rows,
        Exploded (fun idx value =>
          ⟨pgMicros c.time, c.pvId, aid, idx, value, c.severity, c.status⟩) values rows ∧
        ((p.push i c).2.writers i).strBuffer = (p.writers i).strBuffer ++ rows ∧
        ((p.push i c).2.writers i).numBuffer = (p.writers i).numBuffer

theorem push_writer (p : ArrayProcess ι) (i : ι) (c : ArrayCapture) :
    (p.push i c).2.writers i =
      (({ p.writers i with nextArrayId := p.nextArrayId } : ArrayWriter).push c).2 :=
  Function.update_self i _ _

theorem pushExplodes (p : ArrayProcess ι) (i : ι) {c : ArrayCapture} (hlen : c.len < 2 ^ 31) :
    p.PushExplodes i c := by
  set w : ArrayWriter := { p.writers i with nextArrayId := p.nextArrayId } with hw
  have hresult : (p.push i c).1 = (w.push c).1 := rfl
  have hnext : (p.push i c).2.nextArrayId = (w.push c).2.nextArrayId := rfl
  have hwriter : (p.push i c).2.writers i = (w.push c).2 := push_writer p i c
  refine ⟨fun j hj => Function.update_of_ne hj _ _, ?_, ?_⟩
  · intro hno
    have hdrawn : p.drawnBy (.push i c) = [] := by
      refine if_neg fun hyes => ?_
      rcases hno with hempty | hfull
      · exact hyes.1 hempty
      · exact hyes.2 hfull
    rw [hdrawn, hnext, hwriter]
    rcases w.push_cases c with ⟨-, hpush⟩ | ⟨-, hpush⟩ | ⟨hne, haccepted, -⟩
    · rw [hpush]
      exact ⟨rfl, rfl, rfl, rfl, rfl⟩
    · rw [hpush]
      exact ⟨rfl, rfl, rfl, rfl, rfl⟩
    · rcases hno with hempty | hfull
      · exact absurd hempty hne
      · exact absurd hfull haccepted
  · intro hne haccepted
    refine ⟨p.nextArrayId, if_pos ⟨hne, haccepted⟩, ?_⟩
    rw [hwriter]
    rcases w.push_cases c with ⟨hempty, -⟩ | ⟨-, hpush⟩ | ⟨-, -, -, hrows⟩
    · exact absurd hempty hne
    · exact absurd (hresult.trans (congrArg Prod.fst hpush)) haccepted
    · rcases c with ⟨time, pvId, sev, st, values | values⟩
      · exact ⟨_, exploded_zipIdx _ hlen, hrows.1, hrows.2⟩
      · exact ⟨_, exploded_zipIdx _ hlen, hrows.1, hrows.2⟩

/-! ## The ids of a run -/

/-- A call draws the next id and counts up, or leaves the counter. -/
theorem drawnBy_cases (p : ArrayProcess ι) (call : ArrayCall ι) :
    (p.drawnBy call = [p.nextArrayId] ∧ (p.step call).nextArrayId = p.nextArrayId + 1) ∨
      (p.drawnBy call = [] ∧ (p.step call).nextArrayId = p.nextArrayId) := by
  cases call with
  | push i c =>
    set w : ArrayWriter := { p.writers i with nextArrayId := p.nextArrayId } with hw
    have hnext : (p.step (.push i c)).nextArrayId = (w.push c).2.nextArrayId := rfl
    have hresult : (p.push i c).1 = (w.push c).1 := rfl
    rw [hnext]
    rcases w.push_cases c with ⟨hempty, hpush⟩ | ⟨-, hpush⟩ | ⟨hne, haccepted, hid, -⟩
    · refine .inr ⟨if_neg fun h => h.1 hempty, ?_⟩
      rw [hpush]
    · refine .inr ⟨if_neg fun h => h.2 (hresult.trans (congrArg Prod.fst hpush)), ?_⟩
      rw [hpush]
    · exact .inl ⟨if_pos ⟨hne, haccepted⟩, hid⟩
  | take i => exact .inr ⟨rfl, rfl⟩
  | discard i => exact .inr ⟨rfl, rfl⟩

/-- The ids are consecutive values of the counter. -/
theorem drawn_eq (p : ArrayProcess ι) (calls : List (ArrayCall ι)) :
    p.drawn calls = (List.range (p.drawn calls).length).map fun k => p.nextArrayId + .ofNat k := by
  unfold drawn
  induction calls generalizing p with
  | nil => rfl
  | cons call calls ih =>
    show p.drawnBy call ++ outputs step drawnBy (p.step call) calls =
      (List.range (p.drawnBy call ++ outputs step drawnBy (p.step call) calls).length).map _
    rcases drawnBy_cases p call with ⟨hdrawn, hnext⟩ | ⟨hdrawn, hnext⟩
    · rw [hdrawn, List.singleton_append, List.length_cons, List.range_succ_eq_map, List.map_cons,
        List.map_map]
      congr 1
      · exact (Int64.add_zero _).symm
      · rw [ih (p.step call), List.length_map, List.length_range, hnext]
        refine List.map_congr_left fun k _ => ?_
        show p.nextArrayId + 1 + .ofNat k = p.nextArrayId + .ofNat (k + 1)
        rw [Int64.add_assoc, Int64.ofNat_add, Int64.add_comm 1]
        rfl
    · rw [hdrawn, List.nil_append]
      refine (ih (p.step call)).trans ?_
      rw [hnext]

theorem drawn_inj {p : ArrayProcess ι} {calls : List (ArrayCall ι)} {j k : ℕ}
    (hj : j < (p.drawn calls).length) (hk : k < (p.drawn calls).length) :
    (p.drawn calls)[j] = (p.drawn calls)[k] ↔ j % 2 ^ 64 = k % 2 ^ 64 := by
  have hid : ∀ n (h : n < (p.drawn calls).length),
      (p.drawn calls)[n] = p.nextArrayId + .ofNat n := by
    intro n h
    rw [List.getElem_of_eq (drawn_eq p calls), List.getElem_map, List.getElem_range]
  rw [hid j hj, hid k hk, Int64.add_right_inj, ← Int64.toBitVec_inj, ← BitVec.toNat_inj]
  show j % 2 ^ 64 = k % 2 ^ 64 ↔ _
  rfl

/-- **Main theorem.** In every state of a run a push of fewer than `2 ^ 31` elements explodes its
    capture, and the captures of a run share an id only when their numbers are equal modulo
    `2 ^ 64`. -/
theorem push_explodes (p : ArrayProcess ι) (calls : List (ArrayCall ι)) (i : ι) (c : ArrayCapture)
    (hlen : c.len < 2 ^ 31) :
    (run step p calls).PushExplodes i c ∧
      ∀ j k (hj : j < (p.drawn calls).length) (hk : k < (p.drawn calls).length),
        (p.drawn calls)[j] = (p.drawn calls)[k] ↔ j % 2 ^ 64 = k % 2 ^ 64 :=
  ⟨pushExplodes _ i hlen, fun _ _ hj hk => drawn_inj hj hk⟩

/-- A capture of two numbers. -/
def pair : ArrayCapture := ⟨.epoch, 7, 0, 0, .numeric [.one, .zero]⟩

theorem push_explodes_pair :
    let p : ArrayProcess Unit := new fun _ => 200
    (run step p [.push () pair, .take ()]).PushExplodes () pair ∧
      ∀ j k (hj : j < (p.drawn [.push () pair, .take ()]).length)
        (hk : k < (p.drawn [.push () pair, .take ()]).length),
        (p.drawn [.push () pair, .take ()])[j] = (p.drawn [.push () pair, .take ()])[k] ↔
          j % 2 ^ 64 = k % 2 ^ 64 :=
  push_explodes (new fun _ => 200) [.push () pair, .take ()] () pair (by decide)

/-! ## The counter comes back -/

theorem push_of_isEmpty {w : ArrayWriter} {c : ArrayCapture} (hw : w.isEmpty) (hc : c.len ≠ 0) :
    (w.push c).1 ≠ .backpressureExceeded := by
  unfold ArrayWriter.push
  rw [if_neg hc, if_neg fun h => h.1 hw]
  show (if _ then PushResult.full else .accepted) ≠ _
  split_ifs <;> simp

/-- The capture is pushed `n` times, and the buffers are taken after each. -/
def pushTake (i : ι) (c : ArrayCapture) (n : ℕ) : List (ArrayCall ι) :=
  (List.replicate n [ArrayCall.push i c, .take i]).flatten

/-- Of a writer whose buffers are taken after every capture no capture is rejected. -/
theorem length_drawn_pushTake {p : ArrayProcess ι} {i : ι} {c : ArrayCapture}
    (hp : (p.writers i).isEmpty) (hc : c.len ≠ 0) (n : ℕ) :
    (p.drawn (pushTake i c n)).length = n := by
  induction n generalizing p with
  | zero => rfl
  | succ n ih =>
    have haccepted : (p.push i c).1 ≠ .backpressureExceeded := push_of_isEmpty hp hc
    have hdrawn : p.drawnBy (.push i c) = [p.nextArrayId] := if_pos ⟨hc, haccepted⟩
    show (p.drawnBy (.push i c) ++ ([] ++ outputs step drawnBy ((p.push i c).2.step (.take i))
      (pushTake i c n))).length = n + 1
    rw [hdrawn, List.nil_append, List.singleton_append, List.length_cons]
    refine congrArg (· + 1) (ih ?_)
    show ((ArrayProcess.step (p.push i c).2 (.take i)).writers i).isEmpty
    rw [show (ArrayProcess.step (p.push i c).2 (.take i)).writers i =
      ((p.push i c).2.writers i).take from Function.update_self i _ _]
    exact ⟨rfl, rfl⟩

/-- After `2 ^ 64` captures the next one is given the id of the first. -/
theorem id_comes_back :
    ¬((new fun _ : Unit => 200).drawn (pushTake () pair (2 ^ 64 + 1))).Nodup := by
  intro hnodup
  have hlength := length_drawn_pushTake (p := new fun _ : Unit => 200) (i := ()) (c := pair)
    ⟨rfl, rfl⟩ (by decide) (2 ^ 64 + 1)
  generalize pushTake () pair (2 ^ 64 + 1) = calls at hnodup hlength
  have hfirst : 0 < ((new fun _ : Unit => 200).drawn calls).length := by omega
  have hlast : 2 ^ 64 < ((new fun _ : Unit => 200).drawn calls).length := by omega
  have hsame := (drawn_inj hfirst hlast).2 (by norm_num)
  have hindex := (hnodup.getElem_inj_iff).1 hsame
  omega

end ArrayProcess

end AuraEpics.Store

import AuraEpics.Store.Conservation
import AuraEpics.Lib.Admission

/-!
# Accounting for ingested rows

Every row the loop takes out of a shared buffer or the fallback channel is counted
as stored, whether or not a writer took it, and none is counted as lost. Whether a
row is appended is decided by the gate of its writer, so that for a batch as a
whole it can be read off the writers' byte counters and the sizes of the rows.

Result: `ingestAccounting_iff`, a pass accounts for the rows it takes exactly when
all of them are appended; the drain at shutdown, which counts nothing as stored,
exactly when there is nothing to drain.
-/

namespace AuraEpics.Store

open AuraEpics.Core Admission

/-! ## Rows appended -/

namespace BatchWriter

/-- One if the buffers have grown from `b` to `b'`. -/
def grew (b b' : BatchWriter) : ℕ := if b.totalBuffered < b'.totalBuffered then 1 else 0

/-- Of the items handed over with `step` one by one, how many were appended to a
    buffer. An array capture is one item. -/
def appendedBy {α : Type} (step : BatchWriter → α → BatchWriter) : BatchWriter → List α → ℕ
  | _, [] => 0
  | b, a :: as => b.grew (step b a) + appendedBy step (step b a) as

/-- Rows of the shared buffers appended. -/
def appendedShards (b : BatchWriter) : List Shard → ℕ
  | [] => 0
  | sh :: rest =>
    ((b.ingestScalars sh.scalars).totalBuffered - b.totalBuffered) +
      appendedBy (fun b r => (b.pushOther r).2) (b.ingestScalars sh.scalars) sh.others +
      (b.ingestShard sh).appendedShards rest

end BatchWriter

/-- Rows in the shared buffers. -/
def shardRows (shards : List Shard) : ℕ :=
  (shards.map fun sh => sh.scalars.length + sh.others.length).sum

namespace StoreLoop

/-- Rows a pass takes. -/
def taken (s : StoreLoop) (shards : List Shard) (fallback : List FallbackUpdate) : ℕ :=
  if s.pendingRetry.isNone then shardRows shards + (fallback.take fallbackBatch).length else 0

/-- Rows a pass appends. -/
def appended (f : Formats) (s : StoreLoop) (shards : List Shard) (fallback : List FallbackUpdate) :
    ℕ :=
  if s.pendingRetry.isNone then
    s.writer.appendedShards shards +
      BatchWriter.appendedBy (BatchWriter.dispatchFallback f)
        (shards.foldl BatchWriter.ingestShard s.writer) (fallback.take fallbackBatch)
  else 0

/-- From `s` to `s'` the rows `taken` are appended or lost, and the appended ones are
    the ones counted as stored. -/
def AccountsFor (s s' : StoreLoop) (taken appended : ℕ) : Prop :=
  appended + s'.rowsLost = taken + s.rowsLost ∧ s'.totalStored = s.totalStored + appended

end StoreLoop

/-! ## The gates of the writers -/

/-- The five buffers. -/
inductive RowKind where
  | scalar | string | array | json | image
  deriving DecidableEq

namespace StoredRow

/-- The buffer a row goes to. -/
def kind : StoredRow → RowKind
  | scalar _ => .scalar
  | other (.string _) => .string
  | other (.array _) => .array
  | other (.json _) => .json
  | other (.image _) => .image

/-- The size its writer accounts for. -/
def size : StoredRow → ℕ
  | scalar _ => scalarRowMemSize
  | other (.string r) => r.memSize
  | other (.array c) => c.estBytes
  | other (.json r) => r.memSize
  | other (.image r) => r.memSize

end StoredRow

/-- The gate of a writer with a byte counter. -/
def RowWriter.gate {ρ : Type} (w : RowWriter ρ) : Gate := ⟨w.maxBufferBytes, w.buffer ≠ [], w.currentBytes⟩

/-- The gate of a buffer. -/
def BatchWriter.gate (b : BatchWriter) : RowKind → Gate
  | .scalar =>
    ⟨b.scalar.maxBufferBytes, b.scalar.buffer ≠ [], b.scalar.buffer.length * scalarRowMemSize⟩
  | .string => b.string.gate
  | .array => ⟨b.array.maxBufferBytes, ¬b.array.isEmpty, b.array.currentBytes⟩
  | .json => b.json.gate
  | .image => b.image.gate

theorem RowWriter.push_gate {ρ : Type} (size : ρ → ℕ) (w : RowWriter ρ) (row : ρ) :
    ((w.push size row).1.isAccepted = true ↔ w.gate.Admits (size row)) ∧
      (w.gate.Admits (size row) → (w.push size row).2.gate = w.gate.take (size row)) := by
  unfold push gate Gate.Admits Gate.take
  by_cases hfull : w.buffer ≠ [] ∧ w.maxBufferBytes < w.currentBytes + size row
  · simp [hfull, PushResult.isAccepted]
  · rw [if_neg hfull]
    refine ⟨⟨fun _ => by simpa using hfull, fun _ => ?_⟩, fun _ => by simp⟩
    dsimp only
    split_ifs <;> rfl

theorem ScalarWriter.push_gate (b : BatchWriter) (row : ScalarRow) :
    ((b.scalar.push row).1.isAccepted = true ↔ (b.gate .scalar).Admits scalarRowMemSize) ∧
      ((b.gate .scalar).Admits scalarRowMemSize →
        ({ b with scalar := (b.scalar.push row).2 } : BatchWriter).gate .scalar =
          (b.gate .scalar).take scalarRowMemSize) := by
  unfold push BatchWriter.gate Gate.Admits Gate.take
  dsimp only
  by_cases hfull : b.scalar.buffer ≠ [] ∧
      b.scalar.maxBufferBytes < b.scalar.buffer.length * scalarRowMemSize + scalarRowMemSize
  · simp [hfull, PushResult.isAccepted]
  · rw [if_neg hfull]
    refine ⟨⟨fun _ => by simpa using hfull, fun _ => ?_⟩, fun _ => by simp [Nat.add_mul]⟩
    dsimp only
    split_ifs <;> rfl

theorem ArrayWriter.push_gate (b : BatchWriter) (c : ArrayCapture) (hc : 0 < c.len) :
    ((b.array.push c).1.isAccepted = true ↔ (b.gate .array).Admits c.estBytes) ∧
      ((b.gate .array).Admits c.estBytes →
        ({ b with array := (b.array.push c).2 } : BatchWriter).gate .array =
          (b.gate .array).take c.estBytes) := by
  unfold push BatchWriter.gate Gate.Admits Gate.take
  dsimp only
  rw [if_neg (by omega : ¬c.len = 0)]
  by_cases hfull : ¬b.array.isEmpty ∧ b.array.maxBufferBytes < b.array.currentBytes + c.estBytes
  · simp [hfull, PushResult.isAccepted]
  · rw [if_neg hfull]
    refine ⟨⟨fun _ => by simpa using hfull, fun _ => ?_⟩, fun _ => ?_⟩
    · dsimp only
      split_ifs <;> rfl
    · rcases c with ⟨time, pvId, sev, st, values | values⟩ <;> cases values <;>
        simp_all [ArrayCapture.len, isEmpty, numRows, strRows]

/-! ## Rows passing the gates -/

/-- Sizes of the rows for the buffer `k`. -/
def sizesOf (k : RowKind) (rows : List StoredRow) : List ℕ :=
  (rows.filter fun r => r.kind = k).map StoredRow.size

/-- No row is empty, and every row passes the gate of its buffer. -/
def Passes (g : RowKind → Gate) (rows : List StoredRow) : Prop :=
  (∀ r ∈ rows, 0 < r.units) ∧ ∀ k, (g k).AdmitsAll (sizesOf k rows)

/-- The gates after `rows`. -/
def gatesAfter (g : RowKind → Gate) (rows : List StoredRow) (k : RowKind) : Gate :=
  (g k).takeAll (sizesOf k rows)

theorem sizesOf_append (k : RowKind) (xs ys : List StoredRow) :
    sizesOf k (xs ++ ys) = sizesOf k xs ++ sizesOf k ys := by
  simp [sizesOf]

theorem passes_append (g : RowKind → Gate) (xs ys : List StoredRow) :
    Passes g (xs ++ ys) ↔ Passes g xs ∧ Passes (gatesAfter g xs) ys := by
  simp only [Passes, gatesAfter, sizesOf_append, Gate.admitsAll_append, List.mem_append, or_imp,
    forall_and]
  tauto

theorem gatesAfter_append (g : RowKind → Gate) (xs ys : List StoredRow) :
    gatesAfter g (xs ++ ys) = gatesAfter (gatesAfter g xs) ys := by
  funext k
  rw [gatesAfter, sizesOf_append, Gate.takeAll_append]
  rfl

theorem passes_singleton (g : RowKind → Gate) (row : StoredRow) :
    Passes g [row] ↔ 0 < row.units ∧ (g row.kind).Admits row.size := by
  simp only [Passes, sizesOf, List.mem_singleton, forall_eq, List.filter_singleton,
    and_congr_right_iff]
  intro _
  constructor
  · intro h
    simpa [Gate.AdmitsAll] using h row.kind
  · intro h k
    by_cases hk : row.kind = k
    · subst hk
      simpa [Gate.AdmitsAll] using h
    · simp [hk, Gate.AdmitsAll]

theorem gatesAfter_singleton (g : RowKind → Gate) (row : StoredRow) (k : RowKind) :
    gatesAfter g [row] k = if row.kind = k then (g k).take row.size else g k := by
  by_cases hk : row.kind = k <;> simp [gatesAfter, sizesOf, hk, Gate.takeAll]

namespace BatchWriter

/-- From `b` to `b'` the row was offered to its writer: it has been appended if it
    passes, and then its gate has moved on. -/
structure Offered (b b' : BatchWriter) (row : StoredRow) : Prop where
  grew : b.grew b' = 1 ↔ Passes b.gate [row]
  gate : Passes b.gate [row] → b'.gate = gatesAfter b.gate [row]

theorem grew_le (b b' : BatchWriter) : b.grew b' ≤ 1 := by
  unfold BatchWriter.grew
  split_ifs <;> omega

theorem grew_pushRow_iff (b : BatchWriter) (row : StoredRow) :
    b.grew (b.pushRow row).2 = 1 ↔ 0 < row.units ∧ (b.pushRow row).1.isAccepted = true := by
  rw [grew, pushRow_totalBuffered, acceptedRow]
  cases (b.pushRow row).1.isAccepted <;> simp

theorem offered_pushRow (b : BatchWriter) (row : StoredRow) : Offered b (b.pushRow row).2 row := by
  have hpush : 0 < row.units → (((b.pushRow row).1.isAccepted = true ↔
      (b.gate row.kind).Admits row.size) ∧ ((b.gate row.kind).Admits row.size →
        (b.pushRow row).2.gate row.kind = (b.gate row.kind).take row.size)) := by
    intro hpos
    rcases row with r | (r | c | r | r)
    · exact ScalarWriter.push_gate b r
    · exact RowWriter.push_gate StringRow.memSize b.string r
    · exact ArrayWriter.push_gate b c hpos
    · exact RowWriter.push_gate JsonRow.memSize b.json r
    · exact RowWriter.push_gate ImageRow.memSize b.image r
  refine ⟨?_, fun hpass => ?_⟩
  · rw [grew_pushRow_iff, passes_singleton]
    exact and_congr_right fun hpos => (hpush hpos).1
  · obtain ⟨hpos, hadmits⟩ := (passes_singleton _ _).1 hpass
    funext k
    rw [gatesAfter_singleton]
    by_cases hk : row.kind = k
    · subst hk
      rw [if_pos rfl]
      exact (hpush hpos).2 hadmits
    · -- the other writers have not been touched
      rw [if_neg hk]
      rcases row with r | (r | c | r | r) <;> cases k <;>
        first | rfl | exact absurd rfl hk

theorem offered_dispatchFallback {f : Formats} {u : FallbackUpdate} {row : StoredRow}
    (h : fallbackRow f u = some row) (b : BatchWriter) : Offered b (b.dispatchFallback f u) row := by
  obtain ⟨pvId, hid, hrow⟩ := Option.bind_eq_some_iff.1 h
  have hok : rowOf f u.update pvId .valueChanged = .ok row := by
    cases hr : rowOf f u.update pvId .valueChanged with
    | ok row' =>
      rw [hr] at hrow
      cases hrow
      rfl
    | error e =>
      rw [hr] at hrow
      cases hrow
  have hdispatch : b.dispatchFallback f u = b.dispatchWithId f u.update pvId .valueChanged := by
    unfold fallbackId at hid
    unfold dispatchFallback
    cases hc : u.cached with
    | some id =>
      rw [hc] at hid
      cases hid
      rfl
    | none =>
      rw [hc] at hid
      cases hr : u.resolved with
      | ok id =>
        rw [hr] at hid
        cases hid
        rfl
      | error e =>
        rw [hr] at hid
        cases hid
  have hoffered := offered_pushRow { b with totalDispatched := b.totalDispatched + 1 } row
  rw [hdispatch]
  unfold dispatchWithId
  dsimp only
  rw [hok]
  exact ⟨hoffered.grew, hoffered.gate⟩

theorem grew_dispatchFallback_of_none {f : Formats} {u : FallbackUpdate}
    (h : fallbackRow f u = none) (b : BatchWriter) : b.grew (b.dispatchFallback f u) = 0 := by
  rw [grew, dispatchFallback_totalBuffered, h]
  simp

/-! ## Batches -/

section Batch

variable {α : Type}

theorem appendedBy_le (step : BatchWriter → α → BatchWriter) (b : BatchWriter) (as : List α) :
    appendedBy step b as ≤ as.length := by
  induction as generalizing b with
  | nil => exact le_refl 0
  | cons a as ih =>
    have hhead := b.grew_le (step b a)
    have htail := ih (step b a)
    simp only [appendedBy, List.length_cons]
    omega

/-- All items are appended exactly when each is a row and the rows pass the gates. -/
theorem appendedBy_eq_length_iff (step : BatchWriter → α → BatchWriter)
    (row : α → Option StoredRow)
    (hrow : ∀ (b : BatchWriter) (a : α) (r : StoredRow), row a = some r → Offered b (step b a) r)
    (hnone : ∀ (b : BatchWriter) (a : α), row a = none → b.grew (step b a) = 0) (b : BatchWriter) (as : List α) :
    (appendedBy step b as = as.length ↔
      (∀ a ∈ as, (row a).isSome) ∧ Passes b.gate (as.filterMap row)) ∧
    (appendedBy step b as = as.length →
      (as.foldl step b).gate = gatesAfter b.gate (as.filterMap row)) := by
  induction as generalizing b with
  | nil =>
    refine ⟨iff_of_true rfl ⟨by simp, by simp, fun k => ?_⟩, fun _ => ?_⟩
    · exact trivial
    · rfl
  | cons a as ih =>
    have hhead := b.grew_le (step b a)
    have htail := appendedBy_le step (step b a) as
    have hsplit : appendedBy step b (a :: as) = (a :: as).length ↔
        b.grew (step b a) = 1 ∧ appendedBy step (step b a) as = as.length := by
      simp only [appendedBy, List.length_cons]
      omega
    rw [hsplit]
    cases ha : row a with
    | none =>
      have hzero := hnone b a ha
      simp [hzero, ha]
    | some r =>
      have hoffer := hrow b a r ha
      obtain ⟨hiff, hgate⟩ := ih (step b a)
      have hcons : (a :: as).filterMap row = [r] ++ as.filterMap row := by simp [ha]
      rw [hcons, passes_append, hoffer.grew, gatesAfter_append]
      simp only [List.forall_mem_cons, ha, Option.isSome_some, true_and, List.foldl_cons]
      constructor
      · constructor
        · rintro ⟨hpass, hrest⟩
          rw [← hoffer.gate hpass]
          exact ⟨(hiff.1 hrest).1, hpass, (hiff.1 hrest).2⟩
        · rintro ⟨hsome, hpass, hrest⟩
          rw [← hoffer.gate hpass] at hrest
          exact ⟨hpass, hiff.2 ⟨hsome, hrest⟩⟩
      · rintro ⟨hpass, hrest⟩
        rw [hgate hrest, hoffer.gate hpass]

end Batch

/-! ## Shared buffers -/

/-- The gates when `n` scalar rows have been put past the limit. -/
def gatesBehind (b : BatchWriter) (n : ℕ) : RowKind → Gate
  | .scalar => ⟨b.scalar.maxBufferBytes, b.scalar.buffer.length + n ≠ 0,
      (b.scalar.buffer.length + n) * scalarRowMemSize⟩
  | k => b.gate k

theorem ingestScalars_gate (b : BatchWriter) (rows : List ScalarRow) :
    (b.ingestScalars rows).gate = b.gatesBehind rows.length := by
  unfold ingestScalars
  split_ifs with hnil
  · subst hnil
    funext k
    cases k <;> simp [gatesBehind, gate]
  · funext k
    cases k <;> simp [gatesBehind, gate, hnil]

theorem gatesAfter_scalars (b : BatchWriter) (rows : List ScalarRow) :
    gatesAfter b.gate (rows.map .scalar) = b.gatesBehind rows.length := by
  have hsizes (k : RowKind) : sizesOf k (rows.map .scalar) =
      if k = .scalar then List.replicate rows.length scalarRowMemSize else [] := by
    induction rows with
    | nil => cases k <;> rfl
    | cons r rows ih =>
      cases k <;> simp_all [sizesOf, StoredRow.kind, StoredRow.size, List.replicate_succ]
  funext k
  rw [gatesAfter, hsizes]
  cases k with
  | scalar =>
    cases rows with
    | nil => simp [gatesBehind, gate, Gate.takeAll]
    | cons r rows =>
      rw [if_pos rfl, Gate.takeAll_of_ne_nil _ (by simp)]
      simp [gatesBehind, gate, Nat.add_mul]
  | _ => rfl

end BatchWriter

/-- The scalar rows of the shared buffers. -/
def scalarsOf (shards : List Shard) : List StoredRow := (shards.flatMap Shard.scalars).map .scalar

/-- The other rows of the shared buffers. -/
def othersOf (shards : List Shard) : List StoredRow := (shards.flatMap Shard.others).map .other

theorem sizesOf_scalars {k : RowKind} (hk : k ≠ .scalar) (xs : List ScalarRow) :
    sizesOf k (xs.map .scalar) = [] := by
  simp [sizesOf, List.filter_eq_nil_iff, StoredRow.kind, hk.symm]

theorem sizesOf_others (ys : List WriterRow) : sizesOf .scalar (ys.map .other) = [] := by
  have hkind : ∀ y : WriterRow, (StoredRow.other y).kind ≠ .scalar := by
    intro y
    cases y <;> simp [StoredRow.kind]
  simp [sizesOf, List.filter_eq_nil_iff, hkind]

/-- Scalar rows and other rows pass different gates. -/
theorem gatesAfter_comm (g : RowKind → Gate) (xs : List ScalarRow) (ys : List WriterRow) :
    gatesAfter g (ys.map .other ++ xs.map .scalar) =
      gatesAfter g (xs.map .scalar ++ ys.map .other) := by
  funext k
  rw [gatesAfter, gatesAfter, sizesOf_append, sizesOf_append]
  by_cases hk : k = .scalar
  · rw [hk, sizesOf_others, List.nil_append, List.append_nil]
  · rw [sizesOf_scalars hk, List.nil_append, List.append_nil]

theorem passes_after_scalars (g : RowKind → Gate) (xs : List ScalarRow) (ys : List WriterRow) :
    Passes (gatesAfter g (xs.map .scalar)) (ys.map .other) ↔ Passes g (ys.map .other) := by
  refine and_congr_right fun _ => forall_congr' fun k => ?_
  by_cases hk : k = .scalar
  · rw [hk, sizesOf_others]
    rfl
  · rw [gatesAfter, sizesOf_scalars hk]
    rfl

namespace BatchWriter

theorem appendedShards_le (b : BatchWriter) (shards : List Shard) :
    b.appendedShards shards ≤ shardRows shards := by
  induction shards generalizing b with
  | nil => exact le_refl 0
  | cons sh rest ih =>
    have hscalars := b.ingestScalars_totalBuffered sh.scalars
    have hothers := appendedBy_le (fun b r => (b.pushOther r).2)
      (b.ingestScalars sh.scalars) sh.others
    have hrest := ih (b.ingestShard sh)
    simp only [appendedShards, shardRows, List.map_cons, List.sum_cons] at hrest ⊢
    omega

theorem appendedOthers_eq_length_iff (b : BatchWriter) (rows : List WriterRow) :
    (appendedBy (fun b r => (b.pushOther r).2) b rows = rows.length ↔
      Passes b.gate (rows.map .other)) ∧
    (appendedBy (fun b r => (b.pushOther r).2) b rows = rows.length →
      (b.pushOthers rows).gate = gatesAfter b.gate (rows.map .other)) := by
  have h := appendedBy_eq_length_iff (fun b r => (b.pushOther r).2)
    (fun r => some (StoredRow.other r))
    (fun b a r hr => by cases hr; exact offered_pushRow b (.other a)) (fun b a ha => by cases ha)
    b rows
  simpa [pushOthers] using h

/-- The rows of the shared buffers are all appended exactly when those that are not
    scalar pass the gates. -/
theorem appendedShards_eq_iff (b : BatchWriter) (shards : List Shard) :
    (b.appendedShards shards = shardRows shards ↔ Passes b.gate (othersOf shards)) ∧
    (b.appendedShards shards = shardRows shards →
      (shards.foldl ingestShard b).gate =
        gatesAfter b.gate (scalarsOf shards ++ othersOf shards)) := by
  induction shards generalizing b with
  | nil =>
    refine ⟨iff_of_true rfl ⟨by simp [othersOf], fun k => ?_⟩, fun _ => rfl⟩
    exact trivial
  | cons sh rest ih =>
    have hscalars := b.ingestScalars_totalBuffered sh.scalars
    have hle := appendedBy_le (fun b r => (b.pushOther r).2)
      (b.ingestScalars sh.scalars) sh.others
    have hrestle := appendedShards_le (b.ingestShard sh) rest
    have hsplit : b.appendedShards (sh :: rest) = shardRows (sh :: rest) ↔
        appendedBy (fun b r => (b.pushOther r).2) (b.ingestScalars sh.scalars) sh.others =
            sh.others.length ∧
          (b.ingestShard sh).appendedShards rest = shardRows rest := by
      simp only [appendedShards, shardRows, List.map_cons, List.sum_cons] at hrestle ⊢
      omega
    have hothersOf : othersOf (sh :: rest) = sh.others.map .other ++ othersOf rest := by
      simp [othersOf]
    have hscalarsOf : scalarsOf (sh :: rest) = sh.scalars.map .scalar ++ scalarsOf rest := by
      simp [scalarsOf]
    have hfirst : (b.ingestScalars sh.scalars).gate = gatesAfter b.gate (sh.scalars.map .scalar) := by
      rw [ingestScalars_gate, gatesAfter_scalars]
    obtain ⟨hshard, hgate⟩ := appendedOthers_eq_length_iff (b.ingestScalars sh.scalars) sh.others
    obtain ⟨hrest, hgates⟩ := ih (b.ingestShard sh)
    rw [hfirst, passes_after_scalars] at hshard
    rw [hfirst, ← gatesAfter_append] at hgate
    rw [hsplit, hothersOf, passes_append, hshard]
    constructor
    · refine and_congr_right fun hpass => ?_
      rw [hrest]
      have hstate : (b.ingestShard sh).gate = _ := hgate (hshard.2 hpass)
      rw [hstate, ← gatesAfter_comm, gatesAfter_append]
      exact passes_after_scalars _ _ _
    · rintro ⟨hpass, hall⟩
      have hstate : (b.ingestShard sh).gate = _ := hgate (hshard.2 hpass)
      rw [List.foldl_cons, hgates hall, hstate, hscalarsOf, ← gatesAfter_append]
      simp only [gatesAfter_append]
      congr 1
      simpa only [gatesAfter_append, scalarsOf] using
        (gatesAfter_comm (gatesAfter b.gate (sh.scalars.map .scalar)) (rest.flatMap Shard.scalars)
          sh.others)

/-- Everything a batch brings can be appended: the fallback updates make rows, no row
    is empty, and in every buffer there is room, behind the shared scalar rows, for
    which there is no limit. -/
def HasRoom (f : Formats) (b : BatchWriter) (shards : List Shard) (us : List FallbackUpdate) : Prop :=
  (∀ u ∈ us, (fallbackRow f u).isSome) ∧
    (∀ r ∈ othersOf shards ++ us.filterMap (fallbackRow f), 0 < r.units) ∧
    ∀ k, (b.gatesBehind (shards.flatMap Shard.scalars).length k).Fits
      (sizesOf k (othersOf shards ++ us.filterMap (fallbackRow f)))

/-- A batch is appended as a whole exactly when there is room for it. -/
theorem appended_eq_iff (f : Formats) (b : BatchWriter) (shards : List Shard)
    (us : List FallbackUpdate) :
    b.appendedShards shards + appendedBy (dispatchFallback f) (shards.foldl ingestShard b) us =
      shardRows shards + us.length ↔ b.HasRoom f shards us := by
  have hle := b.appendedShards_le shards
  have hle' := appendedBy_le (dispatchFallback f) (shards.foldl ingestShard b) us
  have hsplit : b.appendedShards shards +
        appendedBy (dispatchFallback f) (shards.foldl ingestShard b) us =
        shardRows shards + us.length ↔
      b.appendedShards shards = shardRows shards ∧
        appendedBy (dispatchFallback f) (shards.foldl ingestShard b) us = us.length := by
    omega
  obtain ⟨hshards, hgates⟩ := b.appendedShards_eq_iff shards
  have hfallback := (appendedBy_eq_length_iff (dispatchFallback f) (fallbackRow f)
    (fun b u row h => offered_dispatchFallback h b)
    (fun b u h => grew_dispatchFallback_of_none h b) (shards.foldl ingestShard b) us).1
  have hroom : b.HasRoom f shards us ↔ (∀ u ∈ us, (fallbackRow f u).isSome) ∧
      Passes (gatesAfter b.gate (scalarsOf shards))
        (othersOf shards ++ us.filterMap (fallbackRow f)) := by
    simp only [HasRoom, Passes, scalarsOf, gatesAfter_scalars, Gate.admitsAll_iff_fits]
  rw [hsplit, hroom, passes_append, hfallback]
  have hothers : Passes (gatesAfter b.gate (scalarsOf shards)) (othersOf shards) ↔
      b.appendedShards shards = shardRows shards := by
    rw [hshards]
    exact passes_after_scalars _ _ _
  rw [hothers, ← gatesAfter_append]
  constructor
  · rintro ⟨hall, hsome, hpass⟩
    rw [hgates hall] at hpass
    exact ⟨hsome, hall, hpass⟩
  · rintro ⟨hsome, hall, hpass⟩
    rw [← hgates hall] at hpass
    exact ⟨hall, hsome, hpass⟩

end BatchWriter

/-! ## Main theorem -/

namespace StoreLoop

theorem finalFlush_totalStored (s : StoreLoop) (b : FlushBundle) (r : FlushRun) :
    (s.finalFlush b r).totalStored = s.totalStored := by
  unfold finalFlush
  split <;> rfl

/-- Nothing is counted as stored during the shutdown. -/
theorem shutdown_totalStored (s : StoreLoop) (d : Shutdown) :
    (s.shutdown d).totalStored = s.totalStored := by
  have hinflight : (s.shutdownInflight d.inflight).totalStored = s.totalStored := by
    unfold shutdownInflight
    split
    · rfl
    · dsimp only
      split
      · split <;> rfl
      · rfl
  have hretry (s : StoreLoop) : (s.shutdownRetry d.retry).totalStored = s.totalStored := by
    unfold shutdownRetry
    split
    · rfl
    · exact finalFlush_totalStored _ _ _
  have hflush (s : StoreLoop) : (s.shutdownFlush d.final).totalStored = s.totalStored := by
    unfold shutdownFlush
    split
    · rfl
    · exact finalFlush_totalStored _ _ _
  unfold shutdown shutdownDrained
  rw [hflush]
  exact (hretry _).trans hinflight

end StoreLoop

open StoreLoop

/-- **Main theorem**: a pass accounts for the rows it takes exactly when it takes none
    because a bundle is retained, or there is room for all of them; the drain at
    shutdown exactly when the shared buffers are empty. No row is counted as stored
    during the shutdown. -/
theorem ingestAccounting_iff (f : Formats) (s : StoreLoop) (shards : List Shard)
    (fallback : List FallbackUpdate) :
    (s.AccountsFor (s.ingest f shards fallback) (s.taken shards fallback)
        (s.appended f shards fallback) ↔
      s.pendingRetry.isSome ∨ s.writer.HasRoom f shards (fallback.take fallbackBatch)) ∧
    (s.AccountsFor (s.shutdownDrain shards) (shardRows shards) (s.writer.appendedShards shards) ↔
      shardRows shards = 0) ∧
    ∀ d, (s.shutdown d).totalStored = s.totalStored := by
  refine ⟨?_, ?_, s.shutdown_totalStored⟩
  · cases hp : s.pendingRetry with
    | some pr => simp [AccountsFor, ingest, taken, appended, hp]
    | none =>
      rw [← BatchWriter.appended_eq_iff]
      simp only [AccountsFor, ingest, taken, appended, hp, Option.isNone_none, if_true,
        Option.isSome_none, Bool.false_eq_true, false_or, shardRows]
      omega
  · have hle := s.writer.appendedShards_le shards
    simp only [AccountsFor, shutdownDrain]
    omega

/-- An update whose name is not in the PV cache and cannot be looked up is counted as
    stored. -/
theorem unresolvedUpdate_counted :
    ¬∀ (f : Formats) (s : StoreLoop) (shards : List Shard) (fallback : List FallbackUpdate),
      s.AccountsFor (s.ingest f shards fallback) (s.taken shards fallback)
        (s.appended f shards fallback) := by
  intro h
  let update : PvUpdate := ⟨"SR:C01:BPM1", none, .ntScalar ⟨.int 7, .default, ⟨0, 0, 0⟩, none, none, none⟩⟩
  obtain ⟨hrows, -⟩ := h ⟨fun _ => .ok [], fun _ => .ok .null, fun _ => ""⟩ (initial .default 1) []
    [⟨update, none, .error "connection refused"⟩]
  have hzero : 0 = 1 := hrows
  omega

end AuraEpics.Store

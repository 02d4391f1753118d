import AuraEpics.Store.Loop

/-!
# Accounting for JSON rows

A flush fans one list of JSON rows out to six builders, and a row of a destructured
table becomes as many COPY rows as its arrays have elements, possibly none. The
report and the lost rows are counted in COPY rows, `total_rows` counts JSON rows.

Result: `jsonAccounting`, in COPY rows a flush accounts for its whole bundle, and
every JSON row that makes a COPY row is committed, lost or retained; JSON rows
themselves are accounted for when each makes exactly one COPY row, and no loss goes
unreported by a stopped flush when none makes more than one.
-/

namespace AuraEpics.Store

open AuraEpics.Core

/-! ## COPY rows of tables and of rows -/

theorem tableCopyRows_cons (t : JsonTable) (r : JsonRow) (rows : List JsonRow) :
    tableCopyRows t (r :: rows) = (if r.table = t then r.copyRows else 0) + tableCopyRows t rows := by
  unfold tableCopyRows
  rw [List.filter_cons]
  by_cases h : r.table = t <;> simp [h]

theorem tableCopyRows_pos {r : JsonRow} {rows : List JsonRow} (hr : r ∈ rows) (hpos : 0 < r.copyRows) :
    0 < tableCopyRows r.table rows := by
  induction rows with
  | nil => cases hr
  | cons r' rows ih =>
    rw [tableCopyRows_cons]
    rcases List.mem_cons.1 hr with rfl | hr
    · rw [if_pos rfl]
      omega
    · have := ih hr
      omega

theorem tablesWeight_cons_row (r : JsonRow) (rows : List JsonRow) {ts : List JsonTable}
    (hts : ts.Nodup) :
    tablesWeight (r :: rows) ts =
      (if r.table ∈ ts then r.copyRows else 0) + tablesWeight rows ts := by
  induction ts with
  | nil => rfl
  | cons t ts ih =>
    obtain ⟨hnot, hnodup⟩ := List.nodup_cons.1 hts
    rw [tablesWeight_cons, tablesWeight_cons, ih hnodup, tableCopyRows_cons]
    by_cases h : r.table = t
    · subst h
      simp [hnot, Nat.add_assoc]
    · simp only [h, List.mem_cons, false_or, if_false]
      omega

/-- COPY rows of the rows whose table is among `ts`. -/
def rowsWeight (rows : List JsonRow) (ts : List JsonTable) : ℕ :=
  ((rows.filter fun r => r.table ∈ ts).map JsonRow.copyRows).sum

/-- Counted by table or by row, COPY rows are the same. -/
theorem tablesWeight_eq_rowsWeight (rows : List JsonRow) {ts : List JsonTable} (hts : ts.Nodup) :
    tablesWeight rows ts = rowsWeight rows ts := by
  induction rows with
  | nil =>
    induction ts with
    | nil => rfl
    | cons t ts ih => rw [tablesWeight_cons, ih (List.nodup_cons.1 hts).2]; rfl
  | cons r rows ih =>
    rw [tablesWeight_cons_row r rows hts, ih, rowsWeight, rowsWeight, List.filter_cons]
    by_cases h : r.table ∈ ts <;> simp [h]

theorem jsonPlan_nodup : jsonPlan.Nodup := by decide

theorem mem_jsonPlan (t : JsonTable) : t ∈ jsonPlan := by cases t <;> decide

theorem tablesWeight_jsonPlan (rows : List JsonRow) :
    tablesWeight rows jsonPlan = (rows.map JsonRow.copyRows).sum := by
  rw [tablesWeight_eq_rowsWeight rows jsonPlan_nodup, rowsWeight]
  simp [mem_jsonPlan]

theorem sum_copyRows_of_eq_one {rows : List JsonRow} (h : ∀ r ∈ rows, r.copyRows = 1) :
    (rows.map JsonRow.copyRows).sum = rows.length := by
  rw [List.map_congr_left h]
  simp

/-! ## The classes of a sorted plan -/

namespace Sorted

variable {answer : JsonTable → Option (Except CopyError Unit)} {rows : List JsonRow}
  {ts c d k : List JsonTable}

/-- No COPY row is in two classes or in none. -/
theorem weight (h : Sorted answer rows ts c d k) :
    tablesWeight rows c + tablesWeight rows d + tablesWeight rows k = tablesWeight rows ts := by
  induction h with
  | nil => rfl
  | skip hzero _ ih =>
    rw [tablesWeight_cons]
    omega
  | commit _ _ _ ih =>
    rw [tablesWeight_cons, tablesWeight_cons]
    omega
  | lose _ _ _ _ ih =>
    rw [tablesWeight_cons, tablesWeight_cons]
    omega
  | keep _ _ _ _ ih =>
    rw [tablesWeight_cons, tablesWeight_cons]
    omega

theorem mem_some {t : JsonTable} (h : Sorted answer rows ts c d k) (ht : t ∈ ts)
    (hpos : 0 < tableCopyRows t rows) : t ∈ c ∨ t ∈ d ∨ t ∈ k := by
  induction h with
  | nil => cases ht
  | skip hzero _ ih =>
    rcases List.mem_cons.1 ht with rfl | ht
    · omega
    · exact ih ht
  | commit _ _ _ ih =>
    rw [List.mem_cons] at ht ⊢
    tauto
  | lose _ _ _ _ ih =>
    rw [List.mem_cons] at ht ⊢
    tauto
  | keep _ _ _ _ ih =>
    rw [List.mem_cons] at ht ⊢
    tauto

theorem answer_of_mem (h : Sorted answer rows ts c d k) (t : JsonTable) :
    (t ∈ c → answer t = some (.ok ())) ∧
      (t ∈ d → ∃ e, answer t = some (.error e) ∧ e.transient = false) ∧
      (t ∈ k → 0 < tableCopyRows t rows ∧ ∃ e, answer t = some (.error e) ∧ e.transient = true) := by
  induction h with
  | nil => simp
  | skip _ _ ih => exact ih
  | commit _ ha _ ih =>
    refine ⟨fun ht => ?_, ih.2⟩
    rcases List.mem_cons.1 ht with rfl | ht
    · exact ha
    · exact ih.1 ht
  | lose _ ha he _ ih =>
    refine ⟨ih.1, fun ht => ?_, ih.2.2⟩
    rcases List.mem_cons.1 ht with rfl | ht
    · exact ⟨_, ha, he⟩
    · exact ih.2.1 ht
  | keep hpos ha he _ ih =>
    refine ⟨ih.1, ih.2.1, fun ht => ?_⟩
    rcases List.mem_cons.1 ht with rfl | ht
    · exact ⟨hpos, _, ha, he⟩
    · exact ih.2.2 ht

end Sorted

/-! ## What becomes of a JSON row -/

/-- Exactly one of three. -/
def ExactlyOne (p q r : Prop) : Prop := (p ∧ ¬q ∧ ¬r) ∨ (¬p ∧ q ∧ ¬r) ∨ (¬p ∧ ¬q ∧ r)

namespace JsonRow

/-- `r` has a COPY row, and the COPY of its table has committed. -/
def Committed (s : FlushState) (r : JsonRow) : Prop := 0 < r.copyRows ∧ r.table ∈ s.fates.committed

/-- `r` has a COPY row, and its table is counted in `lost_rows`. -/
def Lost (s : FlushState) (r : JsonRow) : Prop := 0 < r.copyRows ∧ r.table ∈ s.fates.lost

/-- `r` is in the retry bundle. -/
def Retained (o : FlushOutcome) (r : JsonRow) : Prop := r ∈ o.retryJson

instance (s : FlushState) (r : JsonRow) : Decidable (r.Committed s) := by
  unfold Committed; infer_instance

end JsonRow

/-- COPY rows of a bundle. -/
def FlushBundle.copyRows (b : FlushBundle) : ℕ := b.plainRows + (b.jsonRows.map JsonRow.copyRows).sum

/-- COPY rows of the retry bundle. -/
def FlushOutcome.retryCopyRows (o : FlushOutcome) : ℕ := o.retry.elim 0 FlushBundle.copyRows

/-- A flush of `b` that returned `o`, in COPY rows. `total` is the balance; `shares`
    says what the rows outside the JSON family (`w` written, `x` lost) and the JSON
    rows of either fate have in it. -/
structure CopyRowAccounting (io : CopyIO) (b : FlushBundle) (o : FlushOutcome) (s : FlushState) :
    Prop where
  total : o.report.total + o.lostRows + o.retryCopyRows = b.copyRows
  shares : ∃ w x, o.report.total = w + rowsWeight b.jsonRows s.fates.committed ∧
    o.lostRows = x + rowsWeight b.jsonRows s.fates.lost ∧ w + x + o.retryPlain = b.plainRows
  exactlyOnce : ∀ r ∈ b.jsonRows, 0 < r.copyRows →
    ExactlyOne (r.Committed s) (r.Lost s) (r.Retained o)
  retained : ∀ r ∈ b.jsonRows, r.Retained o ↔ 0 < tableCopyRows r.table b.jsonRows ∧
    ∃ e, jsonAnswer b.pool io r.table = some (.error e) ∧ e.transient = true

/-- A flush of `b` that returned `o`, in rows: no JSON row disappears. -/
structure RowAccounting (b : FlushBundle) (o : FlushOutcome) (s : FlushState) : Prop where
  total : o.report.total + o.lostRows + o.retryRows = b.totalRows
  exactlyOnce : ∀ r ∈ b.jsonRows, ExactlyOne (r.Committed s) (r.Lost s) (r.Retained o)

section Accounting

variable {io : CopyIO} {b : FlushBundle} {k : List JsonTable} {o : FlushOutcome} {s : FlushState}

theorem FlushOutcome.retryCopyRows_eq (o : FlushOutcome) :
    o.retryCopyRows = o.retryPlain + (o.retryJson.map JsonRow.copyRows).sum := by
  unfold retryCopyRows retryPlain retryJson
  cases o.retry <;> rfl

theorem FlushOutcome.retryRows_eq (o : FlushOutcome) :
    o.retryRows = o.retryPlain + o.retryJson.length := by
  unfold retryRows retryPlain retryJson
  cases o.retry with
  | none => rfl
  | some keep =>
    simp only [Option.elim_some, FlushBundle.totalRows, FlushBundle.plainRows]
    omega

theorem Accounted.copyRowAccounting (h : Accounted io b k o s) : CopyRowAccounting io b o s := by
  obtain ⟨hsorted, hretry, ⟨w, x, hw, hx, hsum⟩, -⟩ := h
  obtain ⟨hc, hd, hk⟩ := hsorted.sublists
  have hretained : ∀ r ∈ b.jsonRows, r.Retained o ↔ r.table ∈ k := by
    intro r hr
    rw [JsonRow.Retained, hretry, List.mem_filter]
    simp [hr]
  refine ⟨?_, ⟨w, x, ?_, ?_, hsum⟩, fun r hr hpos => ?_, fun r hr => ?_⟩
  · have hweight := hsorted.weight
    have hkweight := tablesWeight_eq_rowsWeight b.jsonRows (hk.nodup jsonPlan_nodup)
    rw [tablesWeight_jsonPlan] at hweight
    rw [o.retryCopyRows_eq, hretry, FlushBundle.copyRows]
    rw [rowsWeight] at hkweight
    omega
  · rw [← tablesWeight_eq_rowsWeight b.jsonRows (hc.nodup jsonPlan_nodup)]
    exact hw
  · rw [← tablesWeight_eq_rowsWeight b.jsonRows (hd.nodup jsonPlan_nodup)]
    exact hx
  · -- the answer to the COPY of the table decides between the three
    have hmem := hsorted.mem_some (mem_jsonPlan r.table) (tableCopyRows_pos hr hpos)
    obtain ⟨hok, hlost, hkeep⟩ := hsorted.answer_of_mem r.table
    rw [ExactlyOne, hretained r hr]
    unfold JsonRow.Committed JsonRow.Lost
    grind
  · rw [hretained r hr]
    obtain ⟨hok, hlost, hkeep⟩ := hsorted.answer_of_mem r.table
    refine ⟨hkeep, ?_⟩
    rintro ⟨hpos, e, ha, he⟩
    rcases hsorted.mem_some (mem_jsonPlan r.table) hpos with hin | hin | hin
    · rw [hok hin] at ha
      cases ha
    · obtain ⟨e', ha', he'⟩ := hlost hin
      grind
    · exact hin

theorem CopyRowAccounting.rowAccounting (h : CopyRowAccounting io b o s)
    (hk : ∀ r ∈ o.retryJson, r ∈ b.jsonRows) (hone : ∀ r ∈ b.jsonRows, r.copyRows = 1) :
    RowAccounting b o s := by
  refine ⟨?_, fun r hr => h.exactlyOnce r hr (by rw [hone r hr]; exact Nat.one_pos)⟩
  have htotal := h.total
  rw [o.retryCopyRows_eq, sum_copyRows_of_eq_one fun r hr => hone r (hk r hr), FlushBundle.copyRows,
    sum_copyRows_of_eq_one hone] at htotal
  rw [o.retryRows_eq]
  simp only [FlushBundle.totalRows, FlushBundle.plainRows] at htotal ⊢
  omega

/-- JSON rows of `b` that are not committed. -/
def FlushBundle.uncommitted (b : FlushBundle) (s : FlushState) : ℕ :=
  (b.jsonRows.filter fun r => ¬r.Committed s).length

theorem rowsWeight_add_uncommitted (rows : List JsonRow) (s : FlushState)
    (hle : ∀ r ∈ rows, r.copyRows ≤ 1) :
    rowsWeight rows s.fates.committed + (rows.filter fun r => ¬r.Committed s).length =
      rows.length := by
  induction rows with
  | nil => rfl
  | cons r rows ih =>
    have hr := hle r List.mem_cons_self
    have hrest := ih fun r' hr' => hle r' (List.mem_cons_of_mem _ hr')
    unfold rowsWeight JsonRow.Committed at hrest ⊢
    rw [List.filter_cons, List.filter_cons]
    by_cases htable : r.table ∈ s.fates.committed <;> by_cases hpos : 0 < r.copyRows <;>
      simp only [htable, hpos, and_self, and_true, and_false, decide_true, decide_false, not_true,
        not_false_eq_true, if_true, if_false, Bool.false_eq_true, List.map_cons, List.sum_cons, List.length_cons] at hrest ⊢ <;>
      omega

/-- What a stopped flush leaves at risk covers the JSON rows not committed, as long as
    none makes more than one COPY row. -/
theorem StoppedWithin.uncommitted_le {r : FlushRun} (h : StoppedWithin r b s)
    (hle : ∀ row ∈ b.jsonRows, row.copyRows ≤ 1) :
    b.uncommitted s ≤ b.totalRows - s.progress := by
  obtain ⟨hsub, hprog, -⟩ := h
  have hsplit := rowsWeight_add_uncommitted b.jsonRows s hle
  rw [tablesWeight_eq_rowsWeight b.jsonRows (hsub.nodup jsonPlan_nodup)] at hprog
  unfold FlushBundle.uncommitted
  simp only [FlushBundle.totalRows, FlushBundle.plainRows] at hprog ⊢
  omega

end Accounting

/-! ## Main theorem -/

open StoreLoop

/-- The three places where the loop meets a panicked or aborted flush of `b` (while it
    runs, at shutdown, and in a last flush) each add `n` or more to `rows_lost`. -/
def LossReported (l : StoreLoop) (b : FlushBundle) (attempts : ℕ) (r : FlushRun) (n : ℕ) : Prop :=
  l.rowsLost + n ≤ ((l.spawn b attempts).reap (some r)).rowsLost ∧
    l.rowsLost + n ≤ ((l.spawn b attempts).shutdownInflight r).rowsLost ∧
    l.rowsLost + n ≤ (l.finalFlush b r).rowsLost

theorem lossReported_of_le {l : StoreLoop} {b : FlushBundle} {r : FlushRun} {s : FlushState} {n : ℕ}
    (attempts : ℕ) (h : b.flushWithProgress r (.start l.captureId) = (none, s))
    (hn : n ≤ b.totalRows - s.progress) : LossReported l b attempts r n := by
  refine ⟨?_, ?_, ?_⟩
  · simp only [reap, spawn, h, joinError]
    omega
  · simp only [shutdownInflight, spawn, h, joinError]
    omega
  · simp only [finalFlush, h, joinError]
    omega

/-- **Main theorem**: a flush that returns has accounted for its bundle in COPY rows,
    and in rows when every JSON row makes one COPY row; after one that is stopped the
    loop reports every JSON row that was not committed, when none makes more than one
    COPY row. -/
theorem jsonAccounting (l : StoreLoop) (b : FlushBundle) (attempts : ℕ) (r : FlushRun) :
    (∀ o s, b.flushWithProgress r (.start l.captureId) = (some o, s) →
      CopyRowAccounting r.copy b o s ∧
        ((∀ row ∈ b.jsonRows, row.copyRows = 1) → RowAccounting b o s)) ∧
    (∀ s, b.flushWithProgress r (.start l.captureId) = (none, s) →
      (∀ row ∈ b.jsonRows, row.copyRows ≤ 1) → LossReported l b attempts r (b.uncommitted s)) := by
  have hspec := flushWithProgress_spec r b (.start l.captureId) ⟨rfl, rfl, rfl⟩
  refine ⟨fun o s h => ?_, fun s h hle => ?_⟩
  · rw [h] at hspec
    obtain ⟨k, hacc⟩ := hspec
    have hkeep : ∀ row ∈ o.retryJson, row ∈ b.jsonRows := by
      intro row hrow
      rw [hacc.retryJson] at hrow
      exact List.mem_of_mem_filter hrow
    exact ⟨hacc.copyRowAccounting, hacc.copyRowAccounting.rowAccounting hkeep⟩
  · rw [h] at hspec
    exact lossReported_of_le attempts h (StoppedWithin.uncommitted_le hspec hle)

/-- A bundle of the JSON rows `rows` alone. -/
def FlushBundle.ofJson (rows : List JsonRow) : FlushBundle := ⟨[], [], [], [], rows, [], 1⟩

/-- A table row and a custom row: the first commits, and the COPY of the second fails
    transiently or is aborted. -/
theorem jsonAccounting_tableAndCustom :
    let l := StoreLoop.start ((BatchWriter.new .default).withPool 1)
    let b := FlushBundle.ofJson [⟨.epoch, 1, .table, .bytes [123, 125], none, 0, 0⟩,
      ⟨.epoch, 2, .custom, .bytes [123, 125], some "NTUnion", 0, 0⟩]
    let copies (last : Option (Except CopyError Unit)) : FlushRun :=
      ⟨fun target _ => if target = .json .custom then last else some (.ok ()), true⟩
    let fails := copies (some (.error ⟨"connection reset by peer", true⟩))
    let aborted := copies none
    (∃ o s, b.flushWithProgress fails (.start 1) = (some o, s) ∧ o.report.total = 1 ∧
      o.retryRows = 1 ∧ RowAccounting b o s) ∧
    ∃ s, b.flushWithProgress aborted (.start 1) = (none, s) ∧ b.uncommitted s = 1 ∧
      LossReported l b 0 aborted (b.uncommitted s) := by
  intro l b copies fails aborted
  refine ⟨⟨_, _, rfl, rfl, rfl, ?_⟩, ⟨_, rfl, rfl, ?_⟩⟩
  · exact ((jsonAccounting l b 0 fails).1 _ _ rfl).2 (by decide)
  · exact (jsonAccounting l b 0 aborted).2 _ rfl (by decide)

/-- A name-value row without a pair makes no COPY row: when its flush returns, it is
    neither committed nor lost nor retained. -/
theorem emptyNameValue_disappears :
    ¬∀ (b : FlushBundle) (r : FlushRun) (o : FlushOutcome) (s : FlushState),
      b.flushWithProgress r (.start 1) = (some o, s) →
        ∀ row ∈ b.jsonRows, ExactlyOne (row.Committed s) (row.Lost s) (row.Retained o) := by
  intro h
  let row : JsonRow :=
    ⟨.epoch, 1, .nameValue, .parsed (.object [("name", .array []), ("value", .array [])]), none, 0, 0⟩
  have hone := h (.ofJson [row]) ⟨fun _ _ => some (.ok ()), true⟩ _ _ rfl row List.mem_cons_self
  rcases hone with ⟨⟨hpos, -⟩, -, -⟩ | ⟨-, ⟨hpos, -⟩, -⟩ | ⟨-, -, hretained⟩
  · exact Nat.lt_irrefl 0 hpos
  · exact Nat.lt_irrefl 0 hpos
  · exact List.not_mem_nil hretained

end AuraEpics.Store

import AuraEpics.Store.Writer

/-!
# Flushing a bundle

Model of `flush_section` and `FlushBundle::flush_with_progress`
(`crates/aura-store/src/writer/mod.rs`, lines 459-821). The flush is a task that
may be panicked or aborted at any point; the progress counter, which it shares
with the store loop, keeps what had been added until then.

Results:
* `flushSection_spec`: a section's rows are written, lost or kept for retry.
* `flushWithProgress_spec`: counted in COPY rows, a flush that returns has written,
  lost or kept what the bundle held, and one that is stopped has not counted more
  progress than that.
-/

namespace AuraEpics.Store

open Stoppable Chunks

/-! ## Outcome -/

/-- `FlushReport` (mod.rs, lines 457-463). -/
structure FlushReport where
  scalar : ℕ
  string : ℕ
  array : ℕ
  json : ℕ
  image : ℕ
  deriving DecidableEq, Repr

/-- `FlushReport::total` (mod.rs, lines 466-468). -/
def FlushReport.total (r : FlushReport) : ℕ := r.scalar + r.string + r.array + r.json + r.image

/-- `FlushBundle::total_rows` (mod.rs, lines 813-820). -/
def FlushBundle.totalRows (b : FlushBundle) : ℕ :=
  b.scalarRows.length + b.stringRows.length + b.arrayNumRows.length + b.arrayStrRows.length +
    b.jsonRows.length + b.imageRows.length

/-- `FlushOutcome` (mod.rs, lines 503-512). -/
structure FlushOutcome where
  report : FlushReport
  retry : Option FlushBundle
  lostRows : ℕ
  errors : List String

/-- Which JSON tables' COPYs have committed and which have failed for good. The code
    keeps no such record; the accounting is stated against it. -/
structure TableFates where
  committed : List JsonTable
  lost : List JsonTable

/-- The payload of a COPY, by the rows a `build` function has written into it; their
    bytes are the subject of `CopyFormat`. -/
inductive CopyPayload where
  | samples (rows : List ScalarRow)
  | string (rows : List StringRow)
  | arrayNum (rows : List ArrayNumRow)
  | arrayStr (rows : List ArrayStrRow)
  | json (rows : List JsonRow.CopyRow)
  | image (rows : List ImageRow)

/-- A call of `send_copy_classified` (copy_pool.rs, lines 156-180): the table its
    statement names, `conn_idx`, `payload` and `row_count`. -/
structure CopyCall where
  target : CopyTarget
  connIdx : ℕ
  payload : CopyPayload
  rowCount : ℕ

/-- The state of a flush task: the shared progress counter, its `lost_rows` and
    `errors`, the process-wide `NEXT_CAPTURE_ID`, the fates of the JSON tables, and the
    COPYs sent so far. -/
structure FlushState where
  progress : ℕ
  lostRows : ℕ
  errors : List String
  captureId : Int64
  fates : TableFates
  copies : List CopyCall

/-- The state a flush task starts in. -/
def FlushState.start (captureId : Int64) : FlushState := ⟨0, 0, [], captureId, ⟨[], []⟩, []⟩

/-- A part of a flush task. -/
abbrev FlushM := Stoppable FlushState

/-- How a flush task fares: the answers of its COPYs, and whether it still returns
    after the last of them. -/
structure FlushRun where
  copy : CopyIO
  returns : Bool

/-! ## Sections -/

section Section

variable {ρ : Type}

/-- A failed COPY: its message is kept, and a permanent failure loses `n` rows. -/
def recordError (e : CopyError) (n : ℕ) : FlushM Unit :=
  modify fun s => { s with
    errors := s.errors ++ [e.display]
    lostRows := if e.transient then s.lostRows else s.lostRows + n }

/-- COPYs are sent. -/
def sendCopies (calls : List CopyCall) : FlushM Unit :=
  modify fun s => { s with copies := s.copies ++ calls }

/-- One COPY of `n` rows; `progress` moves in the same poll as its commit. -/
def commitCopy (pool : ℕ) (io : CopyIO) (target : CopyTarget) (payload : CopyPayload) (n : ℕ) :
    FlushM (Except CopyError Unit) := do
  sendCopies [⟨target, 0, payload, n⟩]
  match sendCopyClassified pool io target 0 with
  | none => stop
  | some (.error e) => return .error e
  | some (.ok ()) => do
    modify fun s => { s with progress := s.progress + n }
    return .ok ()

/-- The COPYs of the chunks from chunk `i` on (mod.rs, lines 541-557). -/
def chunkCopies (target : CopyTarget) (build : List ρ → CopyPayload) :
    ℕ → List (List ρ) → List CopyCall
  | _, [] => []
  | i, c :: cs => ⟨target, i, build c, c.length⟩ :: chunkCopies target build (i + 1) cs

/-- The results of the chunks' COPYs from chunk `i` on (mod.rs, lines 553-568). -/
def chunkResults (pool : ℕ) (io : CopyIO) (target : CopyTarget) :
    ℕ → List (List ρ) → List (Option (Except CopyError ℕ))
  | _, [] => []
  | i, c :: cs =>
    (sendCopyClassified pool io target i).map (Except.map fun _ => c.length) ::
      chunkResults pool io target (i + 1) cs

/-- Rows of the chunks whose COPY has committed. -/
def committedRows : List (Option (Except CopyError ℕ)) → ℕ
  | [] => 0
  | some (.ok n) :: rs => n + committedRows rs
  | _ :: rs => committedRows rs

/-- `join_all`: every chunk has to come to an end. -/
def joinAll {α : Type} : List (Option α) → Option (List α)
  | [] => some []
  | none :: _ => none
  | some r :: rs => (joinAll rs).map (r :: ·)

/-- The answers of the parallel COPYs: each adds its rows to `progress` when it
    commits, also when the task is stopped while others are pending. -/
def awaitChunks (pool : ℕ) (io : CopyIO) (target : CopyTarget) (cs : List (List ρ)) :
    FlushM (List (Except CopyError ℕ)) := fun s =>
  let results := chunkResults pool io target 0 cs
  (joinAll results, { s with progress := s.progress + committedRows results })

/-- The parallel COPYs of the chunks. -/
def sendChunks (pool : ℕ) (io : CopyIO) (target : CopyTarget) (build : List ρ → CopyPayload)
    (cs : List (List ρ)) : FlushM (List (Except CopyError ℕ)) := do
  sendCopies (chunkCopies target build 0 cs)
  awaitChunks pool io target cs

/-- The loop over the chunks' results from chunk `i` on (mod.rs, lines 571-586): rows
    written and, for each chunk, whether it is retried. -/
def classifyChunks (chunkSize count : ℕ) :
    ℕ → List (Except CopyError ℕ) → FlushM (ℕ × List Bool)
  | _, [] => return (0, [])
  | i, .ok n :: rs => do
    let (written, flags) ← classifyChunks chunkSize count (i + 1) rs
    return (n + written, false :: flags)
  | i, .error e :: rs => do
    let start := i * chunkSize
    let end' := min (start + chunkSize) count
    recordError e (end' - start)
    let (written, flags) ← classifyChunks chunkSize count (i + 1) rs
    return (written, e.transient :: flags)

/-- `flush_section` (mod.rs, lines 527-621): rows written and rows to retry. -/
def flushSection (pool : ℕ) (io : CopyIO) (target : CopyTarget) (build : List ρ → CopyPayload)
    (threshold : ℕ) (rows : List ρ) : FlushM (ℕ × List ρ) :=
  let count := rows.length
  if count = 0 then return (0, [])
  else if threshold ≤ count ∧ 1 < pool then do
    let chunkSize := divCeil count pool
    let results ← sendChunks pool io target build (chunks chunkSize rows)
    let (written, retryChunk) ← classifyChunks chunkSize count 0 results
    return (written, if retryChunk.any id then keepChunks chunkSize retryChunk rows else [])
  else do
    match ← commitCopy pool io target (build rows) count with
    | .ok () => return (count, [])
    | .error e =>
      recordError e count
      return (0, if e.transient then rows else [])

end Section

/-! ## The JSON family -/

/-- The builder of table `t`, on the process-wide capture ids. -/
def buildTable (rows : List JsonRow) (t : JsonTable) : FlushM (Option (List JsonRow.CopyRow)) :=
  fun s =>
    let (payload, cid) := t.build s.captureId rows
    (some payload, { s with captureId := cid })

/-- The COPY of one table of the plan (mod.rs, lines 737-757): rows written, and the
    table itself if it is to be retried. -/
def sendTable (pool : ℕ) (io : CopyIO) (rows : List JsonRow) (t : JsonTable) :
    FlushM (ℕ × List JsonTable) := do
  match ← buildTable rows t with
  | none => return (0, [])
  | some payload =>
    match ← commitCopy pool io (.json t) (.json payload) payload.length with
    | .ok () =>
      modify fun s => { s with fates.committed := s.fates.committed ++ [t] }
      return (payload.length, [])
    | .error e =>
      recordError e payload.length
      if e.transient then return (0, [t])
      else
        modify fun s => { s with fates.lost := s.fates.lost ++ [t] }
        return (0, [])

/-- The loop over the plan: rows written, and `retry_tables`. -/
def sendPlan (pool : ℕ) (io : CopyIO) (rows : List JsonRow) :
    List JsonTable → FlushM (ℕ × List JsonTable)
  | [] => return (0, [])
  | t :: ts => do
    let (n, again) ← sendTable pool io rows t
    let (ns, retryTables) ← sendPlan pool io rows ts
    return (n + ns, again ++ retryTables)

/-- The tables of `plan` in its order (mod.rs, lines 703-734). -/
def jsonPlan : List JsonTable := [.table, .custom, .nameValue, .histogram, .continuum, .multi]

/-- The JSON part of `flush_with_progress` (mod.rs, lines 695-764). -/
def flushJson (pool : ℕ) (io : CopyIO) (rows : List JsonRow) : FlushM (ℕ × List JsonRow) :=
  if rows = [] then return (0, [])
  else do
    let (json, retryTables) ← sendPlan pool io rows jsonPlan
    return (json,
      if retryTables = [] then [] else rows.filter fun r => r.table ∈ retryTables)

/-- `usize::MAX`, the threshold of the sections that are never cut. -/
def usizeMax : ℕ := 2 ^ 64 - 1

/-- `has_retry.then(...)` (mod.rs, lines 786-803): the rows kept, if there are any. -/
def FlushBundle.ifAny (keep : FlushBundle) : Option FlushBundle :=
  if keep.totalRows = 0 then none else some keep

/-- `FlushBundle::flush_with_progress` (mod.rs, lines 631-811). -/
def FlushBundle.flushWithProgress (r : FlushRun) (b : FlushBundle) : FlushM FlushOutcome := do
  let (scalar, keepScalar) ← flushSection b.pool r.copy .samples .samples parallelThreshold b.scalarRows
  let (string, keepString) ← flushSection b.pool r.copy .string .string parallelThreshold b.stringRows
  let (arrayNum, keepArrayNum) ←
    flushSection b.pool r.copy .arrayNum .arrayNum parallelThreshold b.arrayNumRows
  let (arrayStr, keepArrayStr) ← flushSection b.pool r.copy .arrayStr .arrayStr usizeMax b.arrayStrRows
  let (json, keepJson) ← flushJson b.pool r.copy b.jsonRows
  let (image, keepImage) ← flushSection b.pool r.copy .image .image usizeMax b.imageRows
  if r.returns then
    let s ← get
    let keep : FlushBundle :=
      ⟨keepScalar, keepString, keepArrayNum, keepArrayStr, keepJson, keepImage, b.pool⟩
    return {
      report := ⟨scalar, string, arrayNum + arrayStr, json, image⟩
      retry := keep.ifAny
      lostRows := s.lostRows
      errors := s.errors }
  else stop

/-! ## What a section does with its rows -/

section SectionSpec

variable {ρ : Type} {pool : ℕ} {io : CopyIO} {target : CopyTarget} {p l : ℕ} {f : TableFates}
  {R : FlushState → Prop}

/-- Some COPY is still pending when the task is stopped. -/
def Pending (pool : ℕ) (io : CopyIO) : Prop := ∃ target i, sendCopyClassified pool io target i = none

/-- The counters and the fates of the tables at a point of a flush. -/
def At (p l : ℕ) (f : TableFates) (s : FlushState) : Prop :=
  s.progress = p ∧ s.lostRows = l ∧ s.fates = f

theorem recordError_spec (e : CopyError) (n : ℕ) :
    Spec (At p l f) (recordError e n) (fun _ => At p (l + if e.transient then 0 else n) f) R := by
  refine Spec.modify fun s hs => ⟨hs.1, ?_, hs.2.2⟩
  dsimp only
  rw [hs.2.1]
  split_ifs <;> rfl

theorem sendCopies_spec (calls : List CopyCall) :
    Spec (At p l f) (sendCopies calls) (fun _ => At p l f) R :=
  Spec.modify fun _ hs => hs

/-- A COPY that commits has counted its rows, any other has not. -/
theorem commitCopy_spec (pool : ℕ) (io : CopyIO) (target : CopyTarget) (payload : CopyPayload)
    (n : ℕ) :
    Spec (At p l f) (commitCopy pool io target payload n)
      (fun r s => sendCopyClassified pool io target 0 = some r ∧
        At (if r = .ok () then p + n else p) l f s)
      (fun s => At p l f s ∧ Pending pool io) := by
  refine Spec.bind (sendCopies_spec _) fun _ => ?_
  rcases h : sendCopyClassified pool io target 0 with _ | e | ⟨⟨⟩⟩
  · exact Spec.stop fun s hs => ⟨hs, target, 0, h⟩
  · exact Spec.pure fun s hs => ⟨rfl, by simpa using hs⟩
  · refine Spec.bind (Q := fun _ => At (p + n) l f) (Spec.modify fun s hs => ?_) fun _ => ?_
    · exact ⟨by simp [hs.1], hs.2⟩
    · exact Spec.pure fun s hs => ⟨rfl, by simpa using hs⟩

theorem committedRows_le (pool : ℕ) (io : CopyIO) (target : CopyTarget) (i : ℕ)
    (cs : List (List ρ)) :
    committedRows (chunkResults pool io target i cs) ≤ (cs.map List.length).sum := by
  induction cs generalizing i with
  | nil => exact le_refl 0
  | cons c cs ih =>
    have := ih (i + 1)
    rcases h : sendCopyClassified pool io target i with _ | e | ⟨⟨⟩⟩ <;>
      simp only [chunkResults, h, Option.map_none, Option.map_some, Except.map, committedRows,
        List.map_cons, List.sum_cons] <;> omega

/-- The results of a section's chunks: as many as there are chunks, and a commit has
    the rows of its chunk. -/
def ChunkAnswers (results : List (Except CopyError ℕ)) (cs : List (List ρ)) : Prop :=
  List.Forall₂ (fun r c => ∀ n, r = .ok n → n = c.length) results cs

/-- Rows of the committed chunks among the results. -/
def okRows (results : List (Except CopyError ℕ)) : ℕ := committedRows (results.map some)

theorem joinAll_chunkResults {i : ℕ} {cs : List (List ρ)} {results : List (Except CopyError ℕ)}
    (h : joinAll (chunkResults pool io target i cs) = some results) :
    ChunkAnswers results cs ∧ committedRows (chunkResults pool io target i cs) = okRows results := by
  induction cs generalizing i results with
  | nil =>
    cases h
    exact ⟨.nil, rfl⟩
  | cons c cs ih =>
    rcases hr : sendCopyClassified pool io target i with _ | e | ⟨⟨⟩⟩ <;>
      simp only [chunkResults, hr, Option.map_none, Option.map_some, Except.map, joinAll,
        reduceCtorEq, Option.map_eq_some_iff] at h ⊢
    all_goals
      obtain ⟨rest, hrest, rfl⟩ := h
      obtain ⟨hans, hcom⟩ := ih hrest
      refine ⟨.cons (by rintro n ⟨⟩; try rfl) hans, ?_⟩
      simp only [committedRows, okRows, List.map_cons] at hcom ⊢
      rw [hcom]

theorem pending_of_joinAll {i : ℕ} {cs : List (List ρ)}
    (h : joinAll (chunkResults pool io target i cs) = none) : Pending pool io := by
  induction cs generalizing i with
  | nil => cases h
  | cons c cs ih =>
    rcases hr : sendCopyClassified pool io target i with _ | r
    · exact ⟨target, i, hr⟩
    · simp only [chunkResults, hr, Option.map_some, joinAll, Option.map_eq_none_iff] at h
      exact ih h

theorem sendChunks_spec (build : List ρ → CopyPayload) (cs : List (List ρ)) :
    Spec (At p l f) (sendChunks pool io target build cs)
      (fun results s => ChunkAnswers results cs ∧ At (p + okRows results) l f s)
      (fun s => s.progress ≤ p + (cs.map List.length).sum ∧ s.fates = f ∧ Pending pool io) := by
  refine Spec.bind (sendCopies_spec _) fun _ s hs => ?_
  have hle := committedRows_le pool io target 0 cs
  unfold awaitChunks
  dsimp only
  cases h : joinAll (chunkResults pool io target 0 cs) with
  | none =>
    refine ⟨?_, hs.2.2, pending_of_joinAll h⟩
    dsimp only
    rw [hs.1]
    omega
  | some results =>
    obtain ⟨hans, hcom⟩ := joinAll_chunkResults h
    exact ⟨hans, by dsimp only; rw [hs.1, hcom], hs.2⟩

/-- The loop over the results accounts for every row from chunk `i` on; `xs` are the
    rows of these chunks. -/
theorem classifyChunks_spec {k : ℕ} (hk : 0 < k) (xs : List ρ) {i count : ℕ}
    (hcount : xs ≠ [] → count = i * k + xs.length) {results : List (Except CopyError ℕ)}
    (hans : ChunkAnswers results (chunks k xs)) :
    Spec (At p l f) (classifyChunks k count i results)
      (fun r s => r.1 = okRows results ∧ ∃ lost,
        r.1 + lost + (keepChunks k r.2 xs).length = xs.length ∧ At p (l + lost) f s) R := by
  induction xs using chunks_induction hk generalizing i results l with
  | nil =>
    rw [chunks_nil] at hans
    cases hans
    exact Spec.pure fun s hs => ⟨rfl, 0, rfl, hs⟩
  | cons xs hxs ih =>
    rw [chunks_of_ne_nil hk hxs] at hans
    have hc := hcount hxs
    have hcount' : xs.drop k ≠ [] → count = (i + 1) * k + (xs.drop k).length := by
      intro hdrop
      have := List.length_pos_of_ne_nil hdrop
      rw [List.length_drop] at this ⊢
      rw [Nat.add_mul]
      omega
    have hsplit : (xs.take k).length + (xs.drop k).length = xs.length := by
      rw [← List.length_append, List.take_append_drop]
    obtain _ | ⟨hr, hrest⟩ := hans
    rename_i r rs
    cases r with
    | ok n =>
      have hn : n = (xs.take k).length := hr n rfl
      refine Spec.bind (ih hcount' hrest) fun r => Spec.pure ?_
      rintro s ⟨hw, lost, hl, hs⟩
      refine ⟨?_, lost, ?_, hs⟩
      · simp only [okRows, List.map_cons, committedRows, hw]
      · simp only [keepChunks_cons hk, Bool.false_eq_true, if_false, List.nil_append]
        omega
    | error e =>
      -- the rows of chunk `i` are those from `i * k` to `min (i * k + k) count`
      have hlen : min (i * k + k) count - i * k = (xs.take k).length := by
        rw [List.length_take]
        omega
      refine Spec.bind (recordError_spec e _) fun _ => ?_
      refine Spec.bind (ih hcount' hrest) fun r => Spec.pure ?_
      rintro s ⟨hw, lost, hl, hs⟩
      rw [hlen, Nat.add_assoc] at hs
      refine ⟨?_, _, ?_, hs⟩
      · simp only [okRows, List.map_cons, committedRows, hw]
      · simp only [keepChunks_cons hk, List.length_append]
        cases e.transient with
        | false =>
          simp only [Bool.false_eq_true, if_false, List.length_nil]
          omega
        | true =>
          simp only [if_true]
          omega

theorem keepChunks_of_any_eq_false {k : ℕ} {flags : List Bool} (h : flags.any id = false)
    (xs : List ρ) : keepChunks k flags xs = [] := by
  unfold keepChunks
  rw [List.filterMap_eq_nil_iff]
  intro a _
  have hget : flags.getD (a.2 / k) false = false := by
    rw [List.getD_eq_getElem?_getD]
    cases hf : flags[a.2 / k]? with
    | none => rfl
    | some b =>
      have hmem := List.mem_of_getElem? hf
      rw [List.any_eq_false] at h
      simpa using h b hmem
  rw [hget]
  rfl

theorem divCeil_pos {count n : ℕ} (hc : 0 < count) (hn : 0 < n) : 0 < divCeil count n := by
  unfold divCeil
  exact Nat.div_pos (by omega) hn

/-- A section writes, loses or keeps each of its rows, and counts as progress what it
    writes; a stopped one has not counted more than its rows. -/
theorem flushSection_spec (pool : ℕ) (io : CopyIO) (target : CopyTarget)
    (build : List ρ → CopyPayload) (threshold : ℕ) (rows : List ρ) :
    Spec (At p l f) (flushSection pool io target build threshold rows)
      (fun r s => ∃ lost, r.1 + lost + r.2.length = rows.length ∧ At (p + r.1) (l + lost) f s)
      (fun s => s.progress ≤ p + rows.length ∧ s.fates = f ∧ Pending pool io) := by
  unfold flushSection
  refine Spec.ite (fun hzero => ?_) fun hpos => Spec.ite (fun hpar => ?_) fun _ => ?_
  · exact Spec.pure fun s hs => ⟨0, by simp [hzero], hs⟩
  · have hk : 0 < divCeil rows.length pool := divCeil_pos (by omega) (by omega)
    refine Spec.bind ((sendChunks_spec build _).mono (fun _ hs => hs) (fun _ _ hs => hs) fun s hs => ?_)
      fun results => Spec.of_pure fun hans => ?_
    · rwa [sum_length_chunks hk] at hs
    · refine Spec.bind (classifyChunks_spec hk rows (fun _ => by omega) hans) fun r => ?_
      refine Spec.pure ?_
      rintro s ⟨hw, lost, hl, hs⟩
      refine ⟨lost, ?_, by rwa [hw]⟩
      dsimp only
      split_ifs with hany
      · exact hl
      · rwa [keepChunks_of_any_eq_false (by simpa using hany)] at hl
  · refine Spec.bind ((commitCopy_spec pool io target (build rows) rows.length).mono (fun _ hs => hs)
      (fun _ _ hs => hs) fun s hs => ?_) fun r => Spec.of_pure fun _ => ?_
    · refine ⟨?_, hs.1.2.2, hs.2⟩
      rw [hs.1.1]
      omega
    · cases r with
      | ok u => exact Spec.pure fun s hs => ⟨0, by simp, by simpa using hs⟩
      | error e =>
        refine Spec.bind (recordError_spec e _) fun _ => Spec.pure fun s hs => ⟨_, ?_, hs⟩
        cases e.transient <;> simp

end SectionSpec

/-! ## What the JSON part does with its tables -/

section JsonSpec

variable {pool : ℕ} {io : CopyIO} {rows : List JsonRow} {p l : ℕ} {f : TableFates}

/-- COPY rows of the tables `ts`. -/
def tablesWeight (rows : List JsonRow) (ts : List JsonTable) : ℕ :=
  (ts.map fun t => tableCopyRows t rows).sum

theorem tablesWeight_cons (rows : List JsonRow) (t : JsonTable) (ts : List JsonTable) :
    tablesWeight rows (t :: ts) = tableCopyRows t rows + tablesWeight rows ts := rfl

/-- The tables `ts` of a plan sorted by what became of them: a table without COPY
    rows is passed over, any other has committed (`c`), is lost (`d`) or is to be
    retried (`k`), as its COPY's answer says. -/
inductive Sorted (answer : JsonTable → Option (Except CopyError Unit)) (rows : List JsonRow) :
    List JsonTable → List JsonTable → List JsonTable → List JsonTable → Prop
  | nil : Sorted answer rows [] [] [] []
  | skip {t ts c d k} : tableCopyRows t rows = 0 → Sorted answer rows ts c d k →
      Sorted answer rows (t :: ts) c d k
  | commit {t ts c d k} : 0 < tableCopyRows t rows → answer t = some (.ok ()) →
      Sorted answer rows ts c d k → Sorted answer rows (t :: ts) (t :: c) d k
  | lose {t ts c d k e} : 0 < tableCopyRows t rows → answer t = some (.error e) →
      e.transient = false → Sorted answer rows ts c d k → Sorted answer rows (t :: ts) c (t :: d) k
  | keep {t ts c d k e} : 0 < tableCopyRows t rows → answer t = some (.error e) →
      e.transient = true → Sorted answer rows ts c d k → Sorted answer rows (t :: ts) c d (t :: k)

/-- The answer to the COPY into JSON table `t`. -/
def jsonAnswer (pool : ℕ) (io : CopyIO) (t : JsonTable) : Option (Except CopyError Unit) :=
  sendCopyClassified pool io (.json t) 0

theorem sendTable_spec (pool : ℕ) (io : CopyIO) (rows : List JsonRow) (t : JsonTable) :
    Spec (At p l f) (sendTable pool io rows t)
      (fun r s =>
        (tableCopyRows t rows = 0 ∧ r = (0, []) ∧ At p l f s) ∨
        (0 < tableCopyRows t rows ∧
          ((jsonAnswer pool io t = some (.ok ()) ∧ r = (tableCopyRows t rows, []) ∧
            At (p + tableCopyRows t rows) l ⟨f.committed ++ [t], f.lost⟩ s) ∨
          ∃ e, jsonAnswer pool io t = some (.error e) ∧
            ((e.transient = false ∧ r = (0, []) ∧
              At p (l + tableCopyRows t rows) ⟨f.committed, f.lost ++ [t]⟩ s) ∨
            (e.transient = true ∧ r = (0, [t]) ∧ At p l f s)))))
      (fun s => At p l f s ∧ Pending pool io) := by
  have hbuild : Spec (At p l f) (buildTable rows t) (fun payload s =>
      ((payload = none ∧ tableCopyRows t rows = 0) ∨ ∃ q, payload = some q ∧
        q.length = tableCopyRows t rows ∧ 0 < tableCopyRows t rows) ∧ At p l f s)
      (fun s => At p l f s ∧ Pending pool io) :=
    fun s hs => ⟨JsonTable.build_rows t s.captureId rows, hs⟩
  refine Spec.bind hbuild fun payload => Spec.of_pure fun hpayload => ?_
  rcases hpayload with ⟨rfl, hzero⟩ | ⟨q, rfl, hq, hpos⟩
  · exact Spec.pure fun s hs => .inl ⟨hzero, rfl, hs⟩
  · refine Spec.bind (commitCopy_spec pool io (.json t) (.json q) q.length) fun r =>
      Spec.of_pure fun ha => ?_
    rw [hq]
    cases r with
    | ok u =>
      refine Spec.bind (Q := fun _ => At (p + tableCopyRows t rows) l ⟨f.committed ++ [t], f.lost⟩)
        (Spec.modify fun s hs => ⟨by simpa using hs.1, hs.2.1, by rw [hs.2.2]⟩) fun _ => ?_
      exact Spec.pure fun s hs => .inr ⟨hpos, .inl ⟨ha, rfl, hs⟩⟩
    | error e =>
      refine Spec.bind (recordError_spec e _) fun _ => Spec.ite (fun ht => ?_) fun ht => ?_
      · exact Spec.pure fun s hs =>
          .inr ⟨hpos, .inr ⟨e, ha, .inr ⟨ht, rfl, by simpa [ht] using hs⟩⟩⟩
      · refine Spec.bind
          (Q := fun _ => At p (l + tableCopyRows t rows) ⟨f.committed, f.lost ++ [t]⟩)
          (Spec.modify fun s hs => ⟨by simpa using hs.1, by simpa [ht] using hs.2.1, by rw [hs.2.2]⟩)
          fun _ => ?_
        exact Spec.pure fun s hs =>
          .inr ⟨hpos, .inr ⟨e, ha, .inl ⟨by simpa using ht, rfl, hs⟩⟩⟩

/-- The loop over a plan sorts its tables and counts the COPY rows of each class; if
    it is stopped, progress is what the tables committed so far have. -/
theorem sendPlan_spec (pool : ℕ) (io : CopyIO) (rows : List JsonRow) (ts : List JsonTable) :
    Spec (At p l f) (sendPlan pool io rows ts)
      (fun r s => ∃ c d, Sorted (jsonAnswer pool io) rows ts c d r.2 ∧ r.1 = tablesWeight rows c ∧
        At (p + tablesWeight rows c) (l + tablesWeight rows d) ⟨f.committed ++ c, f.lost ++ d⟩ s)
      (fun s => (∃ c, c.Sublist ts ∧ s.progress = p + tablesWeight rows c ∧
        s.fates.committed = f.committed ++ c) ∧ Pending pool io) := by
  induction ts generalizing p l f with
  | nil =>
    exact Spec.pure fun s hs => ⟨[], [], .nil, rfl, by simpa [tablesWeight] using hs⟩
  | cons t ts ih =>
    refine Spec.bind ((sendTable_spec pool io rows t).mono (fun _ hs => hs) (fun _ _ hs => hs)
      fun s hs => ⟨⟨[], List.nil_sublist _, by simpa [tablesWeight] using hs.1.1,
        by simp [hs.1.2.2]⟩, hs.2⟩) fun r => ?_
    -- the class of `t` is put in front of what the rest of the plan gives
    rintro s (⟨hzero, rfl, hat⟩ |
      ⟨hpos, ⟨ha, rfl, hat⟩ | ⟨e, ha, ⟨he, rfl, hat⟩ | ⟨he, rfl, hat⟩⟩⟩)
    · refine Spec.bind (ih.mono (fun _ hs => hs) (fun _ _ hs => hs) ?_) (fun r => Spec.pure ?_) s hat
      · rintro s ⟨⟨c, hc, hrest⟩, hp⟩
        exact ⟨⟨c, hc.cons t, hrest⟩, hp⟩
      · rintro s ⟨c, d, hsorted, hn, hs⟩
        exact ⟨c, d, .skip hzero hsorted, by simpa using hn, hs⟩
    · refine Spec.bind (ih.mono (fun _ hs => hs) (fun _ _ hs => hs) ?_) (fun r => Spec.pure ?_) s hat
      · rintro s ⟨⟨c, hc, hprog, hcom⟩, hp⟩
        refine ⟨⟨t :: c, hc.cons_cons t, ?_, by simpa using hcom⟩, hp⟩
        rw [hprog, tablesWeight_cons]
        omega
      · rintro s ⟨c, d, hsorted, hn, hs⟩
        refine ⟨t :: c, d, .commit hpos ha hsorted, ?_, ?_⟩
        · rw [tablesWeight_cons, hn]
        · rw [tablesWeight_cons, ← Nat.add_assoc]
          simpa using hs
    · refine Spec.bind (ih.mono (fun _ hs => hs) (fun _ _ hs => hs) ?_) (fun r => Spec.pure ?_) s hat
      · rintro s ⟨⟨c, hc, hrest⟩, hp⟩
        exact ⟨⟨c, hc.cons t, hrest⟩, hp⟩
      · rintro s ⟨c, d, hsorted, hn, hs⟩
        refine ⟨c, t :: d, .lose hpos ha he hsorted, by simpa using hn, ?_⟩
        rw [tablesWeight_cons, ← Nat.add_assoc]
        simpa using hs
    · refine Spec.bind (ih.mono (fun _ hs => hs) (fun _ _ hs => hs) ?_) (fun r => Spec.pure ?_) s hat
      · rintro s ⟨⟨c, hc, hrest⟩, hp⟩
        exact ⟨⟨c, hc.cons t, hrest⟩, hp⟩
      · rintro s ⟨c, d, hsorted, hn, hs⟩
        exact ⟨c, d, .keep hpos ha he hsorted, by simpa using hn, hs⟩

theorem Sorted.sublists {answer : JsonTable → Option (Except CopyError Unit)}
    {ts c d k : List JsonTable} (h : Sorted answer rows ts c d k) :
    c.Sublist ts ∧ d.Sublist ts ∧ k.Sublist ts := by
  induction h with
  | nil => exact ⟨.slnil, .slnil, .slnil⟩
  | skip _ _ ih => exact ⟨ih.1.cons _, ih.2.1.cons _, ih.2.2.cons _⟩
  | commit _ _ _ ih => exact ⟨ih.1.cons_cons _, ih.2.1.cons _, ih.2.2.cons _⟩
  | lose _ _ _ _ ih => exact ⟨ih.1.cons _, ih.2.1.cons_cons _, ih.2.2.cons _⟩
  | keep _ _ _ _ ih => exact ⟨ih.1.cons _, ih.2.1.cons _, ih.2.2.cons_cons _⟩

theorem tableCopyRows_nil (t : JsonTable) : tableCopyRows t [] = 0 := rfl

theorem sorted_nil (answer : JsonTable → Option (Except CopyError Unit)) (ts : List JsonTable) :
    Sorted answer [] ts [] [] [] := by
  induction ts with
  | nil => exact .nil
  | cons t ts ih => exact .skip (tableCopyRows_nil t) ih

/-- The JSON part of a flush that has come to it without a table decided yet. -/
theorem flushJson_spec (pool : ℕ) (io : CopyIO) (rows : List JsonRow) :
    Spec (At p l ⟨[], []⟩) (flushJson pool io rows)
      (fun r s => ∃ c d k, Sorted (jsonAnswer pool io) rows jsonPlan c d k ∧
        r = (tablesWeight rows c, rows.filter fun r => r.table ∈ k) ∧
        At (p + tablesWeight rows c) (l + tablesWeight rows d) ⟨c, d⟩ s)
      (fun s => s.fates.committed.Sublist jsonPlan ∧
        s.progress = p + tablesWeight rows s.fates.committed ∧ Pending pool io) := by
  unfold flushJson
  refine Spec.ite (fun hnil => ?_) fun _ => ?_
  · subst hnil
    exact Spec.pure fun s hs => ⟨[], [], [], sorted_nil _ _, rfl, by simpa [tablesWeight] using hs⟩
  · refine Spec.bind ((sendPlan_spec pool io rows jsonPlan).mono (fun _ hs => hs) (fun _ _ hs => hs) ?_)
      (fun r => Spec.pure ?_)
    · rintro s ⟨⟨c, hc, hprog, hcom⟩, hp⟩
      rw [List.nil_append] at hcom
      exact ⟨by rwa [hcom], by rwa [hcom], hp⟩
    · rintro s ⟨c, d, hsorted, hn, hs⟩
      refine ⟨c, d, r.2, hsorted, ?_, by simpa using hs⟩
      rw [Prod.mk.injEq]
      refine ⟨hn, ?_⟩
      split_ifs with hk
      · simp [hk]
      · rfl

end JsonSpec

/-! ## What a flush does with its bundle -/

/-- Rows of the bundle outside the JSON family; each is one COPY row. -/
def FlushBundle.plainRows (b : FlushBundle) : ℕ :=
  b.scalarRows.length + b.stringRows.length + b.arrayNumRows.length + b.arrayStrRows.length +
    b.imageRows.length

namespace FlushOutcome

/-- Rows retained outside the JSON family. -/
def retryPlain (o : FlushOutcome) : ℕ := o.retry.elim 0 FlushBundle.plainRows

/-- JSON rows retained. -/
def retryJson (o : FlushOutcome) : List JsonRow := o.retry.elim [] FlushBundle.jsonRows

/-- `retry.map_or(0, |b| b.total_rows())`. -/
def retryRows (o : FlushOutcome) : ℕ := o.retry.elim 0 FlushBundle.totalRows

end FlushOutcome

/-- What a flush of `b` that returns `o` has done: the JSON tables are sorted, the
    retained JSON rows are those of the tables `k` to be retried, and the rows outside
    the JSON family are written (`w`), lost (`x`) or retained. -/
structure Accounted (io : CopyIO) (b : FlushBundle) (k : List JsonTable) (o : FlushOutcome)
    (s : FlushState) : Prop where
  sorted : Sorted (jsonAnswer b.pool io) b.jsonRows jsonPlan s.fates.committed s.fates.lost k
  retryJson : o.retryJson = b.jsonRows.filter fun r => r.table ∈ k
  plain : ∃ w x, o.report.total = w + tablesWeight b.jsonRows s.fates.committed ∧
    o.lostRows = x + tablesWeight b.jsonRows s.fates.lost ∧ w + x + o.retryPlain = b.plainRows
  progress : s.progress = o.report.total

/-- How far a flush of `b` can have come when it is stopped: no more progress than the
    rows outside the JSON family and the COPY rows of the tables committed. -/
def StoppedWithin (r : FlushRun) (b : FlushBundle) (s : FlushState) : Prop :=
  s.fates.committed.Sublist jsonPlan ∧
    s.progress ≤ b.plainRows + tablesWeight b.jsonRows s.fates.committed ∧
    (Pending b.pool r.copy ∨ r.returns = false)

theorem FlushBundle.ifAny_plainRows (keep : FlushBundle) :
    keep.ifAny.elim 0 FlushBundle.plainRows = keep.plainRows := by
  unfold ifAny
  split_ifs with hzero
  · unfold totalRows at hzero
    simp only [Option.elim_none, plainRows]
    omega
  · rfl

theorem FlushBundle.ifAny_jsonRows (keep : FlushBundle) :
    keep.ifAny.elim [] FlushBundle.jsonRows = keep.jsonRows := by
  unfold ifAny
  split_ifs with hzero
  · unfold totalRows at hzero
    exact (List.length_eq_zero_iff.1 (by omega)).symm
  · rfl

/-- A section before the JSON part, within a flush of `b`. -/
theorem flushSection_within {ρ : Type} {p l : ℕ} (r : FlushRun) (b : FlushBundle)
    (target : CopyTarget) (build : List ρ → CopyPayload) (threshold : ℕ) {rows : List ρ}
    (h : p + rows.length ≤ b.plainRows) :
    Spec (At p l ⟨[], []⟩) (flushSection b.pool r.copy target build threshold rows)
      (fun q s => ∃ lost, q.1 + lost + q.2.length = rows.length ∧
        At (p + q.1) (l + lost) ⟨[], []⟩ s) (StoppedWithin r b) := by
  refine (flushSection_spec b.pool r.copy target build threshold rows).mono (fun _ hs => hs)
    (fun _ _ hs => hs) ?_
  rintro s ⟨hprog, hfates, hpend⟩
  unfold StoppedWithin
  rw [hfates]
  exact ⟨List.nil_sublist _, by simp only [tablesWeight]; omega, .inl hpend⟩

/-- **Main theorem**: a flush that returns accounts for its whole bundle, and one that
    is stopped has not counted more progress than it has committed. -/
theorem flushWithProgress_spec (r : FlushRun) (b : FlushBundle) :
    Spec (At 0 0 ⟨[], []⟩) (b.flushWithProgress r) (fun o s => ∃ k, Accounted r.copy b k o s)
      (StoppedWithin r b) := by
  have hplain : b.plainRows = b.scalarRows.length + b.stringRows.length + b.arrayNumRows.length +
      b.arrayStrRows.length + b.imageRows.length := rfl
  refine Spec.bind (flushSection_within r b .samples .samples parallelThreshold (by omega))
    fun ⟨w₁, k₁⟩ => Spec.of_exists fun x₁ => Spec.of_pure fun h₁ => ?_
  dsimp only at h₁
  refine Spec.bind (flushSection_within r b .string .string parallelThreshold (by omega))
    fun ⟨w₂, k₂⟩ => Spec.of_exists fun x₂ => Spec.of_pure fun h₂ => ?_
  dsimp only at h₂
  refine Spec.bind (flushSection_within r b .arrayNum .arrayNum parallelThreshold (by omega))
    fun ⟨w₃, k₃⟩ => Spec.of_exists fun x₃ => Spec.of_pure fun h₃ => ?_
  dsimp only at h₃
  refine Spec.bind (flushSection_within r b .arrayStr .arrayStr usizeMax (by omega))
    fun ⟨w₄, k₄⟩ => Spec.of_exists fun x₄ => Spec.of_pure fun h₄ => ?_
  dsimp only at h₄
  refine Spec.bind ((flushJson_spec b.pool r.copy b.jsonRows).mono (fun _ hs => hs)
    (fun _ _ hs => hs) ?_) fun ⟨w₅, k₅⟩ => Spec.of_exists fun c => Spec.of_exists fun d =>
      Spec.of_exists fun k => Spec.of_pure fun hsorted => Spec.of_pure fun h₅ => ?_
  · rintro s ⟨hsub, hprog, hpend⟩
    exact ⟨hsub, by rw [hprog]; omega, .inl hpend⟩
  rw [Prod.mk.injEq] at h₅
  obtain ⟨rfl, rfl⟩ := h₅
  refine Spec.bind ((flushSection_spec b.pool r.copy .image .image usizeMax b.imageRows).mono
    (fun _ hs => hs) (fun _ _ hs => hs) ?_)
    fun ⟨w₆, k₆⟩ => Spec.of_exists fun x₆ => Spec.of_pure fun h₆ => ?_
  · rintro s ⟨hprog, hfates, hpend⟩
    unfold StoppedWithin
    rw [hfates]
    exact ⟨hsorted.sublists.1, by dsimp only; omega, .inl hpend⟩
  dsimp only at h₆
  refine Spec.ite (fun _ s hs => ⟨k, ?_⟩) fun hret => Spec.stop fun s hs => ?_
  · obtain ⟨hprog, hlost, hfates⟩ := hs
    refine ⟨?_, ?_, ⟨w₁ + w₂ + w₃ + w₄ + w₆, x₁ + x₂ + x₃ + x₄ + x₆, ?_, ?_, ?_⟩, ?_⟩
    · rw [hfates]
      exact hsorted
    · exact FlushBundle.ifAny_jsonRows _
    · rw [hfates]
      simp only [FlushReport.total]
      omega
    · rw [hfates]
      simp only [hlost]
      omega
    · simp only [FlushOutcome.retryPlain, FlushBundle.ifAny_plainRows]
      simp only [FlushBundle.plainRows]
      omega
    · simp only [FlushReport.total]
      omega
  · obtain ⟨hprog, hlost, hfates⟩ := hs
    unfold StoppedWithin
    rw [hfates]
    exact ⟨hsorted.sublists.1, by dsimp only; omega, .inr (by simpa using hret)⟩

end AuraEpics.Store

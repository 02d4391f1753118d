import AuraEpics.Store.Flush

/-!
# What a section sends, loses and keeps

`flush_section` (`crates/aura-store/src/writer/mod.rs`, lines 527-621) cuts its rows into chunks
three times: with `chunks` for the payloads, by `start` and `end` for the rows a failed chunk
loses, and by `pos / chunk_size` for the rows it keeps. Here the three are compared, for COPYs
that all come to an end, each with any of the three outcomes.

Result: `flushSection_partitions`, the payloads the section sends hold every row once, and the
section deals with a row as the COPY that carries it came out.
-/

namespace AuraEpics.Store

open Stoppable Chunks

variable {ρ : Type}

/-! ## Payloads -/

/-- `payloads.into_iter().enumerate()`, counted from `i` on. -/
def numbered : ℕ → List (List ρ) → List (ℕ × List ρ)
  | _, [] => []
  | i, c :: cs => (i, c) :: numbered (i + 1) cs

/-- The rows of each COPY of a section, with its index. -/
def sectionSends (pool threshold : ℕ) (rows : List ρ) : List (ℕ × List ρ) :=
  if rows.length = 0 then []
  else if threshold ≤ rows.length ∧ 1 < pool then
    numbered 0 (chunks (divCeil rows.length pool) rows)
  else [(0, rows)]

/-- How a COPY came out. -/
def Committed (r : Except CopyError Unit) : Bool := r.isOk

/-- It failed and is worth a retry. -/
def FailedTransiently : Except CopyError Unit → Bool
  | .ok () => false
  | .error e => e.transient

/-- It failed and would fail again. -/
def FailedForGood : Except CopyError Unit → Bool
  | .ok () => false
  | .error e => !e.transient

/-- The rows of the COPYs with an outcome, in their order. -/
def rowsWhere (outcome : ℕ → Except CopyError Unit) (p : Except CopyError Unit → Bool)
    (sends : List (ℕ × List ρ)) : List ρ :=
  sends.flatMap fun send => if p (outcome send.1) then send.2 else []

/-- The indices `flush_section` forms for `count` rows in chunks of `chunkSize` are in range:
    `chunks` gets a positive size, no chunk starts past the rows, every position has a flag, and
    every COPY a connection. -/
structure IndicesInRange (pool chunkSize count chunks : ℕ) : Prop where
  size : 0 < chunkSize
  start : ∀ i < chunks, i * chunkSize ≤ min (i * chunkSize + chunkSize) count
  flag : ∀ pos < count, pos / chunkSize < chunks
  connection : ∀ i, i % pool < pool

/-- The COPY of rows into the table of a section. -/
def copyOf (target : CopyTarget) (build : List ρ → CopyPayload) (send : ℕ × List ρ) : CopyCall :=
  ⟨target, send.1, build send.2, send.2.length⟩

/-- What a section has done with its rows, between the states `s` and `s'`; `sends` are the rows
    whose payloads it has sent, each with its connection. -/
structure Partitions (pool threshold : ℕ) (target : CopyTarget) (build : List ρ → CopyPayload)
    (rows : List ρ) (outcome : ℕ → Except CopyError Unit) (sends : List (ℕ × List ρ))
    (written : ℕ) (retry : List ρ) (s s' : FlushState) : Prop where
  counted : written + (s'.lostRows - s.lostRows) + retry.length = rows.length
  sent : s'.copies = s.copies ++ sends.map (copyOf target build)
  sentOnce : (sends.map Prod.snd).flatten = rows ∧ (sends.map Prod.fst).Nodup
  lost : s'.lostRows = s.lostRows + (rowsWhere outcome FailedForGood sends).length
  retried : retry = rowsWhere outcome FailedTransiently sends
  progress : s'.progress = s.progress + written
  written : written = (rowsWhere outcome Committed sends).length
  inRange : rows ≠ [] → 1 < pool → threshold ≤ rows.length →
    IndicesInRange pool (divCeil rows.length pool) rows.length sends.length

/-! ## Rows by outcome -/

theorem rowsWhere_nil (outcome : ℕ → Except CopyError Unit) (p : Except CopyError Unit → Bool) :
    rowsWhere outcome p ([] : List (ℕ × List ρ)) = [] := rfl

theorem rowsWhere_cons (outcome : ℕ → Except CopyError Unit) (p : Except CopyError Unit → Bool)
    (send : ℕ × List ρ) (sends : List (ℕ × List ρ)) :
    rowsWhere outcome p (send :: sends) =
      (if p (outcome send.1) then send.2 else []) ++ rowsWhere outcome p sends := rfl

/-- Every row is committed, lost or kept. -/
theorem length_rowsWhere (outcome : ℕ → Except CopyError Unit) (sends : List (ℕ × List ρ)) :
    (rowsWhere outcome Committed sends).length + (rowsWhere outcome FailedForGood sends).length +
        (rowsWhere outcome FailedTransiently sends).length =
      ((sends.map Prod.snd).flatten).length := by
  induction sends with
  | nil => rfl
  | cons send sends ih =>
    rw [rowsWhere_cons, rowsWhere_cons, rowsWhere_cons, List.map_cons, List.flatten_cons]
    simp only [List.length_append]
    rcases hout : outcome send.1 with e | ⟨⟨⟩⟩
    · cases htransient : e.transient with
      | true =>
        simp only [Committed, FailedForGood, FailedTransiently, htransient, Except.isOk, Except.toBool,
          Bool.not_true, Bool.false_eq_true, if_true, if_false, List.length_nil]
        omega
      | false =>
        simp only [Committed, FailedForGood, FailedTransiently, htransient, Except.isOk, Except.toBool,
          Bool.not_false, Bool.false_eq_true, if_true, if_false, List.length_nil]
        omega
    · simp only [Committed, FailedForGood, FailedTransiently, Except.isOk, Except.toBool,
        Bool.false_eq_true, if_true, if_false, List.length_nil]
      omega

theorem map_snd_numbered (i : ℕ) (cs : List (List ρ)) : (numbered i cs).map Prod.snd = cs := by
  induction cs generalizing i with
  | nil => rfl
  | cons c cs ih => exact congrArg (c :: ·) (ih (i + 1))

theorem length_numbered (i : ℕ) (cs : List (List ρ)) : (numbered i cs).length = cs.length := by
  rw [← List.length_map Prod.snd, map_snd_numbered]

theorem map_fst_numbered (i : ℕ) (cs : List (List ρ)) :
    (numbered i cs).map Prod.fst = List.range' i cs.length := by
  induction cs generalizing i with
  | nil => rfl
  | cons c cs ih =>
    rw [List.length_cons, List.range'_succ]
    exact congrArg (i :: ·) (ih (i + 1))

theorem chunkCopies_eq (target : CopyTarget) (build : List ρ → CopyPayload) (i : ℕ)
    (cs : List (List ρ)) :
    chunkCopies target build i cs = (numbered i cs).map (copyOf target build) := by
  induction cs generalizing i with
  | nil => rfl
  | cons c cs ih => exact congrArg (copyOf target build (i, c) :: ·) (ih (i + 1))

theorem sectionSends_partition {pool : ℕ} (hpool : 0 < pool) (threshold : ℕ) (rows : List ρ) :
    ((sectionSends pool threshold rows).map Prod.snd).flatten = rows ∧
      ((sectionSends pool threshold rows).map Prod.fst).Nodup := by
  unfold sectionSends
  split_ifs with hzero hpar
  · rw [List.length_eq_zero_iff.1 hzero]
    exact ⟨rfl, List.nodup_nil⟩
  · rw [map_snd_numbered, map_fst_numbered]
    exact ⟨flatten_chunks (divCeil_pos (by omega) hpool) rows, List.nodup_range'⟩
  · exact ⟨List.append_nil rows, List.nodup_singleton 0⟩

/-! ## The run of a section -/

/-- The answers of the COPYs. -/
def answers (outcome : ℕ → Except CopyError Unit) (sends : List (ℕ × List ρ)) :
    List (Except CopyError ℕ) :=
  sends.map fun send => (outcome send.1).map fun _ => send.2.length

/-- `retry_chunk` after the loop. -/
def retryFlags (outcome : ℕ → Except CopyError Unit) (sends : List (ℕ × List ρ)) : List Bool :=
  sends.map fun send => FailedTransiently (outcome send.1)

theorem answers_cons (outcome : ℕ → Except CopyError Unit) (send : ℕ × List ρ)
    (sends : List (ℕ × List ρ)) :
    answers outcome (send :: sends) =
      (outcome send.1).map (fun _ => send.2.length) :: answers outcome sends := rfl

theorem retryFlags_cons (outcome : ℕ → Except CopyError Unit) (send : ℕ × List ρ)
    (sends : List (ℕ × List ρ)) :
    retryFlags outcome (send :: sends) =
      FailedTransiently (outcome send.1) :: retryFlags outcome sends := rfl

theorem chunkResults_eq {pool : ℕ} (hpool : 0 < pool) (outcome : ℕ → Except CopyError Unit)
    (target : CopyTarget) (i : ℕ) (cs : List (List ρ)) :
    chunkResults pool (fun _ i => some (outcome i)) target i cs =
      (answers outcome (numbered i cs)).map some := by
  induction cs generalizing i with
  | nil => rfl
  | cons c cs ih =>
    have hsend : sendCopyClassified pool (fun _ i => some (outcome i)) target i = some (outcome i) :=
      if_neg (by omega)
    show (sendCopyClassified pool _ target i).map (Except.map fun _ => c.length) ::
      chunkResults pool _ target (i + 1) cs = _
    rw [ih, hsend]
    rfl

theorem joinAll_map_some {α : Type} (results : List α) :
    joinAll (results.map some) = some results := by
  induction results with
  | nil => rfl
  | cons r results ih =>
    rw [List.map_cons, joinAll, ih]
    rfl

theorem committedRows_answers (outcome : ℕ → Except CopyError Unit) (sends : List (ℕ × List ρ)) :
    committedRows ((answers outcome sends).map some) =
      (rowsWhere outcome Committed sends).length := by
  induction sends with
  | nil => rfl
  | cons send sends ih =>
    rw [rowsWhere_cons, List.length_append, ← ih]
    unfold answers
    rw [List.map_cons, List.map_cons]
    rcases outcome send.1 with e | ⟨⟨⟩⟩
    · exact (Nat.zero_add _).symm
    · rfl

theorem classifyChunks_ok (k count i n : ℕ) (rs : List (Except CopyError ℕ)) (s : FlushState) :
    classifyChunks k count i (.ok n :: rs) s =
      match classifyChunks k count (i + 1) rs s with
      | (some r, s') => (some (n + r.1, false :: r.2), s')
      | (none, s') => (none, s') := by
  simp only [classifyChunks, bind_apply, pure_apply]
  rcases classifyChunks k count (i + 1) rs s with ⟨_ | r, s'⟩ <;> rfl

theorem classifyChunks_error (k count i : ℕ) (e : CopyError) (rs : List (Except CopyError ℕ))
    (s : FlushState) :
    classifyChunks k count i (.error e :: rs) s =
      match classifyChunks k count (i + 1) rs
        { s with
          errors := s.errors ++ [e.display]
          lostRows := if e.transient then s.lostRows
            else s.lostRows + (min (i * k + k) count - i * k) } with
      | (some r, s') => (some (r.1, e.transient :: r.2), s')
      | (none, s') => (none, s') := by
  simp only [classifyChunks, recordError, bind_apply, modify_apply, pure_apply]
  generalize classifyChunks k count (i + 1) rs _ = r
  rcases r with ⟨_ | r, s'⟩ <;> rfl

/-- The loop over the results, in the chunks of `xs`, which are those from chunk `i` on: it
    counts what is committed and what is lost, and marks what is kept. -/
theorem classifyChunks_run {k : ℕ} (hk : 0 < k) (outcome : ℕ → Except CopyError Unit) (xs : List ρ)
    {i count : ℕ} (hcount : xs ≠ [] → count = i * k + xs.length) (s : FlushState) :
    ∃ s', classifyChunks k count i (answers outcome (numbered i (chunks k xs))) s =
        (some ((rowsWhere outcome Committed (numbered i (chunks k xs))).length,
          retryFlags outcome (numbered i (chunks k xs))), s') ∧
      s'.progress = s.progress ∧ s'.copies = s.copies ∧
      s'.lostRows =
        s.lostRows + (rowsWhere outcome FailedForGood (numbered i (chunks k xs))).length := by
  induction xs using chunks_induction hk generalizing i s with
  | nil =>
    rw [chunks_nil]
    exact ⟨s, rfl, rfl, rfl, rfl⟩
  | cons xs hxs ih =>
    have hc := hcount hxs
    have hcount' : xs.drop k ≠ [] → count = (i + 1) * k + (xs.drop k).length := by
      intro hdrop
      have hpos := List.length_pos_of_ne_nil hdrop
      rw [List.length_drop] at hpos ⊢
      rw [Nat.add_mul]
      omega
    rw [chunks_of_ne_nil hk hxs]
    unfold numbered
    rw [rowsWhere_cons, rowsWhere_cons, answers_cons, retryFlags_cons]
    dsimp only
    cases hout : outcome i with
    | error e =>
      -- a failed chunk has the rows from `i * k` to `min (i * k + k) count`
      have hlen : min (i * k + k) count - i * k = (xs.take k).length := by
        rw [List.length_take]
        omega
      obtain ⟨s', hrun, hprogress, hcopies, hlost⟩ := ih hcount'
        { s with
          errors := s.errors ++ [e.display]
          lostRows := if e.transient then s.lostRows else s.lostRows + (xs.take k).length }
      refine ⟨s', ?_, hprogress, hcopies, ?_⟩
      · show classifyChunks k count i (.error e :: _) s = _
        rw [classifyChunks_error, hlen, hrun]
        rfl
      · rw [hlost]
        cases htransient : e.transient with
        | true => simp [FailedForGood, htransient]
        | false => simp [FailedForGood, htransient, Nat.add_assoc]
    | ok u =>
      obtain ⟨s', hrun, hprogress, hcopies, hlost⟩ := ih hcount' s
      refine ⟨s', ?_, hprogress, hcopies, ?_⟩
      · show classifyChunks k count i (.ok (xs.take k).length :: _) s = _
        rw [classifyChunks_ok, hrun, List.length_append]
        rfl
      · rw [hlost]
        rfl

/-- The rows kept by position are those of the chunks that failed transiently. -/
theorem keepChunks_retryFlags {k : ℕ} (hk : 0 < k) (outcome : ℕ → Except CopyError Unit)
    (xs : List ρ) (i : ℕ) :
    keepChunks k (retryFlags outcome (numbered i (chunks k xs))) xs =
      rowsWhere outcome FailedTransiently (numbered i (chunks k xs)) := by
  induction xs using chunks_induction hk generalizing i with
  | nil =>
    rw [chunks_nil]
    rfl
  | cons xs hxs ih =>
    rw [chunks_of_ne_nil hk hxs]
    unfold numbered
    rw [retryFlags_cons, rowsWhere_cons, keepChunks_cons hk, ih]

/-! ## Main theorem -/

/-- What a section returns and leaves, for the answers `outcome`. -/
def Settles (pool : ℕ) (target : CopyTarget) (build : List ρ → CopyPayload) (threshold : ℕ)
    (rows : List ρ) (outcome : ℕ → Except CopyError Unit) (s : FlushState) : Prop :=
  ∃ s', flushSection pool (fun _ i => some (outcome i)) target build threshold rows s =
      (some ((rowsWhere outcome Committed (sectionSends pool threshold rows)).length,
        rowsWhere outcome FailedTransiently (sectionSends pool threshold rows)), s') ∧
    s'.copies = s.copies ++ (sectionSends pool threshold rows).map (copyOf target build) ∧
    s'.progress =
      s.progress + (rowsWhere outcome Committed (sectionSends pool threshold rows)).length ∧
    s'.lostRows =
      s.lostRows + (rowsWhere outcome FailedForGood (sectionSends pool threshold rows)).length

theorem parallel_run {pool : ℕ} (hpool : 1 < pool) (target : CopyTarget)
    (build : List ρ → CopyPayload) {threshold : ℕ} {rows : List ρ} (hrows : rows.length ≠ 0)
    (hthreshold : threshold ≤ rows.length) (outcome : ℕ → Except CopyError Unit) (s : FlushState) :
    Settles pool target build threshold rows outcome s := by
  have hk : 0 < divCeil rows.length pool := divCeil_pos (by omega) (by omega)
  unfold Settles flushSection sectionSends
  dsimp only
  rw [if_neg hrows, if_neg hrows, if_pos ⟨hthreshold, hpool⟩, if_pos ⟨hthreshold, hpool⟩]
  generalize hsends : numbered 0 (chunks (divCeil rows.length pool) rows) = sends
  have hresults := chunkResults_eq (by omega : 0 < pool) outcome target 0
    (chunks (divCeil rows.length pool) rows)
  rw [hsends] at hresults
  have hcount : rows ≠ [] → rows.length = 0 * divCeil rows.length pool + rows.length :=
    fun _ => by omega
  obtain ⟨s', hrun, hprogress, hcopies, hlost⟩ := classifyChunks_run hk outcome rows hcount
    { s with
      progress := s.progress + (rowsWhere outcome Committed sends).length
      copies := s.copies ++ sends.map (copyOf target build) }
  rw [hsends] at hrun hlost
  refine ⟨s', ?_, hcopies, hprogress, hlost⟩
  have hkeep := keepChunks_retryFlags hk outcome rows 0
  rw [hsends] at hkeep
  have hsent : sendChunks pool (fun _ i => some (outcome i)) target build
      (chunks (divCeil rows.length pool) rows) s = (some (answers outcome sends),
        { s with
          progress := s.progress + (rowsWhere outcome Committed sends).length
          copies := s.copies ++ sends.map (copyOf target build) }) := by
    unfold sendChunks sendCopies
    rw [bind_apply, modify_apply, chunkCopies_eq, hsends]
    dsimp only
    unfold awaitChunks
    rw [hresults]
    dsimp only
    rw [joinAll_map_some, committedRows_answers]
  rw [bind_apply, hsent]
  dsimp only
  rw [bind_apply, hrun]
  dsimp only
  rw [← hkeep]
  cases hany : (retryFlags outcome sends).any id with
  | true => rfl
  | false =>
    rw [keepChunks_of_any_eq_false hany]
    rfl

theorem single_run {pool : ℕ} (hpool : 0 < pool) (target : CopyTarget)
    (build : List ρ → CopyPayload) {threshold : ℕ} {rows : List ρ} (hrows : rows.length ≠ 0)
    (hsingle : ¬(threshold ≤ rows.length ∧ 1 < pool)) (outcome : ℕ → Except CopyError Unit)
    (s : FlushState) :
    Settles pool target build threshold rows outcome s := by
  have hsend : sendCopyClassified pool (fun _ i => some (outcome i)) target 0 = some (outcome 0) :=
    if_neg (by omega)
  unfold Settles flushSection sectionSends
  dsimp only
  rw [if_neg hrows, if_neg hrows, if_neg hsingle, if_neg hsingle]
  unfold commitCopy sendCopies
  rw [hsend, rowsWhere_cons, rowsWhere_cons, rowsWhere_cons, rowsWhere_nil, rowsWhere_nil,
    rowsWhere_nil, List.append_nil, List.append_nil, List.append_nil]
  have hcopies : [(0, rows)].map (copyOf target build) = [⟨target, 0, build rows, rows.length⟩] := rfl
  rw [hcopies]
  cases hout : outcome 0 with
  | ok u =>
    exact ⟨{ s with
      progress := s.progress + rows.length
      copies := s.copies ++ [⟨target, 0, build rows, rows.length⟩] }, rfl, rfl, rfl, rfl⟩
  | error e =>
    refine ⟨{ s with
      errors := s.errors ++ [e.display]
      lostRows := if e.transient then s.lostRows else s.lostRows + rows.length
      copies := s.copies ++ [⟨target, 0, build rows, rows.length⟩] }, ?_, rfl, rfl, ?_⟩
    · show (some (0, if e.transient then rows else []), _) = _
      rfl
    · dsimp only
      cases htransient : e.transient with
      | true => simp [FailedForGood, htransient]
      | false => simp [FailedForGood, htransient]

theorem flushSection_run {pool : ℕ} (hpool : 0 < pool) (target : CopyTarget)
    (build : List ρ → CopyPayload) (threshold : ℕ) (rows : List ρ)
    (outcome : ℕ → Except CopyError Unit) (s : FlushState) :
    Settles pool target build threshold rows outcome s := by
  by_cases hrows : rows.length = 0
  · unfold Settles flushSection sectionSends
    dsimp only
    rw [if_pos hrows, if_pos hrows]
    exact ⟨s, rfl, (List.append_nil _).symm, rfl, rfl⟩
  · by_cases hparallel : threshold ≤ rows.length ∧ 1 < pool
    · exact parallel_run hparallel.2 target build hrows hparallel.1 outcome s
    · exact single_run hpool target build hrows hparallel outcome s

theorem indicesInRange {pool : ℕ} (hpool : 0 < pool) {rows : List ρ} (hrows : rows ≠ []) :
    IndicesInRange pool (divCeil rows.length pool) rows.length
      (chunks (divCeil rows.length pool) rows).length := by
  have hpos : 0 < rows.length := List.length_pos_of_ne_nil hrows
  have hk : 0 < divCeil rows.length pool := divCeil_pos hpos hpool
  refine ⟨hk, fun i hi => ?_, fun pos hlt => div_lt_length_chunks hk hlt, fun i => Nat.mod_lt i hpool⟩
  rw [lt_length_chunks_iff hk] at hi
  omega

/-- **Main theorem.** A section whose COPYs come to an end partitions its rows into those
    written, those lost and those to be retried, whatever its payloads look like. -/
theorem flushSection_partitions {pool : ℕ} (hpool : 0 < pool) (target : CopyTarget)
    (build : List ρ → CopyPayload) (threshold : ℕ) (rows : List ρ)
    (outcome : ℕ → Except CopyError Unit) (s : FlushState) :
    ∃ sends written retry s',
      flushSection pool (fun _ i => some (outcome i)) target build threshold rows s =
        (some (written, retry), s') ∧
      Partitions pool threshold target build rows outcome sends written retry s s' := by
  obtain ⟨s', hrun, hcopies, hprogress, hlost⟩ :=
    flushSection_run hpool target build threshold rows outcome s
  have hsent := sectionSends_partition hpool threshold rows
  refine ⟨_, _, _, s', hrun, ?_, hcopies, hsent, hlost, rfl, hprogress, rfl, ?_⟩
  · have hlength := length_rowsWhere outcome (sectionSends pool threshold rows)
    rw [hsent.1] at hlength
    omega
  · intro hrows hparallel hthreshold
    have hcut : sectionSends pool threshold rows =
        numbered 0 (chunks (divCeil rows.length pool) rows) := by
      unfold sectionSends
      rw [if_neg (mt List.length_eq_zero_iff.1 hrows), if_pos ⟨hthreshold, hparallel⟩]
    rw [hcut, length_numbered]
    exact indicesInRange hpool hrows

/-- The first COPY commits, the second is to be retried, the others fail for good. -/
def mixedOutcome (i : ℕ) : Except CopyError Unit :=
  if i = 0 then .ok () else .error ⟨"COPY send", i = 1⟩

/-- A string row of PV 7 at second `n`. -/
def numberedRow (n : ℕ) : StringRow := ⟨⟨n, 0⟩, 7, "on", 0, 0⟩

/-- Seven rows over three connections, with a last chunk that is short. -/
theorem sevenRows_partitions :
    ∃ sends written retry s',
      flushSection 3 (fun _ i => some (mixedOutcome i)) .string .string 5
          ((List.range 7).map numberedRow) (.start 0) = (some (written, retry), s') ∧
      Partitions 3 5 .string .string ((List.range 7).map numberedRow) mixedOutcome sends written
        retry (.start 0) s' :=
  flushSection_partitions (by decide) .string .string 5 ((List.range 7).map numberedRow)
    mixedOutcome (.start 0)

end AuraEpics.Store

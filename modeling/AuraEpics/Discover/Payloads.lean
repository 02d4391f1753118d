import AuraEpics.Discover.PgNotify

/-!
# Names a notification conveys

The triggers of `pv_config` (`migrations/015_batch_notify.sql`, lines 10-56) write names into
payloads and `parse_pv_change` (`crates/aura-discover/src/pg_notify.rs`, lines 72-97) reads
them out again. PostgreSQL refuses a payload of 8000 bytes or more, and then the statement
itself.

* `Conveys`: the payloads are short enough and have the names;
* `Fits`: the same length test, on the lengths of the names alone.

Results:
* `conveys_iff`, the statements whose names are conveyed;
* `fits_of_ascii`, names of one-byte characters fit up to a length of 494.
-/

namespace AuraEpics.Discover

/-- `NOTIFY_PAYLOAD_MAX_LENGTH` of PostgreSQL (015_batch_notify.sql, line 6): payloads are
    shorter. -/
def notifyLimit : ℕ := 8000

/-- The payloads are accepted, and what is parsed from them asks for the names, each once and
    in their order. -/
structure Conveys (sent names : List String) (subscribe : Bool) : Prop where
  short : ∀ payload ∈ sent, payload.utf8ByteSize < notifyLimit
  names : requestsOf (sent.filterMap parsePvChange) = names.map fun pv => (pv, subscribe)

/-- A batch of `chars` characters in `bytes` bytes takes the names without a payload of
    `notifyLimit` bytes: it is sent as soon as it has more than `payloadLimit` characters. -/
def FitsFrom : (chars bytes : ℕ) → List String → Prop
  | _, bytes, [] => 4 + bytes < notifyLimit
  | chars, bytes, name :: names =>
    let comma := if chars > 0 then 1 else 0
    let chars := chars + comma + name.length
    let bytes := bytes + comma + name.utf8ByteSize
    if chars > payloadLimit then 4 + bytes < notifyLimit ∧ FitsFrom 0 0 names
    else FitsFrom chars bytes names

/-- The payloads of a statement with these names are short enough. -/
def Fits (names : List String) : Prop := FitsFrom 0 0 names

/-! ## Lengths -/

theorem length_joinName (batch pv : String) :
    (joinName batch pv).length = batch.length + (if batch.length > 0 then 1 else 0) + pv.length := by
  unfold joinName
  split_ifs
  · rw [String.length_append, String.length_append]
    rfl
  · rw [String.length_append, Nat.add_zero]

theorem utf8ByteSize_joinName (batch pv : String) :
    (joinName batch pv).utf8ByteSize =
      batch.utf8ByteSize + (if batch.length > 0 then 1 else 0) + pv.utf8ByteSize := by
  unfold joinName
  split_ifs
  · rw [String.utf8ByteSize_append, String.utf8ByteSize_append]
    rfl
  · rw [String.utf8ByteSize_append, Nat.add_zero]

/-- The batch with one more name is sent or kept. -/
theorem fitsFrom_cons (batch name : String) (names : List String) :
    FitsFrom batch.length batch.utf8ByteSize (name :: names) ↔
      if (joinName batch name).length > payloadLimit then
        4 + (joinName batch name).utf8ByteSize < notifyLimit ∧ FitsFrom 0 0 names
      else FitsFrom (joinName batch name).length (joinName batch name).utf8ByteSize names := by
  rw [length_joinName, utf8ByteSize_joinName]
  exact Iff.rfl

/-- The payloads of the loop, with those sent before and the one sent at its end. -/
theorem short_iff_fitsFrom {kind : String} (hkind : kind.utf8ByteSize = 4) (names : List String)
    (acc : String × List String) :
    (∀ payload ∈ (names.foldl (appendName kind) acc).2 ++
        [kind ++ (names.foldl (appendName kind) acc).1], payload.utf8ByteSize < notifyLimit) ↔
      (∀ payload ∈ acc.2, payload.utf8ByteSize < notifyLimit) ∧
        FitsFrom acc.1.length acc.1.utf8ByteSize names := by
  induction names generalizing acc with
  | nil =>
    rw [List.foldl_nil, List.forall_mem_append, List.forall_mem_singleton,
      String.utf8ByteSize_append, hkind]
    exact Iff.rfl
  | cons name names ih =>
    rw [List.foldl_cons, ih, fitsFrom_cons]
    unfold appendName
    dsimp only
    split_ifs
    · rw [List.forall_mem_append, List.forall_mem_singleton, String.utf8ByteSize_append, hkind,
        and_assoc]
      exact Iff.rfl
    · exact Iff.rfl

theorem short_payloads_iff {kind : String} (hkind : kind.utf8ByteSize = 4) (names : List String) :
    (∀ payload ∈ payloads kind names, payload.utf8ByteSize < notifyLimit) ↔ Fits names := by
  have hloop := short_iff_fitsFrom hkind names ("", [])
  rw [show ("", ([] : List String)).2 = [] from rfl] at hloop
  have hnone : ∀ payload ∈ ([] : List String), payload.utf8ByteSize < notifyLimit :=
    fun payload h => absurd h List.not_mem_nil
  refine Iff.trans ?_ (hloop.trans (and_iff_right hnone))
  unfold payloads
  dsimp only
  split_ifs with hlen
  · exact Iff.rfl
  · -- an empty batch is not sent, and would be short
    have hempty : (names.foldl (appendName kind) ("", [])).1 = "" := by
      rw [← String.toList_eq_nil_iff, ← List.length_eq_zero_iff, String.length_toList]
      omega
    rw [hempty, List.forall_mem_append, List.forall_mem_singleton, String.append_empty, hkind]
    exact (and_iff_left (by decide)).symm

/-- Names of one-byte characters, each of 494 at most. -/
theorem fits_of_ascii {names : List String}
    (h : ∀ name ∈ names, name.utf8ByteSize = name.length ∧ name.length ≤ 494) : Fits names := by
  have hfrom : ∀ (names : List String) (chars : ℕ), chars ≤ payloadLimit →
      (∀ name ∈ names, name.utf8ByteSize = name.length ∧ name.length ≤ 494) →
      FitsFrom chars chars names := by
    intro names
    induction names with
    | nil =>
      intro chars hchars _
      show 4 + chars < 8000
      have hlimit : payloadLimit = 7500 := rfl
      omega
    | cons name names ih =>
      intro chars hchars hnames
      obtain ⟨hname, hrest⟩ := List.forall_mem_cons.1 hnames
      have hlimit : payloadLimit = 7500 := rfl
      unfold FitsFrom
      dsimp only
      rw [hname.1]
      have hcomma : (if chars > 0 then 1 else 0) ≤ 1 := by split_ifs <;> omega
      generalize (if chars > 0 then 1 else 0) = comma at hcomma ⊢
      split_ifs with hlong
      · refine ⟨?_, ih 0 (Nat.zero_le _) hrest⟩
        show _ < 8000
        omega
      · exact ih _ (Nat.le_of_not_lt hlong) hrest
  exact hfrom names 0 (Nat.zero_le _) h

/-! ## Names -/

theorem notMem_of_mem_splitOn {α : Type} [DecidableEq α] {sep : α} {l piece : List α}
    (h : piece ∈ l.splitOn sep) : sep ∉ piece := by
  unfold List.splitOn at h
  induction l generalizing piece with
  | nil =>
    rw [List.splitOnP_nil, List.mem_singleton] at h
    rw [h]
    exact List.not_mem_nil
  | cons x l ih =>
    rw [List.splitOnP_cons_eq_if_modifyHead] at h
    split_ifs at h with hx
    · obtain rfl | hrest := List.mem_cons.1 h
      · exact List.not_mem_nil
      · exact ih hrest
    · have hne : sep ≠ x := fun heq => hx (beq_iff_eq.2 heq.symm)
      cases hpieces : l.splitOnP (· == sep) with
      | nil => exact absurd hpieces (List.splitOnP_ne_nil _ l)
      | cons first rest =>
        rw [hpieces] at h ih
        obtain rfl | hrest := List.mem_cons.1 h
        · rw [List.mem_cons, not_or]
          exact ⟨hne, ih List.mem_cons_self⟩
        · exact ih (List.mem_cons_of_mem _ hrest)

/-- What is read from a payload is not empty and has no comma. -/
theorem of_mem_pvList {text name : String} (h : name ∈ pvList text) :
    name ≠ "" ∧ ',' ∉ name.toList := by
  unfold pvList at h
  obtain ⟨hmem, hne⟩ := List.mem_filter.1 h
  obtain ⟨piece, hpiece, rfl⟩ := List.mem_map.1 hmem
  refine ⟨by simpa using hne, ?_⟩
  rw [String.toList_ofList]
  exact notMem_of_mem_splitOn hpiece

theorem names_iff {kind : String} {subscribe : Bool}
    (hparse : ∀ text, requestsOf ((parsePvChange (kind ++ text)).toList) =
      (pvList text).map fun pv => (pv, subscribe)) (names : List String) :
    requestsOf ((payloads kind names).filterMap parsePvChange) =
        names.map (fun pv => (pv, subscribe)) ↔
      ∀ name ∈ names, name ≠ "" ∧ ',' ∉ name.toList := by
  constructor
  · intro h name hname
    have hmem : (name, subscribe) ∈ requestsOf ((payloads kind names).filterMap parsePvChange) := by
      rw [h]
      exact List.mem_map_of_mem hname
    rw [requestsOf, List.filterMap_eq_flatMap_toList, List.flatMap_assoc] at hmem
    obtain ⟨payload, hpayload, hreq⟩ := List.mem_flatMap.1 hmem
    obtain ⟨text, rfl⟩ := exists_of_mem_payloads hpayload
    have hread : (name, subscribe) ∈ (pvList text).map fun pv => (pv, subscribe) :=
      hparse text ▸ hreq
    obtain ⟨pv, hpv, heq⟩ := List.mem_map.1 hread
    cases heq
    exact of_mem_pvList hpv
  · intro h
    rw [requestsOf_payloads hparse fun name hname => (h name hname).2]
    congr 1
    exact List.filter_eq_self.2 fun name hname => decide_eq_true (h name hname).1

/-! ## Main theorem -/

/-- **Main theorem.** The names of an `INSERT` or of a `DELETE` are conveyed exactly if none is
    empty or has a comma and the payloads fit. -/
theorem conveys_iff (names : List String) :
    (Conveys (notifyPvInsert names) names true ↔
      (∀ name ∈ names, name ≠ "" ∧ ',' ∉ name.toList) ∧ Fits names) ∧
    (Conveys (notifyPvDelete names) names false ↔
      (∀ name ∈ names, name ≠ "" ∧ ',' ∉ name.toList) ∧ Fits names) := by
  have hinsert := names_iff requests_parsePvChange_add names
  have hdelete := names_iff requests_parsePvChange_del names
  have hshort : ∀ {kind : String}, kind.utf8ByteSize = 4 →
      ((∀ payload ∈ payloads kind names, payload.utf8ByteSize < notifyLimit) ↔ Fits names) :=
    fun hkind => short_payloads_iff hkind names
  constructor
  · constructor
    · intro h
      exact ⟨hinsert.1 h.names, (hshort rfl).1 h.short⟩
    · rintro ⟨hnames, hfits⟩
      exact ⟨(hshort rfl).2 hfits, hinsert.2 hnames⟩
  · constructor
    · intro h
      exact ⟨hdelete.1 h.names, (hshort rfl).1 h.short⟩
    · rintro ⟨hnames, hfits⟩
      exact ⟨(hshort rfl).2 hfits, hdelete.2 hnames⟩

theorem utf8ByteSize_replicate (n : ℕ) :
    (String.ofList (List.replicate n 'a')).utf8ByteSize = n := by
  induction n with
  | zero => rfl
  | succ n ih =>
    rw [List.replicate_succ', String.ofList_append, String.utf8ByteSize_append, ih]
    rfl

/-- A name of `n` letters. -/
def longName (n : ℕ) : String := String.ofList (List.replicate n 'a')

theorem not_fits_singleton {name : String} (hchars : payloadLimit < name.length)
    (hbytes : notifyLimit ≤ 4 + name.utf8ByteSize) : ¬Fits [name] := by
  intro hfits
  unfold Fits FitsFrom at hfits
  dsimp only at hfits
  rw [if_pos (by omega)] at hfits
  omega

/-- The `INSERT` of one long name has a payload that PostgreSQL refuses. -/
theorem longName_refused :
    ¬Conveys (notifyPvInsert [longName 8000]) [longName 8000] true := by
  have hchars : payloadLimit < (longName 8000).length := by
    unfold longName payloadLimit
    rw [String.length_ofList, List.length_replicate]
    omega
  have hbytes : notifyLimit ≤ 4 + (longName 8000).utf8ByteSize := by
    unfold longName notifyLimit
    rw [utf8ByteSize_replicate]
    omega
  generalize longName 8000 = name at hchars hbytes ⊢
  intro h
  apply not_fits_singleton hchars hbytes
  have hinsert : "add:".utf8ByteSize = 4 := rfl
  exact (short_payloads_iff hinsert [name]).1 h.short

end AuraEpics.Discover

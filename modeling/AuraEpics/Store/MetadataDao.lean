import AuraEpics.Core.Json
import AuraEpics.Lib.Latest
import AuraEpics.Lib.PgArray

/-!
# Batches of PV metadata

Model of `MetadataDao::upsert_batch` and `bulk_insert` (`crates/aura-store/src/metadata.rs`,
lines 282-434) with all columns of `pv_metadata` (004_pv_metadata.sql). A batch of fewer than
100 entries is a transaction of upserts. A larger one is a `DELETE` and an `INSERT` without
`ON CONFLICT`, each committed by itself.

The database answers each statement, or refuses it, or executes it and the answer is lost.
`takes` says which values it takes: a `pv_id` that `pv_lookup` has, texts without NUL. Times are
numbers, `now` is `NOW()` of the statement that writes.

* `Agrees`: a batch that succeeds has upserted its entries one after another, and one that
  fails has changed nothing.

Results:
* `textArray_enumChoicesPg`, the enum choices of a large batch are read as they were;
* `upsertBatch_agrees_iff`, which batches agree.
-/

namespace AuraEpics.Store.MetadataDao

open AuraEpics.Core Latest Numeric Substitution

/-! ## Rows -/

/-- `StoredMetadata` (lines 79-102), without `updated_at`, which is not written. -/
structure StoredMetadata where
  pvName : String
  pvId : Option Int32
  dataType : String
  scalarType : Option String
  arraySize : Option Int32
  description : String
  units : String
  precision : Int32
  displayForm : String
  displayLow : Binary64
  displayHigh : Binary64
  controlLow : Binary64
  controlHigh : Binary64
  minStep : Binary64
  alarmLolo : Binary64
  alarmLow : Binary64
  alarmHigh : Binary64
  alarmHihi : Binary64
  alarmHysteresis : Binary64
  enumChoices : List String
  dimensions : Json

/-- A row of `pv_metadata`. -/
structure Row where
  metadata : StoredMetadata
  firstSeen : ℕ
  updatedAt : ℕ

/-- `pv_metadata`, by its primary key. -/
abbrev Table := String → Option Row

/-- The row after `sql::UPSERT` (lines 26-52): a new row is first seen now, an old one was. -/
def upsertRow (now : ℕ) (row : Option Row) (m : StoredMetadata) : Row :=
  ⟨m, (row.map Row.firstSeen).getD now, now⟩

/-- `sql::UPSERT`. -/
def upsert (now : ℕ) (t : Table) (m : StoredMetadata) : Table :=
  Function.update t m.pvName (some (upsertRow now (t m.pvName) m))

/-- A row of the `INSERT` of `bulk_insert`, where `first_seen` has its default. -/
def insertRow (now : ℕ) (_ : Option Row) (m : StoredMetadata) : Row := ⟨m, now, now⟩

def insert (now : ℕ) (t : Table) (m : StoredMetadata) : Table :=
  Function.update t m.pvName (some (insertRow now (t m.pvName) m))

def pvNames (entries : List StoredMetadata) : List String := entries.map StoredMetadata.pvName

/-- `DELETE FROM pv_metadata WHERE pv_name = ANY($1)`. -/
def deleteAll (t : Table) (names : List String) : Table := fun pv =>
  if pv ∈ names then none else t pv

/-! ## Enum choices -/

/-- The two replacements of a choice, and its quotes (lines 368-371). -/
def quoteChoice (s : String) : String :=
  let escaped := replace '"' ['\\', '"'] (replace '\\' ['\\', '\\'] s.toList)
  String.ofList ('"' :: (escaped ++ ['"']))

/-- An element of `enum_choices_pg` (lines 361-377). -/
def enumChoicesPg (choices : List String) : String :=
  if choices = [] then String.ofList ['{', '}']
  else
    let quoted := choices.map fun s => (quoteChoice s).toList
    String.ofList ('{' :: ([','].intercalate quoted ++ ['}']))

/-- A text cast to `text[]`; `none` among the elements is NULL. -/
def textArray (literal : String) : Option (List (Option String)) :=
  (PgArray.parse literal.toList).map (List.map (Option.map String.ofList))

/-- The entry with `t.enum_choices::text[]`, if the cast succeeds and no element is NULL. -/
def readBack (m : StoredMetadata) : Option StoredMetadata :=
  (textArray (enumChoicesPg m.enumChoices)).bind fun elems =>
    if elems.all Option.isSome then some { m with enumChoices := elems.reduceOption } else none

/-! ## The batch -/

/-- What becomes of a statement. -/
inductive Answer where
  | ok
  | refused
  | lost
  deriving DecidableEq, Repr

/-- The answers to one `upsert_batch`: to `BEGIN`, to the `k`-th upsert, to `COMMIT`, and to the
    two statements of `bulk_insert`. -/
structure Answers where
  begins : Bool
  upserts : ℕ → Bool
  commit : Answer
  delete : Answer
  insert : Answer

/-- The database takes the rows of the `INSERT`: no name is there twice. -/
def insertable (takes : StoredMetadata → Bool) (rows : List StoredMetadata) : Bool :=
  rows.all takes && decide (pvNames rows).Nodup

/-- `MetadataDao::bulk_insert` (lines 330-434): the count it returns, if no error, and the
    table. -/
def bulkInsert (takes : StoredMetadata → Bool) (t : Table) (entries : List StoredMetadata)
    (now : ℕ) (a : Answers) : Option ℕ × Table :=
  let deleted := deleteAll t (pvNames entries)
  match a.delete with
  | .refused => (none, t)
  | .lost => (none, deleted)
  | .ok =>
    match entries.mapM readBack with
    | none => (none, deleted)
    | some rows =>
      if insertable takes rows then
        match a.insert with
        | .refused => (none, deleted)
        | .lost => (none, rows.foldl (insert now) deleted)
        | .ok => (some entries.length, rows.foldl (insert now) deleted)
      else (none, deleted)

/-- The upserts of a transaction succeed (lines 297-323). -/
def upsertsSucceed (takes : StoredMetadata → Bool) (entries : List StoredMetadata) (a : Answers) :
    Bool :=
  a.begins && entries.zipIdx.all fun e => takes e.1 && a.upserts e.2

/-- `MetadataDao::upsert_batch` (lines 282-328). A transaction that is dropped is rolled
    back. -/
def upsertBatch (takes : StoredMetadata → Bool) (t : Table) (entries : List StoredMetadata)
    (now : ℕ) (a : Answers) : Option ℕ × Table :=
  if entries = [] then (some 0, t)
  else if 100 ≤ entries.length then bulkInsert takes t entries now a
  else if upsertsSucceed takes entries a then
    match a.commit with
    | .refused => (none, t)
    | .lost => (none, entries.foldl (upsert now) t)
    | .ok => (some entries.length, entries.foldl (upsert now) t)
  else (none, t)

/-! ## Property and condition -/

/-- A batch that succeeds has upserted its entries one after another. One that fails has left
    the table as it was. -/
def Agrees (t : Table) (entries : List StoredMetadata) (now : ℕ) (r : Option ℕ × Table) : Prop :=
  (r.1.isSome → r.2 = entries.foldl (upsert now) t) ∧ (r.1 = none → r.2 = t)

/-- The last entry of each PV. -/
def lastEntry (entries : List StoredMetadata) (pv : String) : Option StoredMetadata :=
  latest (entries.map fun m => (m.pvName, m)) pv

/-- No PV of the batch has a row. -/
def Unknown (t : Table) (entries : List StoredMetadata) : Prop :=
  ∀ m ∈ entries, t m.pvName = none

/-- The PVs of the batch that have a row were first seen now. -/
def SeenNow (t : Table) (entries : List StoredMetadata) (now : ℕ) : Prop :=
  ∀ m ∈ entries, ∀ row ∈ t m.pvName, row.firstSeen = now

/-- The rows of the PVs hold the last entries already, written now. -/
def Written (t : Table) (entries : List StoredMetadata) (now : ℕ) : Prop :=
  ∀ pv, ∀ m ∈ lastEntry entries pv, ∃ row ∈ t pv, row.metadata = m ∧ row.updatedAt = now

/-- The `INSERT` is executed. -/
def Inserts (takes : StoredMetadata → Bool) (entries : List StoredMetadata) (a : Answers) : Prop :=
  a.delete = .ok ∧ a.insert ≠ .refused ∧ insertable takes entries = true

/-- Fewer than 100 entries, and no `COMMIT` that writes something is left unanswered. Or: the
    `DELETE` takes no effect; or the `INSERT` is not executed and no PV of the batch has a row; or
    it is executed, what rows there are were first seen now, and an `INSERT` that writes something
    is answered. -/
def Safe (takes : StoredMetadata → Bool) (t : Table) (entries : List StoredMetadata) (now : ℕ)
    (a : Answers) : Prop :=
  if entries.length < 100 then
    upsertsSucceed takes entries a = true → a.commit = .lost → Written t entries now
  else
    a.delete ≠ .refused →
      (¬Inserts takes entries a → Unknown t entries) ∧
        (Inserts takes entries a →
          SeenNow t entries now ∧ (a.insert = .lost → Written t entries now))

/-! ## The enum choices -/

theorem toList_quoteChoice (s : String) : (quoteChoice s).toList = PgArray.quote s.toList :=
  String.toList_ofList

theorem toList_enumChoicesPg (choices : List String) :
    (enumChoicesPg choices).toList = PgArray.render (choices.map String.toList) := by
  unfold enumChoicesPg PgArray.render
  split_ifs with hempty
  · rw [hempty, String.toList_ofList]
    rfl
  · rw [String.toList_ofList]
    simp only [toList_quoteChoice, List.map_map]
    rfl

/-- **Main theorem.** The literal `bulk_insert` builds for a list of enum choices is parsed as
    that list. -/
theorem enumChoicesPg_parsed (choices : List String) :
    PgArray.parse (enumChoicesPg choices).toList =
      some (choices.map fun s => some s.toList) := by
  rw [toList_enumChoicesPg, PgArray.parse_render, List.map_map]
  rfl

theorem textArray_eq (choices : List String) :
    textArray (enumChoicesPg choices) = some (choices.map some) := by
  unfold textArray
  rw [toList_enumChoicesPg, PgArray.parse_render, Option.map_some, List.map_map, List.map_map]
  refine congrArg some (List.map_congr_left fun s _ => ?_)
  exact congrArg some String.ofList_toList

theorem readBack_eq (m : StoredMetadata) : readBack m = some m := by
  have hreduce : (m.enumChoices.map some).reduceOption = m.enumChoices := by
    simp [List.reduceOption]
  unfold readBack
  rw [textArray_eq, Option.bind_some, if_pos (by simp), hreduce]

/-- The rows of the `INSERT` are the entries. -/
theorem mapM_readBack (entries : List StoredMetadata) : entries.mapM readBack = some entries := by
  induction entries with
  | nil => rfl
  | cons m entries ih => simp [ih, readBack_eq]

/-! ## The tables written -/

section Tables

variable {entries : List StoredMetadata} {t : Table} {now : ℕ}

theorem lastEntry_eq_none_iff {pv : String} :
    lastEntry entries pv = none ↔ pv ∉ pvNames entries := by
  unfold lastEntry pvNames
  rw [latest_eq_none_iff, List.map_map]
  rfl

theorem mem_of_lastEntry {pv : String} {m : StoredMetadata} (h : lastEntry entries pv = some m) :
    m ∈ entries ∧ m.pvName = pv := by
  obtain ⟨m', hm', heq⟩ := List.mem_map.1 (mem_of_latest h)
  obtain ⟨rfl, rfl⟩ := Prod.mk.inj heq
  exact ⟨hm', rfl⟩

theorem exists_lastEntry {m : StoredMetadata} (h : m ∈ entries) :
    ∃ m', lastEntry entries m.pvName = some m' := by
  rw [← Option.isSome_iff_exists, Option.isSome_iff_ne_none, Ne, lastEntry_eq_none_iff, not_not]
  exact List.mem_map_of_mem h

theorem foldl_upsert_apply (t : Table) (entries : List StoredMetadata) (now : ℕ) (pv : String) :
    entries.foldl (upsert now) t pv =
      (lastEntry entries pv).elim (t pv) fun m => some (upsertRow now (t pv) m) := by
  have hrow : ∀ r m m', upsertRow now (some (upsertRow now r m)) m' = upsertRow now r m' :=
    fun _ _ _ => rfl
  have h := foldl_update_apply hrow t (entries.map fun m => (m.pvName, m)) pv
  rwa [List.foldl_map] at h

theorem foldl_insert_apply (t : Table) (entries : List StoredMetadata) (now : ℕ) (pv : String) :
    entries.foldl (insert now) t pv =
      (lastEntry entries pv).elim (t pv) fun m => some ⟨m, now, now⟩ := by
  have hrow : ∀ r m m', insertRow now (some (insertRow now r m)) m' = insertRow now r m' :=
    fun _ _ _ => rfl
  have h := foldl_update_apply hrow t (entries.map fun m => (m.pvName, m)) pv
  rwa [List.foldl_map] at h

theorem deleteAll_eq_iff : deleteAll t (pvNames entries) = t ↔ Unknown t entries := by
  constructor
  · intro h m hm
    rw [← h]
    exact if_pos (List.mem_map_of_mem hm)
  · intro h
    funext pv
    unfold deleteAll
    split_ifs with hpv
    · obtain ⟨m, hm, rfl⟩ := List.mem_map.1 hpv
      exact (h m hm).symm
    · rfl

/-- Upserts change nothing if the rows are there already. -/
theorem upserts_eq_iff : entries.foldl (upsert now) t = t ↔ Written t entries now := by
  constructor
  · intro h pv m hm
    have hpv := congrFun h pv
    rw [foldl_upsert_apply, Option.mem_def.1 hm, Option.elim_some] at hpv
    exact ⟨_, hpv.symm, rfl, rfl⟩
  · intro h
    funext pv
    rw [foldl_upsert_apply]
    cases hlast : lastEntry entries pv with
    | none => rfl
    | some m =>
      obtain ⟨row, hrow, rfl, rfl⟩ := h pv m hlast
      rw [Option.elim_some, Option.mem_def.1 hrow]
      rfl

/-- A `DELETE` and an `INSERT` come to upserts if no row was seen earlier. -/
theorem inserts_eq_upserts_iff :
    entries.foldl (insert now) (deleteAll t (pvNames entries)) = entries.foldl (upsert now) t ↔
      SeenNow t entries now := by
  have happly : ∀ pv, entries.foldl (insert now) (deleteAll t (pvNames entries)) pv =
      (lastEntry entries pv).elim (t pv) fun m => some ⟨m, now, now⟩ := by
    intro pv
    rw [foldl_insert_apply]
    cases hlast : lastEntry entries pv with
    | none => exact if_neg (lastEntry_eq_none_iff.1 hlast)
    | some m => rfl
  constructor
  · intro h m hm row hrow
    obtain ⟨m', hlast⟩ := exists_lastEntry hm
    have hpv := congrFun h m.pvName
    rw [happly, foldl_upsert_apply, hlast, Option.elim_some, Option.elim_some,
      Option.mem_def.1 hrow] at hpv
    exact (congrArg Row.firstSeen (Option.some.inj hpv)).symm
  · intro h
    funext pv
    rw [happly, foldl_upsert_apply]
    cases hlast : lastEntry entries pv with
    | none => rfl
    | some m =>
      obtain ⟨hm, rfl⟩ := mem_of_lastEntry hlast
      rw [Option.elim_some, Option.elim_some]
      cases hrow : t m.pvName with
      | none => rfl
      | some row =>
        unfold upsertRow
        rw [Option.map_some, Option.getD_some, h m hm row hrow]

theorem inserts_eq_iff :
    entries.foldl (insert now) (deleteAll t (pvNames entries)) = t ↔
      SeenNow t entries now ∧ Written t entries now := by
  constructor
  · intro h
    have hpv : ∀ pv m, lastEntry entries pv = some m → t pv = some ⟨m, now, now⟩ := by
      intro pv m hlast
      rw [← h, foldl_insert_apply, hlast]
      rfl
    refine ⟨fun m hm row hrow => ?_, fun pv m hm => ⟨_, hpv pv m hm, rfl, rfl⟩⟩
    obtain ⟨m', hlast⟩ := exists_lastEntry hm
    rw [Option.mem_def, hpv _ m' hlast] at hrow
    rw [← Option.some.inj hrow]
  · rintro ⟨hseen, hwritten⟩
    rw [inserts_eq_upserts_iff.2 hseen]
    exact upserts_eq_iff.2 hwritten

end Tables

/-! ## Which batches agree -/

section Agrees

variable {entries : List StoredMetadata} {t : Table} {now : ℕ}

theorem agrees_some (n : ℕ) (t' : Table) :
    Agrees t entries now (some n, t') ↔ t' = entries.foldl (upsert now) t := by
  simp [Agrees]

theorem agrees_none (t' : Table) : Agrees t entries now (none, t') ↔ t' = t := by
  simp [Agrees]

/-- A large batch. -/
theorem bulkInsert_agrees_iff (takes : StoredMetadata → Bool) (a : Answers) :
    Agrees t entries now (bulkInsert takes t entries now a) ↔
      (a.delete ≠ .refused →
        (¬Inserts takes entries a → Unknown t entries) ∧
          (Inserts takes entries a →
            SeenNow t entries now ∧ (a.insert = .lost → Written t entries now))) := by
  unfold bulkInsert Inserts
  rw [mapM_readBack]
  cases hdelete : a.delete with
  | refused => simp [agrees_none]
  | lost => simp [agrees_none, deleteAll_eq_iff]
  | ok =>
    dsimp only
    by_cases hrows : insertable takes entries = true
    · rw [if_pos hrows]
      cases hinsert : a.insert with
      | refused => simp [agrees_none, deleteAll_eq_iff]
      | lost => simp [agrees_none, inserts_eq_iff, hrows]
      | ok => simp [agrees_some, inserts_eq_upserts_iff, hrows]
    · rw [if_neg hrows]
      simp [agrees_none, deleteAll_eq_iff, hrows]

/-- **Main theorem.** A batch upserts its entries one after another or changes nothing if it
    fails, exactly in the cases of `Safe`. -/
theorem upsertBatch_agrees_iff (takes : StoredMetadata → Bool) (t : Table)
    (entries : List StoredMetadata) (now : ℕ) (a : Answers) :
    Agrees t entries now (upsertBatch takes t entries now a) ↔ Safe takes t entries now a := by
  unfold upsertBatch Safe
  by_cases hempty : entries = []
  · subst hempty
    have hwritten : Written t [] now := by
      intro pv m hm
      cases hm
    simp [agrees_some, hwritten]
  · rw [if_neg hempty]
    by_cases hlarge : 100 ≤ entries.length
    · rw [if_pos hlarge, if_neg (Nat.not_lt.2 hlarge)]
      exact bulkInsert_agrees_iff takes a
    · rw [if_neg hlarge, if_pos (Nat.lt_of_not_le hlarge)]
      by_cases hsucceed : upsertsSucceed takes entries a = true
      · rw [if_pos hsucceed]
        cases hcommit : a.commit with
        | refused => simp [agrees_none]
        | lost => simp [agrees_none, upserts_eq_iff, hsucceed]
        | ok => simp [agrees_some]
      · rw [if_neg hsucceed]
        simp [agrees_none, hsucceed]

end Agrees

/-- 100 entries of one PV: the row is deleted, the `INSERT` fails and the error is returned. -/
theorem repeated_name_deleted :
    let m : StoredMetadata := ⟨"A", none, "Scalar", none, none, "", "", 0, "Default", .zero, .zero,
      .zero, .zero, .zero, .zero, .zero, .zero, .zero, .zero, [], .array []⟩
    let t : Table := fun pv => if pv = "A" then some ⟨m, 1, 1⟩ else none
    let r := upsertBatch (fun _ => true) t (List.replicate 100 m) 2
      ⟨true, fun _ => true, .ok, .ok, .ok⟩
    (t "A").isSome ∧ r.1 = none ∧ (r.2 "A").isNone := by
  decide +kernel

end AuraEpics.Store.MetadataDao

import AuraEpics.Lib.Numeric
import Mathlib.Data.List.AList

/-!
# The table `pv_config`

Model of the table (`migrations/003_pv_config.sql`), of the statements that change it
and of the two queries the orchestrator makes (`crates/aura-store/src/pv_config.rs`,
lines 18-24 and 92-113).

The key of the table is `pv_name`, so the table is an `AList`. Each statement is a
transaction of its own; `updated_at` is the time it carries, as the default of the column
sets it for an inserted row and the trigger `trg_pv_config_updated_at` for an updated one.

Result: `exec_cases`, what a statement does to the row of one PV.
-/

namespace AuraEpics.Store

open Numeric

/-- `PvConfig` (`crates/aura-core/src/pv.rs`, lines 20-46): the fields the poller
    compares. -/
structure PvConfig where
  pvName : String
  heartbeatS : Binary64
  expectedIoc : Option String
  enabled : Bool
  deriving DecidableEq, Repr

/-- The columns of a row beside its key. -/
structure ConfigRow where
  heartbeatS : Option Binary64
  expectedIoc : Option String
  enabled : Bool
  updatedAt : ℤ
  deriving DecidableEq, Repr

/-- `into_pv_config` (lines 267-277); the column `expected_ioc` is not copied. -/
def ConfigRow.intoPvConfig (name : String) (row : ConfigRow) : PvConfig :=
  { pvName := name, heartbeatS := row.heartbeatS.getD .zero, expectedIoc := none,
    enabled := row.enabled }

/-- The rows by their `pv_name`. -/
abbrev PvTable := AList fun _ : String => ConfigRow

/-- A row of an `INSERT`. -/
structure NewRow where
  pvName : String
  heartbeatS : Option Binary64
  enabled : Bool
  deriving DecidableEq, Repr

/-- Statements on the table. -/
inductive Statement where
  | insert (rows : List NewRow)
  | setEnabled (names : List String) (enabled : Bool)
  | updateHeartbeat (names : List String) (heartbeatS : Option Binary64)
  | delete (names : List String)
  deriving DecidableEq, Repr

/-- The PVs a statement is about. -/
def Statement.names : Statement → List String
  | insert rows => rows.map NewRow.pvName
  | setEnabled names _ => names
  | updateHeartbeat names _ => names
  | delete names => names

namespace PvTable

/-- `UPDATE … WHERE pv_name = ANY(names)`. -/
def update (table : PvTable) (names : List String) (set : ConfigRow → ConfigRow) (now : ℤ) :
    PvTable :=
  names.foldl (fun table name =>
    match table.lookup name with
    | some row => table.insert name { set row with updatedAt := now }
    | none => table) table

/-- An `INSERT` fails as a whole if a name is taken. -/
def Insertable (table : PvTable) (rows : List NewRow) : Prop :=
  (rows.map NewRow.pvName).Nodup ∧ ∀ row ∈ rows, row.pvName ∉ table

instance (table : PvTable) (rows : List NewRow) : Decidable (table.Insertable rows) :=
  inferInstanceAs (Decidable (_ ∧ _))

/-- The table after a statement. -/
def exec (table : PvTable) (stmt : Statement) (now : ℤ) : PvTable :=
  match stmt with
  | .insert rows =>
    if table.Insertable rows then
      rows.foldl (fun table row =>
        table.insert row.pvName ⟨row.heartbeatS, none, row.enabled, now⟩) table
    else table
  | .setEnabled names enabled => table.update names ({ · with enabled := enabled }) now
  | .updateHeartbeat names heartbeatS => table.update names ({ · with heartbeatS := heartbeatS }) now
  | .delete names => names.foldl (fun table name => table.erase name) table

/-- The names in the transition table `new_table` of an `INSERT`. -/
def inserted (table : PvTable) : Statement → List String
  | .insert rows => if table.Insertable rows then rows.map NewRow.pvName else []
  | _ => []

/-- The names in the transition table `old_table` of a `DELETE`. -/
def deleted (table : PvTable) : Statement → List String
  | .delete names => table.keys.filter fun name => name ∈ names
  | _ => []

/-- `GET_ALL_ENABLED` (lines 18-20). -/
def getAllEnabled (table : PvTable) : List PvConfig :=
  (table.entries.filter fun e => e.2.enabled).map fun e => e.2.intoPvConfig e.1

/-- `GET_CHANGED` (lines 22-24). -/
def getChangedSince (table : PvTable) (since : ℤ) : List PvConfig :=
  (table.entries.filter fun e => since < e.2.updatedAt).map fun e => e.2.intoPvConfig e.1

/-- The PV has an enabled row. -/
def Enabled (table : PvTable) (name : String) : Prop :=
  ∃ row, table.lookup name = some row ∧ row.enabled = true

/-- The PV has a row changed after `since`. -/
def ChangedSince (table : PvTable) (since : ℤ) (name : String) : Prop :=
  ∃ row, table.lookup name = some row ∧ since < row.updatedAt

instance (table : PvTable) (name : String) : Decidable (table.Enabled name) :=
  decidable_of_iff (∃ row ∈ table.lookup name, row.enabled = true) Iff.rfl

theorem enabled_congr {table table' : PvTable} {name : String}
    (h : table'.lookup name = table.lookup name) : table'.Enabled name ↔ table.Enabled name := by
  unfold Enabled
  rw [h]

theorem mem_congr {table table' : PvTable} {name : String}
    (h : table'.lookup name = table.lookup name) : name ∈ table' ↔ name ∈ table := by
  rw [← AList.lookup_isSome, h, AList.lookup_isSome]

theorem mem_of_enabled {table : PvTable} {name : String} (h : table.Enabled name) :
    name ∈ table := by
  obtain ⟨row, hrow, -⟩ := h
  rw [← AList.lookup_isSome, hrow]
  rfl

/-! ## Queries -/

theorem mem_entries_iff {table : PvTable} {name : String} {row : ConfigRow} :
    (⟨name, row⟩ : Sigma fun _ : String => ConfigRow) ∈ table.entries ↔
      table.lookup name = some row :=
  AList.mem_lookup_iff.symm

theorem enabled_of_mem_getAllEnabled {table : PvTable} {c : PvConfig}
    (h : c ∈ table.getAllEnabled) : c.enabled = true := by
  obtain ⟨e, he, rfl⟩ := List.mem_map.1 h
  exact (List.mem_filter.1 he).2

theorem exists_mem_getAllEnabled_iff {table : PvTable} {name : String} :
    (∃ c ∈ table.getAllEnabled, c.pvName = name) ↔ table.Enabled name := by
  constructor
  · rintro ⟨c, hc, rfl⟩
    obtain ⟨⟨name, row⟩, he, rfl⟩ := List.mem_map.1 hc
    obtain ⟨hmem, hen⟩ := List.mem_filter.1 he
    exact ⟨row, mem_entries_iff.1 hmem, hen⟩
  · rintro ⟨row, hrow, hen⟩
    refine ⟨row.intoPvConfig name, List.mem_map.2 ⟨⟨name, row⟩, ?_, rfl⟩, rfl⟩
    exact List.mem_filter.2 ⟨mem_entries_iff.2 hrow, hen⟩

theorem getChangedSince_ne_nil {table : PvTable} {since : ℤ} {name : String}
    (h : table.ChangedSince since name) : table.getChangedSince since ≠ [] := by
  obtain ⟨row, hrow, hlt⟩ := h
  apply List.ne_nil_of_mem (a := row.intoPvConfig name)
  refine List.mem_map.2 ⟨⟨name, row⟩, List.mem_filter.2 ⟨mem_entries_iff.2 hrow, ?_⟩, rfl⟩
  exact decide_eq_true hlt

/-! ## Statements -/

/-- An `UPDATE` that sets a column to a constant. -/
theorem lookup_update (set : ConfigRow → ConfigRow) (now : ℤ)
    (hset : ∀ row, set { set row with updatedAt := now } = { set row with updatedAt := now })
    (table : PvTable) (names : List String) (name : String) :
    (table.update names set now).lookup name =
      if name ∈ names then (table.lookup name).map ({ set · with updatedAt := now })
      else table.lookup name := by
  induction names generalizing table with
  | nil => rfl
  | cons other names ih =>
    show ((match table.lookup other with
        | some row => table.insert other { set row with updatedAt := now }
        | none => table : PvTable).update names set now).lookup name = _
    rw [ih]
    by_cases hname : name = other
    · subst hname
      cases hrow : table.lookup name with
      | none => simp [hrow]
      | some row => simp [hset row]
    · cases hrow : table.lookup other with
      | none => simp [hname]
      | some row => simp [hname, AList.lookup_insert_ne hname]

theorem update_cases (set : ConfigRow → ConfigRow) (now : ℤ)
    (hset : ∀ row, set { set row with updatedAt := now } = { set row with updatedAt := now })
    (table : PvTable) (names : List String) (name : String) :
    (table.update names set now).lookup name = table.lookup name ∨
      (table.lookup name ≠ none ∧
        ∃ row, (table.update names set now).lookup name = some row ∧ row.updatedAt = now) := by
  rw [lookup_update set now hset]
  split_ifs with hmem
  · cases table.lookup name with
    | none => exact .inl rfl
    | some row => exact .inr ⟨Option.some_ne_none row, _, rfl, rfl⟩
  · exact .inl rfl

theorem lookup_foldl_erase (table : PvTable) (names : List String) (name : String) :
    (names.foldl (fun table name => table.erase name) table : PvTable).lookup name =
      if name ∈ names then none else table.lookup name := by
  induction names generalizing table with
  | nil => rfl
  | cons other names ih =>
    rw [List.foldl_cons, ih]
    by_cases hname : name = other
    · subst hname
      simp [AList.lookup_erase]
    · simp [hname, AList.lookup_erase_ne hname]

theorem lookup_foldl_insert (table : PvTable) (rows : List NewRow) (now : ℤ) (name : String) :
    let table' : PvTable := rows.foldl (fun table row =>
      table.insert row.pvName ⟨row.heartbeatS, none, row.enabled, now⟩) table
    (name ∉ rows.map NewRow.pvName → table'.lookup name = table.lookup name) ∧
    (name ∈ rows.map NewRow.pvName → ∃ new ∈ rows, new.pvName = name ∧
      table'.lookup name = some ⟨new.heartbeatS, none, new.enabled, now⟩) := by
  induction rows generalizing table with
  | nil => exact ⟨fun _ => rfl, fun h => absurd h List.not_mem_nil⟩
  | cons new rows ih =>
    intro table'
    obtain ⟨hout, hin⟩ := ih (table.insert new.pvName ⟨new.heartbeatS, none, new.enabled, now⟩)
    rw [List.map_cons, List.mem_cons, not_or]
    refine ⟨fun ⟨hne, hrest⟩ => ?_, fun h => ?_⟩
    · show AList.lookup name (rows.foldl _ _) = _
      rw [hout hrest, AList.lookup_insert_ne hne]
    · by_cases hrest : name ∈ rows.map NewRow.pvName
      · obtain ⟨row, hrow, hname⟩ := hin hrest
        exact ⟨row, List.mem_cons_of_mem new hrow, hname⟩
      · obtain rfl := h.resolve_right hrest
        exact ⟨new, List.mem_cons_self, rfl, (hout hrest).trans (AList.lookup_insert table)⟩

theorem lookup_exec_of_notMem {stmt : Statement} {name : String} (h : name ∉ stmt.names)
    (table : PvTable) (now : ℤ) : (table.exec stmt now).lookup name = table.lookup name := by
  cases stmt with
  | insert rows =>
    by_cases hok : table.Insertable rows
    · simp only [exec, if_pos hok]
      exact (lookup_foldl_insert table rows now name).1 h
    · simp only [exec, if_neg hok]
  | setEnabled names enabled =>
    exact (lookup_update _ now (fun _ => rfl) table names name).trans (if_neg h)
  | updateHeartbeat names heartbeatS =>
    exact (lookup_update _ now (fun _ => rfl) table names name).trans (if_neg h)
  | delete names => exact (lookup_foldl_erase table names name).trans (if_neg h)

/-- What a statement does to the row of one PV: nothing, or it inserts, updates or
    deletes it. -/
theorem exec_cases (table : PvTable) (stmt : Statement) (now : ℤ) (name : String) :
    ((table.exec stmt now).lookup name = table.lookup name ∧
        name ∉ table.inserted stmt ∧ name ∉ table.deleted stmt) ∨
    (name ∈ table.inserted stmt ∧ name ∉ table.deleted stmt ∧ table.lookup name = none ∧
        ∃ row, (table.exec stmt now).lookup name = some row ∧ row.updatedAt = now) ∨
    (name ∉ table.inserted stmt ∧ name ∉ table.deleted stmt ∧ table.lookup name ≠ none ∧
        ∃ row, (table.exec stmt now).lookup name = some row ∧ row.updatedAt = now) ∨
    (name ∉ table.inserted stmt ∧ name ∈ table.deleted stmt ∧
        (table.exec stmt now).lookup name = none) := by
  cases stmt with
  | insert rows =>
    by_cases hok : table.Insertable rows
    · simp only [exec, inserted, deleted, if_pos hok, List.not_mem_nil, not_false_eq_true,
        false_and, and_false, or_false, true_and, and_true]
      obtain ⟨hout, hin⟩ := lookup_foldl_insert table rows now name
      by_cases hmem : name ∈ rows.map NewRow.pvName
      · obtain ⟨new, hnew, rfl, hlook⟩ := hin hmem
        exact .inr (.inl ⟨hmem, AList.lookup_eq_none.2 (hok.2 new hnew), _, hlook, rfl⟩)
      · exact .inl ⟨hout hmem, hmem⟩
    · simp [exec, inserted, deleted, if_neg hok]
  | setEnabled names enabled =>
    rcases update_cases ({ · with enabled := enabled }) now (fun _ => rfl) table names name with
      hsame | ⟨hrow, hnew⟩
    · exact .inl ⟨hsame, List.not_mem_nil, List.not_mem_nil⟩
    · exact .inr (.inr (.inl ⟨List.not_mem_nil, List.not_mem_nil, hrow, hnew⟩))
  | updateHeartbeat names heartbeatS =>
    rcases update_cases ({ · with heartbeatS := heartbeatS }) now (fun _ => rfl) table names name
      with hsame | ⟨hrow, hnew⟩
    · exact .inl ⟨hsame, List.not_mem_nil, List.not_mem_nil⟩
    · exact .inr (.inr (.inl ⟨List.not_mem_nil, List.not_mem_nil, hrow, hnew⟩))
  | delete names =>
    have hlook := lookup_foldl_erase table names name
    by_cases hmem : name ∈ names
    · by_cases hpres : name ∈ table
      · refine .inr (.inr (.inr ⟨List.not_mem_nil, ?_, ?_⟩))
        · exact List.mem_filter.2 ⟨AList.mem_keys.1 hpres, decide_eq_true hmem⟩
        · rw [if_pos hmem] at hlook
          exact hlook
      · refine .inl ⟨?_, List.not_mem_nil, ?_⟩
        · rw [if_pos hmem] at hlook
          exact hlook.trans (AList.lookup_eq_none.2 hpres).symm
        · exact fun h => hpres (AList.mem_keys.2 (List.mem_filter.1 h).1)
    · refine .inl ⟨?_, List.not_mem_nil, ?_⟩
      · rw [if_neg hmem] at hlook
        exact hlook
      · exact fun h => hmem (of_decide_eq_true (List.mem_filter.1 h).2)

theorem inserted_subset (table : PvTable) (stmt : Statement) :
    table.inserted stmt ⊆ stmt.names := by
  cases stmt with
  | insert rows =>
    unfold inserted
    dsimp only
    split_ifs
    · exact List.Subset.refl _
    · exact List.nil_subset _
  | _ => exact List.nil_subset _

theorem deleted_subset (table : PvTable) (stmt : Statement) : table.deleted stmt ⊆ stmt.names := by
  cases stmt with
  | delete names => exact fun name h => of_decide_eq_true (List.mem_filter.1 h).2
  | _ => exact List.nil_subset _

/-- A row that is disabled after a statement was inserted so, set so or so before. -/
theorem exec_disabled {table : PvTable} {stmt : Statement} {now : ℤ} {name : String}
    {row : ConfigRow} (hrow : (table.exec stmt now).lookup name = some row)
    (hdis : row.enabled = false) :
    (∃ rows, stmt = .insert rows ∧ name ∈ table.inserted stmt ∧
      ∃ new ∈ rows, new.pvName = name ∧ new.enabled = false) ∨
    (∃ names, stmt = .setEnabled names false ∧ name ∈ names ∧ name ∈ table) ∨
    ∃ old, table.lookup name = some old ∧ old.enabled = false := by
  -- a row that is not among those named is as it was
  have hold : (table.exec stmt now).lookup name = table.lookup name →
      ∃ old, table.lookup name = some old ∧ old.enabled = false :=
    fun heq => ⟨row, heq ▸ hrow, hdis⟩
  cases stmt with
  | insert rows =>
    by_cases hok : table.Insertable rows
    · obtain ⟨hout, hin⟩ := lookup_foldl_insert table rows now name
      simp only [exec, if_pos hok] at hrow hold
      by_cases hmem : name ∈ rows.map NewRow.pvName
      · obtain ⟨new, hnew, hname, hlook⟩ := hin hmem
        rw [hlook] at hrow
        cases hrow
        refine .inl ⟨rows, rfl, ?_, new, hnew, hname, hdis⟩
        simp only [inserted, if_pos hok]
        exact hmem
      · exact .inr (.inr (hold (hout hmem)))
    · simp only [exec, if_neg hok] at hold
      exact .inr (.inr (hold trivial))
  | setEnabled names enabled =>
    have hlook := lookup_update ({ · with enabled := enabled }) now (fun _ => rfl) table names name
    by_cases hmem : name ∈ names
    · rw [if_pos hmem] at hlook
      obtain ⟨old, hlook', hnew⟩ := Option.map_eq_some_iff.1 (hlook.symm.trans hrow)
      subst hnew
      have hen : enabled = false := hdis
      subst hen
      refine .inr (.inl ⟨names, rfl, hmem, AList.lookup_isSome.1 ?_⟩)
      rw [hlook']
      rfl
    · exact .inr (.inr (hold (hlook.trans (if_neg hmem))))
  | updateHeartbeat names heartbeatS =>
    have hlook := lookup_update ({ · with heartbeatS := heartbeatS }) now (fun _ => rfl)
      table names name
    by_cases hmem : name ∈ names
    · rw [if_pos hmem] at hlook
      obtain ⟨old, hlook', hnew⟩ := Option.map_eq_some_iff.1 (hlook.symm.trans hrow)
      subst hnew
      exact .inr (.inr ⟨old, hlook', hdis⟩)
    · exact .inr (.inr (hold (hlook.trans (if_neg hmem))))
  | delete names =>
    have hlook := lookup_foldl_erase table names name
    by_cases hmem : name ∈ names
    · rw [if_pos hmem] at hlook
      have hnone : some row = none := hrow.symm.trans hlook
      cases hnone
    · exact .inr (.inr (hold (hlook.trans (if_neg hmem))))

end PvTable

end AuraEpics.Store

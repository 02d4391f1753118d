import AuraEpics.Lib.Runs
import AuraEpics.Store.PvCache

/-!
# Migrations

Model of the migration runner (`crates/aura-store/src/migrations.rs`), which every archiver
process runs when it starts (`main.rs`, line 120): it creates the table `_aura_migrations`, and for
each migration asks whether its version is in the table, executes its text if not, and records it.

Several processes can run it on one database. A statement is one step; it may fail before it does
anything, and its reply may be lost. A process can stop anywhere and start again. The text of a
migration is given by the migration: it is executed as a whole or not at all.

Results:
* `migrations_in_order`, what the table and the database have in every state;
* `run_completes`, what a run does that is not disturbed, whatever happened before;
* `executed_once`, a condition under which no migration is executed twice.
-/

namespace AuraEpics.Store

/-! ## Model -/

/-- `MigrationStep` (lines 200-207). -/
structure MigrationStep where
  version : ℕ
  name : String
  deriving DecidableEq, Repr

/-- `Migrations::ALL` (lines 35-111). -/
def migrations : List MigrationStep :=
  [⟨1, "extensions"⟩, ⟨2, "pv_lookup"⟩, ⟨3, "pv_config"⟩, ⟨4, "pv_metadata"⟩, ⟨5, "samples"⟩,
    ⟨6, "samples_typed"⟩, ⟨7, "compression"⟩, ⟨8, "retention"⟩, ⟨9, "continuous_aggs"⟩,
    ⟨10, "alert_log"⟩, ⟨11, "array_destructured"⟩, ⟨12, "destructure_json_tables"⟩,
    ⟨13, "ioc_config"⟩, ⟨14, "pv_events_status"⟩, ⟨15, "batch_notify"⟩]

/-- The format `{:03}_{}` of a migration. -/
def MigrationStep.display (s : MigrationStep) : String :=
  String.ofList (List.leftpad 3 '0' (toString s.version).toList) ++ "_" ++ s.name

/-- `MigrationReport` (lines 217-224). -/
structure MigrationReport where
  applied : List ℕ
  skipped : List ℕ
  total : ℕ
  deriving DecidableEq, Repr

/-- The statement a run sends next, with the migrations its loop has left, or its result. -/
inductive RunStage where
  | create
  | check (s : MigrationStep) (rest : List MigrationStep)
  | execute (s : MigrationStep) (rest : List MigrationStep)
  | record (s : MigrationStep) (rest : List MigrationStep)
  | returned (result : Except String MigrationReport)

/-- A call of `run` (lines 116-171). -/
structure MigrationRun where
  stage : RunStage
  report : MigrationReport

namespace MigrationRun

/-- The call before its first statement. -/
def start : MigrationRun := ⟨.create, ⟨[], [], migrations.length⟩⟩

/-- The loop with the migrations it has left. -/
def next (report : MigrationReport) : List MigrationStep → MigrationRun
  | [] => ⟨.returned (.ok report), report⟩
  | s :: rest => ⟨.check s rest, report⟩

/-- The call ends with an error. -/
def fail (r : MigrationRun) (message : String) : MigrationRun :=
  { r with stage := .returned (.error message) }

end MigrationRun

/-- The database: the rows of `_aura_migrations`, if there is the table, and the migrations whose
    texts have been executed, in order. -/
structure MigratedDb where
  tracked : Option (List MigrationStep)
  executed : List MigrationStep

namespace MigratedDb

/-- The rows of the table. -/
def rows (db : MigratedDb) : List MigrationStep := db.tracked.getD []

/-- `SELECT EXISTS(SELECT 1 FROM _aura_migrations WHERE version = …)`. -/
def isTracked (db : MigratedDb) (s : MigrationStep) : Prop :=
  s.version ∈ db.rows.map MigrationStep.version

instance (db : MigratedDb) (s : MigrationStep) : Decidable (db.isTracked s) :=
  inferInstanceAs (Decidable (_ ∈ _))

/-- `CREATE TABLE IF NOT EXISTS _aura_migrations …`. -/
def createTable (db : MigratedDb) : MigratedDb := { db with tracked := some db.rows }

/-- The text of the migration is executed. -/
def execute (db : MigratedDb) (s : MigrationStep) : MigratedDb :=
  { db with executed := db.executed ++ [s] }

/-- `INSERT INTO _aura_migrations …`; the version is the primary key. -/
def record (db : MigratedDb) (s : MigrationStep) : Option MigratedDb :=
  if db.tracked.isSome ∧ ¬db.isTracked s then some { db with tracked := some (db.rows ++ [s]) }
  else none

/-- A database that an archiver with the first `m` migrations has set up. -/
def upTo (m : ℕ) : MigratedDb :=
  ⟨if m = 0 then none else some (migrations.take m), migrations.take m⟩

end MigratedDb

/-- The statement a call sends next, with its reply; `e` is the text of its error, if it has
    one. -/
def MigrationRun.statement (r : MigrationRun) (db : MigratedDb) (reply : Reply) (e : String) :
    MigratedDb × MigrationRun :=
  match r.stage with
  | .create =>
    let failure := r.fail ("failed to create migrations table: " ++ e)
    match reply with
    | .done => (db.createTable, next r.report migrations)
    | .lost => (db.createTable, failure)
    | .failed => (db, failure)
  | .check s rest =>
    if reply = .done ∧ db.tracked.isSome then
      if db.isTracked s then
        (db, next { r.report with skipped := r.report.skipped ++ [s.version] } rest)
      else (db, { r with stage := .execute s rest })
    else (db, r.fail ("migration check failed: " ++ e))
  | .execute s rest =>
    let failure := r.fail ("migration " ++ s.display ++ " failed: " ++ e)
    match reply with
    | .done => (db.execute s, { r with stage := .record s rest })
    | .lost => (db.execute s, failure)
    | .failed => (db, failure)
  | .record s rest =>
    let failure := r.fail ("failed to record migration: " ++ e)
    match reply, db.record s with
    | .done, some db' =>
      (db', next { r.report with applied := r.report.applied ++ [s.version] } rest)
    | .lost, some db' => (db', failure)
    | _, _ => (db, failure)
  | .returned _ => (db, r)

/-- The database and the last call of `run` of each process. -/
structure MigrationWorld (ι : Type) where
  db : MigratedDb
  runs : ι → MigrationRun

/-- A call sends its next statement, or a process stops and starts again. -/
inductive MigrationAct (ι : Type) where
  | statement (i : ι) (reply : Reply) (e : String)
  | restart (i : ι)

namespace MigrationWorld

variable {ι : Type} [DecidableEq ι]

/-- The world after an action. -/
def step (w : MigrationWorld ι) : MigrationAct ι → MigrationWorld ι
  | .statement i reply e =>
    let (db, r) := (w.runs i).statement w.db reply e
    ⟨db, Function.update w.runs i r⟩
  | .restart i => { w with runs := Function.update w.runs i .start }

/-- The processes start on a database with the first `m` migrations. -/
def start (m : ℕ) : MigrationWorld ι := ⟨.upTo m, fun _ => .start⟩

end MigrationWorld

/-! ## The order of the migrations -/

/-- A migration executed has those before it executed earlier. -/
def Successive (executed : List MigrationStep) : Prop :=
  ∀ pre s post, executed = pre ++ s :: post → ∀ before after, migrations = before ++ s :: after →
    ∀ u ∈ before, u ∈ pre

/-- The first `n` migrations are recorded; they have been executed, and at most the one after
    them. -/
structure MigratedDb.Upto (db : MigratedDb) (n : ℕ) : Prop where
  bound : n ≤ migrations.length
  rows : db.rows = migrations.take n
  executed : ∀ s ∈ migrations.take n, s ∈ db.executed
  atMost : ∀ s ∈ db.executed, s ∈ migrations.take (n + 1)
  successive : Successive db.executed

/-- The migrations before `rest` are recorded. -/
def Reached (n : ℕ) (rest : List MigrationStep) : Prop :=
  ∃ done, migrations = done ++ rest ∧ done.length ≤ n

/-- What a call relies on. -/
def RunStage.Sound (db : MigratedDb) (n : ℕ) : RunStage → Prop
  | .create => True
  | .check s rest => Reached n (s :: rest)
  | .execute s rest => Reached n (s :: rest)
  | .record s rest => Reached n (s :: rest) ∧ s ∈ db.executed
  | .returned (.ok _) => n = migrations.length
  | .returned (.error _) => True

theorem nodup_versions : (migrations.map MigrationStep.version).Nodup := by decide

section Order

variable {n : ℕ} {s : MigrationStep} {rest : List MigrationStep}

/-- A migration is among the first `n` exactly if fewer than `n` are before it. -/
theorem version_mem_take_iff {done : List MigrationStep} (h : migrations = done ++ s :: rest) :
    s.version ∈ (migrations.take n).map MigrationStep.version ↔ done.length < n := by
  have hnodup := nodup_versions
  rw [h, List.map_append, List.map_cons] at hnodup
  have hnot : s.version ∉ done.map MigrationStep.version := fun hmem =>
    List.disjoint_of_nodup_append hnodup hmem List.mem_cons_self
  rw [h, List.take_append, List.map_append, List.mem_append]
  constructor
  · rintro (hmem | hmem)
    · exact absurd (List.map_subset _ (List.take_subset _ _) hmem) hnot
    · by_contra hle
      rw [Nat.sub_eq_zero_of_le (Nat.le_of_not_lt hle)] at hmem
      cases hmem
  · intro hlt
    obtain ⟨k, hk⟩ := Nat.exists_eq_add_of_lt hlt
    refine .inr ?_
    rw [show n - done.length = k + 1 by omega, List.take_succ_cons, List.map_cons]
    exact List.mem_cons_self

theorem Reached.mono {n' : ℕ} (h : Reached n rest) (hle : n ≤ n') : Reached n' rest := by
  obtain ⟨done, hsplit, hlen⟩ := h
  exact ⟨done, hsplit, hlen.trans hle⟩

theorem reached_all (n : ℕ) : Reached n migrations := ⟨[], rfl, Nat.zero_le n⟩

/-- The migration after those reached is one of the first `n + 1`, and those before it are of the
    first `n`. -/
theorem Reached.mem_take (h : Reached n (s :: rest)) : s ∈ migrations.take (n + 1) := by
  obtain ⟨done, hsplit, hlen⟩ := h
  have hpre : done ++ [s] <+: migrations := ⟨rest, by rw [hsplit, List.append_assoc]; rfl⟩
  have hlen' : (done ++ [s]).length ≤ n + 1 := by
    rw [List.length_append]
    exact Nat.succ_le_succ hlen
  have htake : done ++ [s] <+: migrations.take (n + 1) := List.prefix_take_iff.2 ⟨hpre, hlen'⟩
  exact htake.subset (List.mem_append_right _ (List.mem_singleton_self s))

theorem Reached.before (h : Reached n (s :: rest)) {before after : List MigrationStep}
    (hsplit : migrations = before ++ s :: after) {u : MigrationStep} (hu : u ∈ before) :
    u ∈ migrations.take n := by
  obtain ⟨done, hdone, hlen⟩ := h
  -- the migration stands in one place only
  have hbefore : before.length < n + 1 := by
    refine (version_mem_take_iff hsplit).1 ((version_mem_take_iff hdone).2 ?_)
    exact Nat.lt_succ_of_le hlen
  have htake : before <+: migrations.take n :=
    List.prefix_take_iff.2 ⟨⟨s :: after, hsplit.symm⟩, Nat.le_of_lt_succ hbefore⟩
  exact htake.subset hu

/-- One more migration recorded. -/
theorem Reached.advance (h : Reached n (s :: rest))
    (hs : s.version ∈ (migrations.take n).map MigrationStep.version) : Reached n rest := by
  obtain ⟨done, hsplit, hlen⟩ := h
  refine ⟨done ++ [s], by rw [hsplit, List.append_assoc]; rfl, ?_⟩
  rw [List.length_append]
  exact (version_mem_take_iff hsplit).1 hs

/-- A migration that is reached and not recorded is the next one. -/
theorem Reached.take_succ (h : Reached n (s :: rest))
    (hs : s.version ∉ (migrations.take n).map MigrationStep.version) :
    n < migrations.length ∧ migrations.take (n + 1) = migrations.take n ++ [s] := by
  obtain ⟨done, hsplit, hlen⟩ := h
  have heq : n = done.length :=
    Nat.le_antisymm (Nat.le_of_not_lt fun hlt => hs ((version_mem_take_iff hsplit).2 hlt)) hlen
  subst heq
  rw [hsplit, List.length_append, List.take_length_add_append, List.take_left]
  exact ⟨Nat.lt_add_of_pos_right (Nat.succ_pos _), rfl⟩

theorem sound_next (db : MigratedDb) (report : MigrationReport) (h : Reached n rest)
    (hn : n ≤ migrations.length) : (MigrationRun.next report rest).stage.Sound db n := by
  cases rest with
  | nil =>
    obtain ⟨done, hsplit, hlen⟩ := h
    rw [List.append_nil] at hsplit
    rw [← hsplit] at hlen
    exact Nat.le_antisymm hn hlen
  | cons s rest => exact h

theorem RunStage.Sound.mono {db db' : MigratedDb} {n' : ℕ} {stage : RunStage}
    (h : stage.Sound db n) (hle : n ≤ n') (hn' : n' ≤ migrations.length)
    (hexecuted : ∀ s ∈ db.executed, s ∈ db'.executed) : stage.Sound db' n' := by
  cases stage with
  | create => trivial
  | check s rest => exact Reached.mono h hle
  | execute s rest => exact Reached.mono h hle
  | record s rest => exact ⟨h.1.mono hle, hexecuted s h.2⟩
  | returned result =>
    cases result with
    | error e => trivial
    | ok report =>
      have hall : n = migrations.length := h
      exact Nat.le_antisymm hn' (hall ▸ hle)

theorem Successive.concat {executed : List MigrationStep} (h : Successive executed)
    (hs : ∀ before after, migrations = before ++ s :: after → ∀ u ∈ before, u ∈ executed) :
    Successive (executed ++ [s]) := by
  intro pre v post hsplit before after hv u hu
  obtain rfl | ⟨post', last, rfl⟩ := List.eq_nil_or_concat post
  · obtain ⟨rfl, hsv⟩ := List.append_inj' hsplit rfl
    obtain rfl : s = v := (List.cons.inj hsv).1
    exact hs before after hv u hu
  · have hsplit' : executed ++ [s] = (pre ++ v :: post') ++ [last] := by
      rw [hsplit, List.concat_eq_append, List.append_assoc]
      rfl
    exact h pre v post' (List.append_inj' hsplit' rfl).1 before after hv u hu

end Order

namespace MigratedDb

variable {db : MigratedDb} {n : ℕ} {s : MigrationStep} {rest : List MigrationStep}

theorem Upto.createTable (h : db.Upto n) : db.createTable.Upto n := { h with rows := h.rows }

theorem Upto.isTracked_iff (h : db.Upto n) :
    db.isTracked s ↔ s.version ∈ (migrations.take n).map MigrationStep.version := by
  unfold isTracked
  rw [h.rows]

theorem Upto.execute (h : db.Upto n) (hs : Reached n (s :: rest)) : (db.execute s).Upto n where
  bound := h.bound
  rows := h.rows
  executed u hu := List.mem_append_left _ (h.executed u hu)
  atMost u hu := by
    obtain hu | hu := List.mem_append.1 hu
    · exact h.atMost u hu
    · rw [List.mem_singleton.1 hu]
      exact hs.mem_take
  successive := h.successive.concat fun _ _ hsplit u hu =>
    h.executed u (hs.before hsplit hu)

/-- The next migration is recorded once it has been executed. -/
theorem Upto.record (h : db.Upto n) (hs : Reached n (s :: rest)) (hexecuted : s ∈ db.executed)
    {db' : MigratedDb} (hrecord : db.record s = some db') :
    db'.Upto (n + 1) ∧ db'.executed = db.executed ∧ Reached (n + 1) rest := by
  unfold MigratedDb.record at hrecord
  split_ifs at hrecord with hnew
  obtain rfl := Option.some.inj hrecord
  have hnot := fun hmem => hnew.2 (h.isTracked_iff.2 hmem)
  obtain ⟨hlt, htake⟩ := hs.take_succ hnot
  refine ⟨⟨hlt, ?_, ?_, ?_, h.successive⟩, rfl, ?_⟩
  · show db.rows ++ [s] = _
    rw [htake, h.rows]
  · intro u hu
    rw [htake] at hu
    obtain hu | hu := List.mem_append.1 hu
    · exact h.executed u hu
    · rw [List.mem_singleton.1 hu]
      exact hexecuted
  · exact fun u hu => (List.take_subset_take_left _ (Nat.le_succ _)) (h.atMost u hu)
  · refine (hs.mono (Nat.le_succ n)).advance ?_
    rw [htake, List.map_append]
    exact List.mem_append_right _ List.mem_cons_self

end MigratedDb

/-! ## Runs -/

namespace MigrationWorld

variable {ι : Type} {w : MigrationWorld ι} {n : ℕ}

/-- The first `n` migrations are recorded, and no call relies on more. -/
structure InOrder (w : MigrationWorld ι) (n : ℕ) : Prop where
  db : w.db.Upto n
  runs : ∀ i, (w.runs i).stage.Sound w.db n

/-- What a statement of a sound call does. -/
theorem statement_spec {db : MigratedDb} {r : MigrationRun} (hdb : db.Upto n)
    (hr : r.stage.Sound db n) (reply : Reply) (e : String) :
    ∃ n', n ≤ n' ∧ (r.statement db reply e).1.Upto n' ∧
      (∀ s ∈ db.executed, s ∈ (r.statement db reply e).1.executed) ∧
      (r.statement db reply e).2.stage.Sound (r.statement db reply e).1 n' := by
  obtain ⟨stage, report⟩ := r
  have hsame : ∀ s ∈ db.executed, s ∈ db.executed := fun _ hs => hs
  cases stage with
  | create =>
    cases reply with
    | done => exact ⟨n, Nat.le_refl n, hdb.createTable, hsame,
        sound_next _ _ (reached_all n) hdb.bound⟩
    | lost => exact ⟨n, Nat.le_refl n, hdb.createTable, hsame, trivial⟩
    | failed => exact ⟨n, Nat.le_refl n, hdb, hsame, trivial⟩
  | check s rest =>
    simp only [MigrationRun.statement]
    split_ifs with hanswer htracked
    · have hreached : Reached n rest := Reached.advance hr (hdb.isTracked_iff.1 htracked)
      exact ⟨n, Nat.le_refl n, hdb, hsame, sound_next _ _ hreached hdb.bound⟩
    · exact ⟨n, Nat.le_refl n, hdb, hsame, hr⟩
    · exact ⟨n, Nat.le_refl n, hdb, hsame, trivial⟩
  | execute s rest =>
    have hmore : ∀ u ∈ db.executed, u ∈ (db.execute s).executed :=
      fun u hu => List.mem_append_left _ hu
    have hs : s ∈ (db.execute s).executed := List.mem_append_right _ (List.mem_singleton_self s)
    cases reply with
    | done => exact ⟨n, Nat.le_refl n, hdb.execute hr, hmore, hr, hs⟩
    | lost => exact ⟨n, Nat.le_refl n, hdb.execute hr, hmore, trivial⟩
    | failed => exact ⟨n, Nat.le_refl n, hdb, hsame, trivial⟩
  | record s rest =>
    obtain ⟨hreached, hexecuted⟩ := hr
    cases hrecord : db.record s with
    | none =>
      have hstatement : (MigrationRun.mk (.record s rest) report).statement db reply e =
          (db, MigrationRun.fail ⟨.record s rest, report⟩
            ("failed to record migration: " ++ e)) := by
        simp only [MigrationRun.statement, hrecord]
      rw [hstatement]
      exact ⟨n, Nat.le_refl n, hdb, hsame, trivial⟩
    | some db' =>
      obtain ⟨hdb', hlog, hreached'⟩ := hdb.record hreached hexecuted hrecord
      have hmore : ∀ u ∈ db.executed, u ∈ db'.executed := fun u hu => hlog ▸ hu
      simp only [MigrationRun.statement, hrecord]
      cases reply with
      | done => exact ⟨n + 1, Nat.le_succ n, hdb', hmore, sound_next _ _ hreached' hdb'.bound⟩
      | lost => exact ⟨n + 1, Nat.le_succ n, hdb', hmore, trivial⟩
      | failed => exact ⟨n, Nat.le_refl n, hdb, hsame, trivial⟩
  | returned result => exact ⟨n, Nat.le_refl n, hdb, hsame, hr⟩

theorem inOrder_start (m : ℕ) (hm : m ≤ migrations.length) :
    (start m : MigrationWorld ι).InOrder m where
  db := {
    bound := hm
    rows := by
      show Option.getD (if m = 0 then none else some (migrations.take m)) [] = _
      split_ifs with h
      · rw [h, List.take_zero, Option.getD_none]
      · rfl
    executed := fun _ hs => hs
    atMost := fun _ hs => List.take_subset_take_left _ (Nat.le_succ m) hs
    successive := by
      intro pre s post hsplit before after hall u hu
      -- what has been executed is an initial part of the list, and `s` stands in one place
      obtain ⟨tail, htail⟩ := List.take_prefix m migrations
      have hpre : migrations = pre ++ s :: (post ++ tail) := by
        rw [← htail, show migrations.take m = pre ++ s :: post from hsplit, List.append_assoc]
        rfl
      have hreached : Reached pre.length (s :: (post ++ tail)) := ⟨pre, hpre, Nat.le_refl _⟩
      have hmem := hreached.before hall hu
      rwa [hpre, List.take_left] at hmem }
  runs := fun _ => trivial

variable [DecidableEq ι]

theorem InOrder.step (h : w.InOrder n) (a : MigrationAct ι) :
    ∃ n', n ≤ n' ∧ (w.step a).InOrder n' := by
  cases a with
  | statement i reply e =>
    obtain ⟨n', hle, hdb, hmore, hrun⟩ := statement_spec h.db (h.runs i) reply e
    refine ⟨n', hle, hdb, fun j => ?_⟩
    show RunStage.Sound _ n' (Function.update w.runs i _ j).stage
    by_cases heq : j = i
    · subst heq
      rw [Function.update_self]
      exact hrun
    · rw [Function.update_of_ne heq]
      exact (h.runs j).mono hle hdb.bound hmore
  | restart i =>
    refine ⟨n, Nat.le_refl n, h.db, fun j => ?_⟩
    show RunStage.Sound _ n (Function.update w.runs i _ j).stage
    by_cases heq : j = i
    · subst heq
      rw [Function.update_self]
      trivial
    · rw [Function.update_of_ne heq]
      exact h.runs j

theorem InOrder.run (h : w.InOrder n) (acts : List (MigrationAct ι)) :
    ∃ n', n ≤ n' ∧ (Runs.run MigrationWorld.step w acts).InOrder n' := by
  induction acts generalizing w n with
  | nil => exact ⟨n, Nat.le_refl n, h⟩
  | cons a acts ih =>
    obtain ⟨n₁, hle₁, h₁⟩ := h.step a
    obtain ⟨n₂, hle₂, h₂⟩ := ih h₁
    exact ⟨n₂, hle₁.trans hle₂, h₂⟩

/-- **Main theorem**: let any number of processes run the migrations on a database that an archiver
    with the first `m` of them has set up, all stopping and starting again as they may. In every
    state some first `n` migrations are recorded, in their order; these have been executed, and
    beside them at most the next one; no migration was executed before those that precede it; and
    where a call has returned without an error, all are recorded. -/
theorem migrations_in_order (m : Fin (migrations.length + 1))
    (acts : List (MigrationAct ι)) :
    let w := Runs.run step (start m) acts
    ∃ n : ℕ, m ≤ n ∧ w.db.rows = migrations.take n ∧
      (∀ s ∈ migrations.take n, s ∈ w.db.executed) ∧
      (∀ s ∈ w.db.executed, s ∈ migrations.take (n + 1)) ∧ Successive w.db.executed ∧
      ∀ i report, (w.runs i).stage = .returned (.ok report) → w.db.rows = migrations := by
  intro w
  have hm : (m : ℕ) ≤ migrations.length := Nat.le_of_lt_succ m.isLt
  obtain ⟨n, hle, hw⟩ := (inOrder_start (ι := ι) m hm).run acts
  refine ⟨n, hle, hw.db.rows, hw.db.executed, hw.db.atMost, hw.db.successive, ?_⟩
  intro i report hreturned
  have hsound := hw.runs i
  rw [hreturned] at hsound
  rw [hw.db.rows, List.take_of_length_le (Nat.le_of_eq (Eq.symm hsound))]

/-! ## A run that is not disturbed -/

/-- The process `i` alone sends `k` statements, and all are answered. -/
def alone (i : ι) (k : ℕ) : List (MigrationAct ι) := List.replicate k (.statement i .done "")

theorem run_alone_add (w : MigrationWorld ι) (i : ι) (j k : ℕ) :
    Runs.run step w (alone i (j + k)) =
      Runs.run step (Runs.run step w (alone i j)) (alone i k) := by
  unfold alone
  rw [List.replicate_add, Runs.run_append]

/-- The world after the call of `i` has sent a statement that does this. -/
theorem run_alone_one {i : ι} {db : MigratedDb} {r : MigrationRun}
    (h : (w.runs i).statement w.db .done "" = (db, r)) :
    Runs.run step w (alone i 1) = ⟨db, Function.update w.runs i r⟩ := by
  show (let (db, r) := (w.runs i).statement w.db .done ""
    (⟨db, Function.update w.runs i r⟩ : MigrationWorld ι)) = _
  rw [h]

/-- What a loop comes to: the database, and the call of `i` with the migrations `rest` left. -/
structure Loops (w : MigrationWorld ι) (i : ι) (rows executed : List MigrationStep)
    (applied skipped : List ℕ) (rest : List MigrationStep) : Prop where
  tracked : w.db.tracked = some rows
  executed : w.db.executed = executed
  run : w.runs i = MigrationRun.next ⟨applied, skipped, migrations.length⟩ rest

variable {i : ι} {rows executed : List MigrationStep} {applied skipped : List ℕ}
  {s : MigrationStep} {rest : List MigrationStep}

/-- A migration that is recorded is skipped. -/
theorem Loops.skip (h : w.Loops i rows executed applied skipped (s :: rest))
    (hs : s.version ∈ rows.map MigrationStep.version) :
    (Runs.run step w (alone i 1)).Loops i rows executed applied (skipped ++ [s.version]) rest := by
  have htracked : w.db.isTracked s := by
    unfold MigratedDb.isTracked MigratedDb.rows
    rw [h.tracked]
    exact hs
  have hstatement : (w.runs i).statement w.db .done "" =
      (w.db, .next ⟨applied, skipped ++ [s.version], migrations.length⟩ rest) := by
    rw [h.run]
    show ite (Reply.done = .done ∧ w.db.tracked.isSome = true) (ite (w.db.isTracked s) _ _) _ = _
    rw [if_pos ⟨rfl, by rw [h.tracked]; rfl⟩, if_pos htracked]
    rfl
  rw [run_alone_one hstatement]
  exact ⟨h.tracked, h.executed, Function.update_self ..⟩

/-- One that is not is executed and recorded. -/
theorem Loops.apply (h : w.Loops i rows executed applied skipped (s :: rest))
    (hs : s.version ∉ rows.map MigrationStep.version) :
    (Runs.run step w (alone i 3)).Loops i (rows ++ [s]) (executed ++ [s])
      (applied ++ [s.version]) skipped rest := by
  have hnot : ¬w.db.isTracked s := by
    unfold MigratedDb.isTracked MigratedDb.rows
    rw [h.tracked]
    exact hs
  have hsome : w.db.tracked.isSome = true := by
    rw [h.tracked]
    rfl
  have hcheck : (w.runs i).statement w.db .done "" =
      (w.db, ⟨.execute s rest, ⟨applied, skipped, migrations.length⟩⟩) := by
    rw [h.run]
    show ite (Reply.done = .done ∧ w.db.tracked.isSome = true) (ite (w.db.isTracked s) _ _) _ = _
    rw [if_pos ⟨rfl, hsome⟩, if_neg hnot]
    rfl
  have hinsert : (w.db.execute s).record s =
      some { w.db.execute s with tracked := some (w.db.rows ++ [s]) } := if_pos ⟨hsome, hnot⟩
  let r₁ : MigrationRun := ⟨.execute s rest, ⟨applied, skipped, migrations.length⟩⟩
  let w₁ : MigrationWorld ι := ⟨w.db, Function.update w.runs i r₁⟩
  have hexecute : (w₁.runs i).statement w₁.db .done "" =
      (w.db.execute s, { r₁ with stage := .record s rest }) := by
    rw [show w₁.runs i = r₁ from Function.update_self ..]
    rfl
  let w₂ : MigrationWorld ι :=
    ⟨w.db.execute s, Function.update w₁.runs i { r₁ with stage := .record s rest }⟩
  have hrecord : (w₂.runs i).statement w₂.db .done "" =
      ({ w.db.execute s with tracked := some (w.db.rows ++ [s]) },
        .next ⟨applied ++ [s.version], skipped, migrations.length⟩ rest) := by
    rw [show w₂.runs i = { r₁ with stage := .record s rest } from Function.update_self ..]
    simp only [MigrationRun.statement, w₂, hinsert, r₁]
  rw [run_alone_add w i 1 2, run_alone_one hcheck, run_alone_add w₁ i 1 1, run_alone_one hexecute,
    run_alone_one hrecord]
  refine ⟨?_, ?_, Function.update_self ..⟩
  · show some (w.db.rows ++ [s]) = _
    unfold MigratedDb.rows
    rw [h.tracked]
    rfl
  · show w.db.executed ++ [s] = _
    rw [h.executed]

theorem Loops.skipAll {done : List MigrationStep}
    (h : w.Loops i rows executed applied skipped (done ++ rest))
    (hdone : ∀ s ∈ done, s.version ∈ rows.map MigrationStep.version) :
    (Runs.run step w (alone i done.length)).Loops i rows executed applied
      (skipped ++ done.map MigrationStep.version) rest := by
  induction done generalizing w skipped with
  | nil =>
    rw [List.map_nil, List.append_nil]
    exact h
  | cons s done ih =>
    have hrest := ih (h.skip (hdone s List.mem_cons_self)) fun u hu =>
      hdone u (List.mem_cons_of_mem s hu)
    rw [List.append_assoc] at hrest
    rw [List.length_cons, Nat.add_comm, run_alone_add]
    exact hrest

theorem Loops.applyAll (h : w.Loops i rows executed applied skipped rest)
    (hnodup : ((rows ++ rest).map MigrationStep.version).Nodup) :
    (Runs.run step w (alone i (3 * rest.length))).Loops i (rows ++ rest) (executed ++ rest)
      (applied ++ rest.map MigrationStep.version) skipped [] := by
  induction rest generalizing w rows executed applied with
  | nil =>
    rw [List.map_nil, List.append_nil, List.append_nil, List.append_nil]
    exact h
  | cons s rest ih =>
    have hnew : s.version ∉ rows.map MigrationStep.version := by
      rw [List.map_append, List.map_cons] at hnodup
      exact fun hmem => List.disjoint_of_nodup_append hnodup hmem List.mem_cons_self
    have hrest := ih (h.apply hnew) (by rwa [List.append_assoc])
    rw [List.append_assoc, List.append_assoc, List.append_assoc] at hrest
    rw [List.length_cons, Nat.mul_succ, Nat.add_comm, run_alone_add]
    exact hrest

/-- **Main theorem**: whatever has happened before, a call that is answered and not disturbed
    returns without an error after one statement, one for each migration that is recorded and three
    for each of the others. It skips the former and applies the latter, all once and in order, and
    then all are recorded: the next such call applies none. -/
theorem run_completes (m : Fin (migrations.length + 1)) (acts : List (MigrationAct ι)) (i : ι) :
    let w := Runs.run step (start m) acts
    let n := w.db.rows.length
    let statements := 1 + n + 3 * (migrations.length - n)
    let w' := Runs.run step w (.restart i :: alone i statements)
    w'.db.tracked = some migrations ∧ w'.db.executed = w.db.executed ++ migrations.drop n ∧
      (w'.runs i).stage = .returned (.ok ⟨(migrations.drop n).map MigrationStep.version,
        (migrations.take n).map MigrationStep.version, migrations.length⟩) := by
  intro w n statements w'
  have hm : (m : ℕ) ≤ migrations.length := Nat.le_of_lt_succ m.isLt
  obtain ⟨k, -, hw⟩ := (inOrder_start (ι := ι) m hm).run acts
  have hrows : w.db.rows = migrations.take k := hw.db.rows
  have hn : n = k := by
    show w.db.rows.length = k
    rw [hrows, List.length_take, Nat.min_eq_left hw.db.bound]
  have hcreate : ((w.step (.restart i)).runs i).statement w.db .done "" =
      (w.db.createTable, .next ⟨[], [], migrations.length⟩ migrations) := by
    rw [show (w.step (.restart i)).runs i = .start from Function.update_self ..]
    rfl
  have hstart : (Runs.run step (w.step (.restart i)) (alone i 1)).Loops i (migrations.take k)
      w.db.executed [] [] (migrations.take k ++ migrations.drop k) := by
    rw [run_alone_one hcreate]
    refine ⟨?_, rfl, ?_⟩
    · show some w.db.rows = _
      rw [hrows]
    · rw [List.take_append_drop]
      exact Function.update_self ..
  have hskipped := hstart.skipAll fun s hs => List.mem_map_of_mem hs
  have hlen : (migrations.take k).length = n := by rw [← hrows]
  have hdrop : (migrations.drop k).length = migrations.length - n := by rw [List.length_drop, hn]
  have hall := hskipped.applyAll (by
    rw [List.take_append_drop]
    exact nodup_versions)
  rw [hlen, hdrop, ← run_alone_add, ← run_alone_add, ← Nat.add_assoc,
    List.take_append_drop] at hall
  have hrun : w' = Runs.run step (w.step (.restart i)) (alone i statements) := rfl
  rw [hrun, hn]
  refine ⟨hall.tracked, ?_, ?_⟩
  · rw [hall.executed]
  · rw [hall.run]
    rfl

/-! ## Migrations executed once -/

end MigrationWorld

/-- The call has found its migration not recorded and has not recorded it. -/
def RunStage.Busy : RunStage → Prop
  | .execute _ _ => True
  | .record _ _ => True
  | _ => False

/-- The call has executed its migration and has not recorded it. -/
def RunStage.Recording : RunStage → Prop
  | .record _ _ => True
  | _ => False

theorem RunStage.Recording.busy {stage : RunStage} (h : stage.Recording) : stage.Busy := by
  cases stage with
  | record s rest => trivial
  | _ => exact h.elim

namespace MigrationWorld

variable {ι : Type} {w : MigrationWorld ι}

/-- No call asks for a migration while another is busy with one, the reply to a text is not lost,
    and a call that has executed a migration records it. -/
def Undisturbed (w : MigrationWorld ι) : MigrationAct ι → Prop
  | .statement i reply _ =>
    match (w.runs i).stage with
    | .check _ _ => ∀ j, j ≠ i → ¬(w.runs j).stage.Busy
    | .execute _ _ => reply ≠ .lost
    | .record _ _ => reply ≠ .failed
    | _ => True
  | .restart i => ¬(w.runs i).stage.Recording

/-- What has been executed is recorded, but for the migration a call is about to record. -/
structure Once (w : MigrationWorld ι) : Prop where
  single : ∀ i j, (w.runs i).stage.Busy → (w.runs j).stage.Busy → i = j
  table : ∀ i, (w.runs i).stage.Busy → w.db.tracked.isSome
  new : ∀ i s rest, (w.runs i).stage = .execute s rest ∨ (w.runs i).stage = .record s rest →
    ¬w.db.isTracked s
  log : ∀ i s rest, (w.runs i).stage = .record s rest → w.db.executed = w.db.rows ++ [s]
  idle : (∀ i, ¬(w.runs i).stage.Recording) → w.db.executed = w.db.rows

variable [DecidableEq ι]

/-- The states of the calls after a step of `i`. -/
theorem runs_update {i j : ι} {r : MigrationRun} (P : RunStage → Prop)
    (h : P (Function.update w.runs i r j).stage) :
    j = i ∧ P r.stage ∨ j ≠ i ∧ P (w.runs j).stage := by
  by_cases heq : j = i
  · subst heq
    rw [Function.update_self] at h
    exact .inl ⟨rfl, h⟩
  · rw [Function.update_of_ne heq] at h
    exact .inr ⟨heq, h⟩

/-- A step after which the call is not busy, which did not record and does not. -/
theorem Once.quiet (h : w.Once) {i : ι} {db : MigratedDb} {r : MigrationRun}
    (hrows : db.rows = w.db.rows) (htracked : w.db.tracked.isSome → db.tracked.isSome)
    (hlog : db.executed = w.db.executed) (hold : ¬(w.runs i).stage.Recording)
    (hnew : ¬r.stage.Busy) : Once ⟨db, Function.update w.runs i r⟩ where
  single j k hj hk := by
    obtain ⟨-, hj⟩ | ⟨-, hj⟩ := runs_update RunStage.Busy hj
    · exact absurd hj hnew
    obtain ⟨-, hk⟩ | ⟨-, hk⟩ := runs_update RunStage.Busy hk
    · exact absurd hk hnew
    exact h.single j k hj hk
  table j hj := by
    obtain ⟨-, hj⟩ | ⟨-, hj⟩ := runs_update RunStage.Busy hj
    · exact absurd hj hnew
    exact htracked (h.table j hj)
  new j s rest hj := by
    obtain ⟨-, hj⟩ | ⟨-, hj⟩ :=
      runs_update (fun stage => stage = .execute s rest ∨ stage = .record s rest) hj
    · refine absurd ?_ hnew
      obtain hj | hj := hj <;> rw [hj] <;> trivial
    · unfold MigratedDb.isTracked
      rw [hrows]
      exact h.new j s rest hj
  log j s rest hj := by
    obtain ⟨-, hj⟩ | ⟨-, hj⟩ := runs_update (fun stage => stage = .record s rest) hj
    · refine absurd ?_ hnew
      rw [hj]
      trivial
    · show db.executed = db.rows ++ [s]
      rw [hlog, hrows]
      exact h.log j s rest hj
  idle hidle := by
    show db.executed = db.rows
    rw [hlog, hrows]
    refine h.idle fun j => ?_
    by_cases heq : j = i
    · rw [heq]
      exact hold
    · have hkeep : ¬(Function.update w.runs i r j).stage.Recording := hidle j
      rwa [Function.update_of_ne heq] at hkeep

/-- A step after which the call is the only one that is busy. -/
theorem Once.busy {i : ι} {db : MigratedDb} {r : MigrationRun} {s : MigrationStep}
    {rest : List MigrationStep} (hothers : ∀ j, j ≠ i → ¬(w.runs j).stage.Busy)
    (htable : db.tracked.isSome) (hs : ¬db.isTracked s)
    (hr : r.stage = .execute s rest ∧ db.executed = db.rows ∨
      r.stage = .record s rest ∧ db.executed = db.rows ++ [s]) :
    Once ⟨db, Function.update w.runs i r⟩ where
  single j k hj hk := by
    obtain ⟨rfl, -⟩ | ⟨hne, hj⟩ := runs_update RunStage.Busy hj
    · obtain ⟨rfl, -⟩ | ⟨hne, hk⟩ := runs_update RunStage.Busy hk
      · rfl
      · exact absurd hk (hothers k hne)
    · exact absurd hj (hothers j hne)
  table _ _ := htable
  new j u rest' hj := by
    obtain ⟨-, hj⟩ | ⟨hne, hj⟩ :=
      runs_update (fun stage => stage = .execute u rest' ∨ stage = .record u rest') hj
    · have hu : u = s := by
        obtain ⟨hr, -⟩ | ⟨hr, -⟩ := hr <;> rw [hr] at hj <;> simp at hj <;> exact hj.1.symm
      rw [hu]
      exact hs
    · refine absurd ?_ (hothers j hne)
      obtain hj | hj := hj <;> rw [hj] <;> trivial
  log j u rest' hj := by
    obtain ⟨-, hj⟩ | ⟨hne, hj⟩ := runs_update (fun stage => stage = .record u rest') hj
    · obtain ⟨hr, -⟩ | ⟨hr, hlog⟩ := hr
      · rw [hr] at hj
        cases hj
      · rw [hr] at hj
        cases hj
        exact hlog
    · refine absurd ?_ (hothers j hne)
      rw [hj]
      trivial
  idle hidle := by
    obtain ⟨-, hlog⟩ | ⟨hr, -⟩ := hr
    · exact hlog
    · refine absurd ?_ (hidle i)
      show (Function.update w.runs i r i).stage.Recording
      rw [Function.update_self, hr]
      trivial

/-- A step that records the migration of the only busy call. -/
theorem Once.recorded {i : ι} {db : MigratedDb} {r : MigrationRun}
    (hothers : ∀ j, j ≠ i → ¬(w.runs j).stage.Busy) (hlog : db.executed = db.rows)
    (hr : ¬r.stage.Busy) : Once ⟨db, Function.update w.runs i r⟩ := by
  have hidle : ∀ j, ¬(Function.update w.runs i r j).stage.Busy := by
    intro j hj
    obtain ⟨-, hj⟩ | ⟨hne, hj⟩ := runs_update RunStage.Busy hj
    · exact hr hj
    · exact hothers j hne hj
  refine ⟨fun j _ hj => absurd hj (hidle j), fun j hj => absurd hj (hidle j), ?_, ?_,
    fun _ => hlog⟩
  · intro j s rest hj
    refine absurd ?_ (hidle j)
    obtain hj | hj := hj <;> rw [show (Function.update w.runs i r j).stage = _ from hj] <;> trivial
  · intro j s rest hj
    refine absurd ?_ (hidle j)
    rw [show (Function.update w.runs i r j).stage = _ from hj]
    trivial

theorem Once.step (h : w.Once) {a : MigrationAct ι} (ha : w.Undisturbed a) : (w.step a).Once := by
  cases a with
  | restart i => exact h.quiet rfl id rfl ha fun hbusy => hbusy
  | statement i reply e =>
    show Once ⟨((w.runs i).statement w.db reply e).1,
      Function.update w.runs i ((w.runs i).statement w.db reply e).2⟩
    simp only [Undisturbed] at ha
    cases hrun : w.runs i with | mk stage report
    have hstage : (w.runs i).stage = stage := by rw [hrun]
    rw [hstage] at ha
    have hold : ¬stage.Recording → ¬(w.runs i).stage.Recording := by
      rw [hstage]
      exact id
    have hbusy : stage.Busy → (w.runs i).stage.Busy := by
      rw [hstage]
      exact id
    have hothers : stage.Busy → ∀ j, j ≠ i → ¬(w.runs j).stage.Busy := fun hi j hne hj =>
      hne (h.single j i hj (hbusy hi))
    have hnext : ∀ report rest, ¬(MigrationRun.next report rest).stage.Busy := by
      rintro report (_ | ⟨s, rest⟩) hbusy <;> exact hbusy
    cases stage with
    | create =>
      have htable : w.db.tracked.isSome → w.db.createTable.tracked.isSome := fun _ => rfl
      cases reply with
      | done => exact h.quiet rfl htable rfl (hold id) (hnext _ _)
      | lost => exact h.quiet rfl htable rfl (hold id) id
      | failed => exact h.quiet rfl id rfl (hold id) id
    | check s rest =>
      have hidle : w.db.executed = w.db.rows := by
        refine h.idle fun j hj => ?_
        by_cases heq : j = i
        · rw [heq] at hj
          exact hold id hj
        · exact ha j heq hj.busy
      simp only [MigrationRun.statement]
      split_ifs with hanswer htracked
      · exact h.quiet rfl id rfl (hold id) (hnext _ _)
      · exact .busy ha hanswer.2 htracked (.inl ⟨rfl, hidle⟩)
      · exact h.quiet rfl id rfl (hold id) id
    | execute s rest =>
      have hidle : w.db.executed = w.db.rows := by
        refine h.idle fun j hj => ?_
        rw [h.single j i hj.busy (hbusy trivial)] at hj
        exact hold id hj
      cases reply with
      | done =>
        refine .busy (hothers trivial) (h.table i (hbusy trivial)) (h.new i s rest (.inl hstage))
          (.inr ⟨rfl, ?_⟩)
        show w.db.executed ++ [s] = w.db.rows ++ [s]
        rw [hidle]
      | lost => exact absurd rfl ha
      | failed => exact h.quiet rfl id rfl (hold id) id
    | record s rest =>
      have hinsert : w.db.record s = some { w.db with tracked := some (w.db.rows ++ [s]) } :=
        if_pos ⟨h.table i (hbusy trivial), h.new i s rest (.inr hstage)⟩
      have hlog : w.db.executed = w.db.rows ++ [s] := h.log i s rest hstage
      simp only [MigrationRun.statement, hinsert]
      cases reply with
      | done => exact .recorded (hothers trivial) hlog (hnext _ _)
      | lost => exact .recorded (hothers trivial) hlog id
      | failed => exact absurd rfl ha
    | returned result =>
      exact h.quiet rfl id rfl (hold id) id

omit [DecidableEq ι] in
theorem once_start (m : ℕ) (hm : m ≤ migrations.length) : (start m : MigrationWorld ι).Once where
  single _ _ hi _ := hi.elim
  table _ hi := hi.elim
  new _ _ _ hi := by
    obtain hi | hi := hi <;> cases hi
  log _ _ _ hi := by cases hi
  idle _ := (inOrder_start (ι := ι) m hm).db.rows.symm

/-- **Main theorem**: let the processes run the migrations without disturbing one another, and no
    call stop between a text and its record. Then no migration is executed twice, also not one
    that an earlier archiver has executed. -/
theorem executed_once (m : Fin (migrations.length + 1)) (acts : List (MigrationAct ι))
    (hacts : Runs.AlongSteps step Undisturbed (start m) acts) :
    (Runs.run step (start m) acts).db.executed.Nodup := by
  have hm : (m : ℕ) ≤ migrations.length := Nat.le_of_lt_succ m.isLt
  obtain ⟨n, -, hw⟩ := (inOrder_start (ι := ι) m hm).run acts
  have honce := (hacts.invariant (fun _ _ ha h => h.step ha) (once_start m hm)).last
  have hnodup : (Runs.run step (start m) acts).db.rows.Nodup := by
    rw [hw.db.rows]
    exact (List.Nodup.of_map _ nodup_versions).sublist (List.take_sublist _ _)
  by_cases hidle : ∀ i, ¬((Runs.run step (start m) acts).runs i).stage.Recording
  · rw [honce.idle hidle]
    exact hnodup
  · obtain ⟨i, hi⟩ := not_forall.1 hidle
    replace hi := not_not.1 hi
    cases hstage : ((Runs.run step (start m) acts).runs i).stage with
    | record s rest =>
      rw [honce.log i s rest hstage]
      have hnew := honce.new i s rest (.inr hstage)
      refine List.nodup_append'.2 ⟨hnodup, List.nodup_singleton s, ?_⟩
      exact List.disjoint_singleton.2 fun hmem => hnew (List.mem_map_of_mem hmem)
    | _ =>
      rw [hstage] at hi
      exact hi.elim

/-- A process on an empty database, up to the first record. -/
theorem executed_once_first :
    let acts : List (MigrationAct Unit) := alone () 4
    (Runs.run step (start 0) acts).db.executed = [⟨1, "extensions"⟩] ∧
      (Runs.run step (start 0) acts).db.executed.Nodup :=
  ⟨by decide, executed_once 0 _
    ⟨trivial, fun _ hne => (hne rfl).elim, (by decide : Reply.done ≠ .lost),
      (by decide : Reply.done ≠ .failed), trivial⟩⟩

/-- Two processes that start together both execute the first migration. -/
example :
    let acts : List (MigrationAct Bool) := [.statement false .done "", .statement true .done "",
      .statement false .done "", .statement true .done "", .statement false .done "",
      .statement true .done ""]
    (Runs.run step (start 0) acts).db.executed = [⟨1, "extensions"⟩, ⟨1, "extensions"⟩] := by
  decide

end MigrationWorld

end AuraEpics.Store

import AuraEpics.Main.Status
import Mathlib.Data.List.Dedup

/-!
# The list of IOCs

Model of `GET /api/v1/iocs` (`crates/aura-api/src/iocs.rs`, lines 28-308): the rows of `ioc_config`
and the PVs of `pv_status`, grouped by their `ioc_addr`, are joined, and each address gets a state
that is derived from the numbers of its PVs. The query of the request is in `Api.Iocs`; here it is
empty. The views stand in no particular order.

Results:
* `list_iff`, which addresses are listed, and what the state of each says of its PVs;
* `list_counts`, the numbers of a view are those of its PVs, and those of all views add up;
* `list_disconnect_iff`, the state of an address after its PVs were disconnected.
-/

namespace AuraEpics.Api

open AuraEpics.Main

/-! ## Model -/

/-- The module `state` (lines 29-36). -/
inductive IocState where
  | disabled | connecting | up | degraded | down | idle
  deriving DecidableEq, Repr

/-- The number of a state (lines 30-35). -/
def IocState.code : IocState → Int16
  | .disabled => 0
  | .connecting => 1
  | .up => 2
  | .degraded => 3
  | .down => 4
  | .idle => 5

/-- `Counts` (lines 73-82). -/
structure Counts where
  total : ℕ
  archiving : ℕ
  connected : ℕ
  searching : ℕ
  disconnected : ℕ
  timeout : ℕ
  unsubscribed : ℕ
  deriving DecidableEq, Repr

/-- `derive_state` (lines 49-71). -/
def deriveState (declared enabled : Bool) (c : Counts) : IocState :=
  if declared ∧ ¬enabled then .disabled
  else if c.total = 0 ∨ c.total = c.unsubscribed then .idle
  else
    let live := c.connected + c.archiving
    let lost := c.disconnected + c.timeout
    if live = 0 ∧ 0 < lost then .down
    else if live = 0 then .connecting
    else if 0 < lost then .degraded
    else .up

/-- `pv_status` with the names of its PVs. -/
structure StatusTable where
  table : PvStatusTable
  names : List String
  nodup : names.Nodup
  complete : ∀ name, name ∈ names ↔ (table name).isSome

namespace StatusTable

/-- The rows. -/
def rows (t : StatusTable) : List PvStatus := t.names.filterMap t.table

/-- The rows of a group: `WHERE ioc_addr IS NOT NULL GROUP BY ioc_addr` (lines 209-210). -/
def rowsAt (t : StatusTable) (address : String) : List PvStatus :=
  t.rows.filter fun r => decide (r.iocAddr = some address)

/-- The addresses of the groups. -/
def groups (t : StatusTable) : List String := (t.rows.filterMap PvStatus.iocAddr).dedup

end StatusTable

/-- The counts of a group (lines 197-203). -/
def Counts.ofRows (rows : List PvStatus) : Counts :=
  let count (s : PvState) := rows.countP fun r => decide (r.state = s)
  ⟨rows.length, count .archiving, count .connected, count .searching, count .disconnected,
    count .timeout, count .unsubscribed⟩

/-- A row of `ioc_config` (`migrations/013_ioc_config.sql`, lines 9-15), without its time. -/
structure ConfigRow where
  address : String
  label : String
  enabled : Bool
  deriving DecidableEq, Repr

/-- `ioc_config`; the address is the primary key. -/
structure IocConfig where
  rows : List ConfigRow
  nodup : (rows.map ConfigRow.address).Nodup

/-- `IocRow` (lines 87-113), as far as the state is derived from it. -/
structure IocRow where
  address : String
  label : Option String
  enabled : Option Bool
  declared : Bool
  counts : Counts

/-- `IocView` (lines 115-144), the same part of it. -/
structure IocView where
  address : String
  name : Option String
  enabled : Bool
  declared : Bool
  state : IocState
  counts : Counts

/-- `IocView::from` (lines 146-183). -/
def IocView.from (r : IocRow) : IocView where
  address := r.address
  name := r.label.filter fun s => s ≠ ""
  enabled := r.enabled.getD true
  declared := r.declared
  state := deriveState r.declared (r.enabled.getD true) r.counts
  counts := r.counts

/-- `FROM ioc_config c FULL OUTER JOIN agg a ON a.ioc_addr = c.address` (lines 212-231): the rows
    of the table, with zeros where there is no group, and the groups without a row. -/
def merged (c : IocConfig) (t : StatusTable) : List IocRow :=
  (c.rows.map fun r =>
    ⟨r.address, some r.label, some r.enabled, true, .ofRows (t.rowsAt r.address)⟩) ++
  (t.groups.filter fun a => decide (a ∉ c.rows.map ConfigRow.address)).map fun a =>
    ⟨a, none, none, false, .ofRows (t.rowsAt a)⟩

/-- `list` (lines 276-308) without a query; `want` filters by the derived state. -/
def list (c : IocConfig) (t : StatusTable) (want : Option Int16) : List IocView :=
  let views := (merged c t).map IocView.from
  match want with
  | none => views
  | some code => views.filter fun v => decide (v.state.code = code)

/-! ## What a state says -/

/-- The PV delivers. -/
def Live (s : PvState) : Prop := s = .connected ∨ s = .archiving

/-- The PV did and does no more. -/
def Lost (s : PvState) : Prop := s = .disconnected ∨ s = .timeout

/-- What a state says of an IOC, where `some P` is that one of its PVs is in a state with `P`. -/
def Describes (disabled : Prop) (some : (PvState → Prop) → Prop) : IocState → Prop
  | .disabled => disabled
  | .idle => ¬disabled ∧ ¬some (· ≠ .unsubscribed)
  | .connecting => ¬disabled ∧ some (· ≠ .unsubscribed) ∧ ¬some Live ∧ ¬some Lost
  | .down => ¬disabled ∧ ¬some Live ∧ some Lost
  | .degraded => ¬disabled ∧ some Live ∧ some Lost
  | .up => ¬disabled ∧ some Live ∧ ¬some Lost

/-- The IOC is declared and switched off. -/
def IocConfig.Disabled (c : IocConfig) (a : String) : Prop :=
  ∃ r ∈ c.rows, r.address = a ∧ r.enabled = false

/-- Some PV of the address is in a state with `P`. -/
def StatusTable.HasPv (t : StatusTable) (a : String) (P : PvState → Prop) : Prop :=
  ∃ name r, t.table name = some r ∧ r.iocAddr = some a ∧ P r.state

/-- The address is declared or has PVs. -/
def Known (c : IocConfig) (t : StatusTable) (a : String) : Prop :=
  a ∈ c.rows.map ConfigRow.address ∨ t.HasPv a fun _ => True

section Derive

variable {rows : List PvStatus}

theorem count_eq_zero_iff (rows : List PvStatus) (s : PvState) :
    (rows.countP fun r => decide (r.state = s)) = 0 ↔ ¬∃ r ∈ rows, r.state = s := by
  rw [List.countP_eq_zero]
  simp only [decide_eq_true_eq, not_exists, not_and]

theorem idle_iff :
    (Counts.ofRows rows).total = 0 ∨
        (Counts.ofRows rows).total = (Counts.ofRows rows).unsubscribed ↔
      ¬∃ r ∈ rows, r.state ≠ .unsubscribed := by
  have hall : (rows.countP fun r => decide (r.state = .unsubscribed)) = rows.length ↔
      ∀ r ∈ rows, r.state = .unsubscribed := by
    rw [List.countP_eq_length]
    simp only [decide_eq_true_eq]
  push Not
  rw [← hall]
  constructor
  · rintro (h | h)
    · rw [List.length_eq_zero_iff.1 h]
      rfl
    · exact h.symm
  · exact fun h => .inr h.symm

theorem live_iff :
    (Counts.ofRows rows).connected + (Counts.ofRows rows).archiving = 0 ↔
      ¬∃ r ∈ rows, Live r.state := by
  have hconnected := count_eq_zero_iff rows .connected
  have harchiving := count_eq_zero_iff rows .archiving
  rw [Nat.add_eq_zero_iff]
  refine (and_congr hconnected harchiving).trans ?_
  unfold Live
  grind

theorem lost_iff :
    0 < (Counts.ofRows rows).disconnected + (Counts.ofRows rows).timeout ↔
      ∃ r ∈ rows, Lost r.state := by
  have hdisconnected := count_eq_zero_iff rows .disconnected
  have htimeout := count_eq_zero_iff rows .timeout
  rw [Nat.pos_iff_ne_zero, Ne, Nat.add_eq_zero_iff, ← not_iff_not, not_not]
  refine (and_congr hdisconnected htimeout).trans ?_
  unfold Lost
  grind

/-- The numbers of the PVs of an IOC come to what there is among its PVs. -/
theorem deriveState_iff (declared enabled : Bool) (s : IocState) :
    deriveState declared enabled (.ofRows rows) = s ↔
      Describes (declared ∧ ¬enabled) (fun P => ∃ r ∈ rows, P r.state) s := by
  have hlive : (∃ r ∈ rows, Live r.state) → ∃ r ∈ rows, r.state ≠ .unsubscribed := by
    rintro ⟨r, hr, h | h⟩ <;> exact ⟨r, hr, by rw [h]; decide⟩
  have hlost : (∃ r ∈ rows, Lost r.state) → ∃ r ∈ rows, r.state ≠ .unsubscribed := by
    rintro ⟨r, hr, h | h⟩ <;> exact ⟨r, hr, by rw [h]; decide⟩
  unfold deriveState
  dsimp only
  by_cases hdisabled : declared = true ∧ ¬enabled = true
  · rw [if_pos hdisabled]
    cases s <;> simp only [Describes, eq_true hdisabled, not_true_eq_false, false_and,
      reduceCtorEq]
  by_cases hused : ∃ r ∈ rows, r.state ≠ .unsubscribed
  · rw [if_neg hdisabled, if_neg fun h => idle_iff.1 h hused]
    by_cases hl : ∃ r ∈ rows, Live r.state <;> by_cases hx : ∃ r ∈ rows, Lost r.state <;>
      cases s <;> simp only [Describes, live_iff, lost_iff, hdisabled, hused, hl, hx,
        not_true_eq_false, not_false_eq_true, and_true, and_false, reduceIte, reduceCtorEq]
  · have hl : ¬∃ r ∈ rows, Live r.state := fun h => hused (hlive h)
    have hx : ¬∃ r ∈ rows, Lost r.state := fun h => hused (hlost h)
    rw [if_neg hdisabled, if_pos (idle_iff.2 hused)]
    cases s <;> simp only [Describes, hdisabled, hused, hl, hx, not_false_eq_true, and_true,
      and_false, reduceCtorEq]

end Derive

/-! ## The list -/

section Rows

variable {t : StatusTable} {c : IocConfig} {a : String}

theorem mem_rowsAt {r : PvStatus} :
    r ∈ t.rowsAt a ↔ (∃ name, t.table name = some r) ∧ r.iocAddr = some a := by
  unfold StatusTable.rowsAt StatusTable.rows
  rw [List.mem_filter, List.mem_filterMap, decide_eq_true_eq]
  refine and_congr_left fun _ => ⟨fun ⟨name, _, h⟩ => ⟨name, h⟩, fun ⟨name, h⟩ => ⟨name, ?_, h⟩⟩
  exact (t.complete name).2 (by rw [h]; rfl)

theorem exists_rowsAt (P : PvState → Prop) : (∃ r ∈ t.rowsAt a, P r.state) ↔ t.HasPv a P := by
  simp only [mem_rowsAt]
  constructor
  · rintro ⟨r, ⟨⟨name, h⟩, ha⟩, hP⟩
    exact ⟨name, r, h, ha, hP⟩
  · rintro ⟨name, r, h, ha, hP⟩
    exact ⟨r, ⟨⟨name, h⟩, ha⟩, hP⟩

theorem mem_groups : a ∈ t.groups ↔ t.HasPv a fun _ => True := by
  rw [← exists_rowsAt]
  unfold StatusTable.groups StatusTable.rowsAt
  rw [List.mem_dedup, List.mem_filterMap]
  simp only [List.mem_filter, decide_eq_true_eq, and_true]

/-- The addresses of the join: those of the table, and the groups that are not in it. -/
theorem addresses_merged : (merged c t).map IocRow.address =
    c.rows.map ConfigRow.address ++
      t.groups.filter fun a => decide (a ∉ c.rows.map ConfigRow.address) := by
  unfold merged
  rw [List.map_append, List.map_map, List.map_map]
  exact congrArg₂ _ rfl (List.map_id _)

theorem nodup_addresses_merged : ((merged c t).map IocRow.address).Nodup := by
  rw [addresses_merged]
  refine List.nodup_append'.2 ⟨c.nodup, (List.nodup_dedup _).filter _, ?_⟩
  exact fun b hb hmem => of_decide_eq_true (List.mem_filter.1 hmem).2 hb

theorem mem_addresses_merged : a ∈ (merged c t).map IocRow.address ↔ Known c t a := by
  rw [addresses_merged, List.mem_append, List.mem_filter, decide_eq_true_eq, mem_groups]
  unfold Known
  tauto

/-- The state of a row of the join is that of its address. -/
theorem describes_merged {r : IocRow} (hr : r ∈ merged c t) (s : IocState) :
    (IocView.from r).state = s ↔
      Describes (c.Disabled r.address) (t.HasPv r.address) s := by
  have hpvs : (fun P : PvState → Prop => ∃ q ∈ t.rowsAt r.address, P q.state) =
      t.HasPv r.address := funext fun P => propext (exists_rowsAt P)
  obtain hr | hr := List.mem_append.1 hr
  · obtain ⟨q, hq, rfl⟩ := List.mem_map.1 hr
    have hdisabled : (true = true ∧ ¬q.enabled = true) = c.Disabled q.address := by
      refine propext ⟨fun h => ⟨q, hq, rfl, Bool.not_eq_true _ ▸ h.2⟩, ?_⟩
      rintro ⟨q', hq', haddress, henabled⟩
      obtain rfl : q' = q := List.inj_on_of_nodup_map c.nodup hq' hq haddress
      exact ⟨rfl, by rw [henabled]; decide⟩
    rw [← hdisabled, ← hpvs]
    exact deriveState_iff true q.enabled s
  · obtain ⟨b, hb, rfl⟩ := List.mem_map.1 hr
    have hundeclared : b ∉ c.rows.map ConfigRow.address :=
      of_decide_eq_true (List.mem_filter.1 hb).2
    have hdisabled : (false = true ∧ ¬true = true) = c.Disabled b := by
      refine propext ⟨fun h => absurd h.1 Bool.false_ne_true, ?_⟩
      rintro ⟨q, hq, haddress, -⟩
      exact absurd (List.mem_map.2 ⟨q, hq, haddress⟩) hundeclared
    rw [← hdisabled, ← hpvs]
    exact deriveState_iff false true s

end Rows

/-- **Main theorem**: the list has one view at most for an address. It has one with the state `s`
    exactly if the address is declared or has PVs, the state describes its PVs, and no other state
    was asked for. -/
theorem list_iff (c : IocConfig) (t : StatusTable) (want : Option Int16) :
    ((list c t want).map IocView.address).Nodup ∧
      ∀ a s, (∃ v ∈ list c t want, v.address = a ∧ v.state = s) ↔
        Known c t a ∧ Describes (c.Disabled a) (t.HasPv a) s ∧ ∀ code ∈ want, s.code = code := by
  have hviews : ((merged c t).map IocView.from).map IocView.address =
      (merged c t).map IocRow.address := by
    rw [List.map_map]
    rfl
  have hnodup : (((merged c t).map IocView.from).map IocView.address).Nodup :=
    hviews ▸ nodup_addresses_merged
  have hall : ∀ a s, (∃ v ∈ (merged c t).map IocView.from, v.address = a ∧ v.state = s) ↔
      Known c t a ∧ Describes (c.Disabled a) (t.HasPv a) s := by
    intro a s
    rw [← mem_addresses_merged]
    constructor
    · rintro ⟨v, hv, rfl, rfl⟩
      obtain ⟨r, hr, rfl⟩ := List.mem_map.1 hv
      exact ⟨List.mem_map_of_mem hr, (describes_merged hr _).1 rfl⟩
    · rintro ⟨ha, hs⟩
      obtain ⟨r, hr, rfl⟩ := List.mem_map.1 ha
      exact ⟨_, List.mem_map_of_mem hr, rfl, (describes_merged hr s).2 hs⟩
  cases want with
  | none =>
    refine ⟨hnodup, fun a s => (hall a s).trans ?_⟩
    simp only [Option.mem_def, reduceCtorEq, false_implies, implies_true, and_true]
  | some code =>
    refine ⟨hnodup.sublist (List.filter_sublist.map _), fun a s => ?_⟩
    rw [← and_assoc, ← hall a s]
    simp only [list, List.mem_filter, decide_eq_true_eq, Option.mem_def, Option.some.injEq,
      forall_eq']
    constructor
    · rintro ⟨v, ⟨hv, hcode⟩, ha, hs⟩
      exact ⟨⟨v, hv, ha, hs⟩, hs ▸ hcode⟩
    · rintro ⟨⟨v, hv, ha, hs⟩, hcode⟩
      exact ⟨v, ⟨hv, hs ▸ hcode⟩, ha, hs⟩

/-! ## The numbers -/

/-- The number of PVs in a state; those in the state `init` are in the total only. -/
def Counts.inState (c : Counts) : PvState → ℕ
  | .init => c.total - (c.archiving + c.connected + c.searching + c.disconnected + c.timeout +
      c.unsubscribed)
  | .searching => c.searching
  | .connected => c.connected
  | .archiving => c.archiving
  | .disconnected => c.disconnected
  | .timeout => c.timeout
  | .unsubscribed => c.unsubscribed

section Numbers

variable {rows : List PvStatus} {c : IocConfig} {t : StatusTable}

theorem inState_ofRows (rows : List PvStatus) (s : PvState) :
    (Counts.ofRows rows).inState s = rows.countP fun r => decide (r.state = s) := by
  have hparts : rows.length = (Counts.ofRows rows).archiving + (Counts.ofRows rows).connected +
      (Counts.ofRows rows).searching + (Counts.ofRows rows).disconnected +
      (Counts.ofRows rows).timeout + (Counts.ofRows rows).unsubscribed +
      rows.countP fun r => decide (r.state = .init) := by
    unfold Counts.ofRows
    dsimp only
    induction rows with
    | nil => rfl
    | cons r rows ih =>
      simp only [List.length_cons, List.countP_cons]
      cases r.state <;> simp only [reduceCtorEq, decide_false, decide_true, Bool.false_eq_true,
        if_false, if_true] <;> omega
  cases s with
  | init =>
    show rows.length - _ = _
    rw [hparts]
    exact Nat.add_sub_cancel_left ..
  | searching => rfl
  | connected => rfl
  | archiving => rfl
  | disconnected => rfl
  | timeout => rfl
  | unsubscribed => rfl

theorem counts_merged {r : IocRow} (hr : r ∈ merged c t) :
    r.counts = .ofRows (t.rowsAt r.address) := by
  obtain hr | hr := List.mem_append.1 hr
  · obtain ⟨q, -, rfl⟩ := List.mem_map.1 hr
    rfl
  · obtain ⟨b, -, rfl⟩ := List.mem_map.1 hr
    rfl

/-- The numbers of the groups of some addresses add up. -/
theorem sum_countP_groups (p : PvStatus → Bool) {as : List String} (hnodup : as.Nodup) :
    (as.map fun a => (rows.filter fun r => decide (r.iocAddr = some a)).countP p).sum =
      rows.countP fun r => decide (∃ a ∈ as, r.iocAddr = some a) && p r := by
  induction as with
  | nil => simp
  | cons a as ih =>
    obtain ⟨hnew, hrest⟩ := List.nodup_cons.1 hnodup
    rw [List.map_cons, List.sum_cons, ih hrest, List.countP_filter]
    clear ih
    induction rows with
    | nil => rfl
    | cons r rows ih =>
      rw [List.countP_cons, List.countP_cons, List.countP_cons, ← ih]
      -- a row is of one address only
      have hone : r.iocAddr = some a → ¬∃ b ∈ as, r.iocAddr = some b := by
        rintro ha ⟨b, hb, hrb⟩
        rw [ha] at hrb
        exact hnew (Option.some.inj hrb ▸ hb)
      by_cases hp : p r = true <;> by_cases ha : r.iocAddr = some a
      · simp [hp, ha, show a ∉ as from hnew]
        omega
      · simp [hp, ha]
        omega
      · simp [hp]
      · simp [hp]

/-- A view counts the PVs of its address, in each state. -/
theorem inState_of_mem_list {want : Option Int16} {v : IocView} (hv : v ∈ list c t want)
    (s : PvState) : v.counts.inState s =
      t.rows.countP fun r => decide (r.iocAddr = some v.address) && decide (r.state = s) := by
  have hview : v ∈ (merged c t).map IocView.from := by
    cases want with
    | none => exact hv
    | some code => exact (List.mem_filter.1 hv).1
  obtain ⟨r, hr, rfl⟩ := List.mem_map.1 hview
  show r.counts.inState s = _
  rw [counts_merged hr, inState_ofRows]
  refine List.countP_filter.trans (List.countP_congr fun q _ => ?_)
  rw [Bool.and_comm]
  exact Iff.rfl

end Numbers

/-- **Main theorem**: every view counts, in each state, the PVs of its address, and in the whole
    list every PV that has an address is counted once. -/
theorem list_counts (c : IocConfig) (t : StatusTable) (s : PvState) :
    (∀ want, ∀ v ∈ list c t want, v.counts.inState s =
      t.rows.countP fun r => decide (r.iocAddr = some v.address) && decide (r.state = s)) ∧
    ((list c t none).map fun v => v.counts.inState s).sum =
      t.rows.countP fun r => r.iocAddr.isSome && decide (r.state = s) := by
  refine ⟨fun want v hv => inState_of_mem_list hv s, ?_⟩
  have hviews : (list c t none).map (fun v => v.counts.inState s) =
      ((merged c t).map IocRow.address).map fun a =>
        (t.rowsAt a).countP fun r => decide (r.state = s) := by
    unfold list
    rw [List.map_map, List.map_map]
    refine List.map_congr_left fun r hr => ?_
    show r.counts.inState s = _
    rw [counts_merged hr, inState_ofRows]
    rfl
  rw [hviews]
  refine (sum_countP_groups _ nodup_addresses_merged).trans (List.countP_congr fun r hr => ?_)
  have haddress : (∃ a ∈ (merged c t).map IocRow.address, r.iocAddr = some a) ↔
      r.iocAddr.isSome := by
    constructor
    · rintro ⟨a, -, ha⟩
      rw [ha]
      rfl
    · intro hsome
      obtain ⟨a, ha⟩ := Option.isSome_iff_exists.1 hsome
      have hrow : r ∈ t.rowsAt a := List.mem_filter.2 ⟨hr, decide_eq_true ha⟩
      exact ⟨a, mem_addresses_merged.2 (.inr ((exists_rowsAt _).1 ⟨r, hrow, trivial⟩)), ha⟩
  simp only [haddress, Bool.decide_eq_true]

/-! ## After an outage -/

/-- The table after a statement that sets the state of some PVs. -/
def StatusTable.setState (t : StatusTable) (pvs : List String) (state : PvState) : StatusTable where
  table := t.table.setState pvs state
  names := t.names
  nodup := t.nodup
  complete name := by
    rw [t.complete name]
    show _ ↔ ((t.table name).map _).isSome
    rw [Option.isSome_map]

/-- What PVs an address has after such a statement. -/
theorem hasPv_setState {t : StatusTable} {pvs : List String} {state : PvState} {a : String}
    {P : PvState → Prop} : (t.setState pvs state).HasPv a P ↔
      (∃ name r, t.table name = some r ∧ r.iocAddr = some a ∧ name ∈ pvs ∧ P state) ∨
      ∃ name r, t.table name = some r ∧ r.iocAddr = some a ∧ name ∉ pvs ∧ P r.state := by
  have hrow : ∀ name r', (t.setState pvs state).table name = some r' ↔ ∃ r, t.table name = some r ∧
      (if name ∈ pvs then { r with state := state } else r) = r' := fun name r' =>
    Option.map_eq_some_iff
  unfold StatusTable.HasPv
  constructor
  · rintro ⟨name, r', hr', ha, hP⟩
    obtain ⟨r, hr, rfl⟩ := (hrow name r').1 hr'
    by_cases hname : name ∈ pvs
    · rw [if_pos hname] at ha hP
      exact .inl ⟨name, r, hr, ha, hname, hP⟩
    · rw [if_neg hname] at ha hP
      exact .inr ⟨name, r, hr, ha, hname, hP⟩
  · rintro (⟨name, r, hr, ha, hname, hP⟩ | ⟨name, r, hr, ha, hname, hP⟩)
    · refine ⟨name, { r with state := state }, (hrow name _).2 ⟨r, hr, if_pos hname⟩, ha, hP⟩
    · exact ⟨name, r, (hrow name r).2 ⟨r, hr, if_neg hname⟩, ha, hP⟩

/-- **Main theorem**: let `handle_disconnect` mark some PVs. An address that is not switched off is
    then listed as down exactly if none of its other PVs delivers and it has a PV that was marked
    or lost before; it is degraded exactly if another of its PVs delivers and it has such a PV. -/
theorem list_disconnect_iff (c : IocConfig) (t : StatusTable) (pvs : List String) (a : String)
    (henabled : ¬c.Disabled a) :
    let after := list c (t.setState pvs .disconnected) none
    let live := ∃ name r, t.table name = some r ∧ r.iocAddr = some a ∧ name ∉ pvs ∧ Live r.state
    let lost := ∃ name r, t.table name = some r ∧ r.iocAddr = some a ∧
      (name ∈ pvs ∨ Lost r.state)
    ((∃ v ∈ after, v.address = a ∧ v.state = .down) ↔ ¬live ∧ lost) ∧
      ((∃ v ∈ after, v.address = a ∧ v.state = .degraded) ↔ live ∧ lost) := by
  intro after live lost
  have hlive : (t.setState pvs .disconnected).HasPv a Live ↔ live := by
    rw [hasPv_setState]
    refine or_iff_right ?_
    rintro ⟨-, -, -, -, -, h | h⟩ <;> cases h
  have hlost : (t.setState pvs .disconnected).HasPv a Lost ↔ lost := by
    rw [hasPv_setState]
    constructor
    · rintro (⟨name, r, hr, ha, hname, -⟩ | ⟨name, r, hr, ha, -, h⟩)
      · exact ⟨name, r, hr, ha, .inl hname⟩
      · exact ⟨name, r, hr, ha, .inr h⟩
    · rintro ⟨name, r, hr, ha, h⟩
      by_cases hname : name ∈ pvs
      · exact .inl ⟨name, r, hr, ha, hname, .inl rfl⟩
      · exact .inr ⟨name, r, hr, ha, hname, h.resolve_left hname⟩
  have hknown : lost → Known c (t.setState pvs .disconnected) a := by
    intro h
    obtain ⟨name, r, hr, ha, -⟩ := hlost.2 h
    exact .inr ⟨name, r, hr, ha, trivial⟩
  have hlist : ∀ s, (∃ v ∈ after, v.address = a ∧ v.state = s) ↔
      Known c (t.setState pvs .disconnected) a ∧
        Describes (c.Disabled a) ((t.setState pvs .disconnected).HasPv a) s := fun s =>
    ((list_iff c (t.setState pvs .disconnected) none).2 a s).trans
      (and_congr_right' (and_iff_left fun code hcode => by cases hcode))
  rw [hlist, hlist]
  simp only [Describes, hlive, hlost]
  exact ⟨⟨fun h => h.2.2, fun h => ⟨hknown h.2, henabled, h⟩⟩,
    fun h => h.2.2, fun h => ⟨hknown h.2, henabled, h⟩⟩

/-- Two PVs of a declared IOC. -/
def twoPvs : StatusTable where
  table name := if name = "A" ∨ name = "B" then
    some ⟨none, .archiving, some "10.0.0.1:5075", none⟩ else none
  names := ["A", "B"]
  nodup := by decide
  complete name := by
    by_cases h : name = "A" ∨ name = "B" <;> simp [h]

/-- The table `ioc_config` with the IOC. -/
def oneIoc : IocConfig := ⟨[⟨"10.0.0.1:5075", "", true⟩], by decide⟩

/-- One of the two is disconnected. -/
theorem list_disconnect_iff_degraded :
    ∃ v ∈ list oneIoc (twoPvs.setState ["A"] .disconnected) none,
      v.address = "10.0.0.1:5075" ∧ v.state = .degraded := by
  have henabled : ¬oneIoc.Disabled "10.0.0.1:5075" := by
    rintro ⟨r, hr, -, h⟩
    rw [List.mem_singleton.1 hr] at h
    exact absurd h (by decide)
  refine (list_disconnect_iff oneIoc twoPvs ["A"] "10.0.0.1:5075" henabled).2.2 ⟨?_, ?_⟩
  · exact ⟨"B", ⟨none, .archiving, some "10.0.0.1:5075", none⟩, rfl, rfl, by decide, .inr rfl⟩
  · exact ⟨"A", ⟨none, .archiving, some "10.0.0.1:5075", none⟩, rfl, rfl, .inl (by decide)⟩

end AuraEpics.Api

import AuraEpics.Discover.Reflects
import AuraEpics.Main.World

/-!
# Convergence of the configuration

Two channels carry changes of `pv_config` to the driver: the triggers, which know of every
`INSERT` and `DELETE` but not of `enabled`, and the orchestrator, which finds changed rows
by `updated_at` and knows nothing of rows that are gone. `Converging` says what the two
leave to each other for one PV: what the driver is bound to be told about a PV that the
poller knows, about a disabled one that it does not know, and about one without a row.

Result: `subscribed_iff_enabled`, in a run of orderly steps, once a complete cycle has run
after the last statement and all messages are handled, the subscribed PVs are the enabled
ones.
-/

namespace AuraEpics.Main

open AuraEpics.Discover AuraEpics.Runtime AuraEpics.Store Latest Channels Runs

variable {Addr : Type} [DecidableEq Addr]

namespace World

/-- The PV is subscribed once the messages in flight and then the queued commands are
    handled. -/
def Requested (w : World Addr) (json : JsonReader) (pv : String) : Prop :=
  Decided {pv | w.Bound json pv} (requestsOf w.discovery.orch.commands) pv

/-- What is asked of a statement: names without a comma; no row with the empty name comes
    or goes; a row is disabled only if the poller knows the PV or the PV is bound to be
    unsubscribed anyway. -/
def StatementInOrder (w : World Addr) (json : JsonReader) (stmt : Statement) : Prop :=
  (∀ name ∈ stmt.names, ',' ∉ name.toList) ∧
    match stmt with
    | .insert rows => ∀ row ∈ rows, row.pvName ≠ "" ∧ (row.enabled = false →
        row.pvName ∈ w.discovery.orch.poller.known ∨
          latest (requestsOf w.discovery.orch.commands) row.pvName = some false)
    | .setEnabled names enabled => enabled = false → ∀ name ∈ names, name ∈ w.discovery.table →
        name ∈ w.discovery.orch.poller.known ∨ ¬w.Requested json name
    | .updateHeartbeat _ _ => True
    | .delete names => "" ∉ names

/-- What is asked of a step of the table or the orchestrator: it is careful for every PV
    and does not fail; commands are read back as they are written; a queued subscribe is
    only published for a PV that still has a row. -/
def DiscoverInOrder (w : World Addr) (json : JsonReader) (toJson : IngestCommand → String)
    (act : Act) : Prop :=
  (∀ name, Discovery.Careful name w.discovery act) ∧
    (∀ m ∈ sent w.discovery act, ReadsBack json toJson m.2) ∧
    match act with
    | .statement stmt _ => w.StatementInOrder json stmt
    | .getAllEnabled ok => ok = true
    | .flush ok => ok = true ∧ ∀ name,
        latest (requestsOf w.discovery.orch.commands) name = some true → name ∈ w.discovery.table
    | _ => True

/-- The condition on a step. -/
def Orderly (json : JsonReader) (toJson : IngestCommand → String) (w : World Addr) :
    Event Addr → Prop
  | .discover act => w.DiscoverInOrder json toJson act
  | .handleNotify window answers => w.NotifyInOrder json window answers
  | .handleCommands drained answers => w.CommandsInOrder json drained answers

/-- What holds of a PV in every state. -/
structure Converging (w : World Addr) (json : JsonReader) (pv : String) : Prop where
  followed : w.discovery.Followed pv
  cmdField : ∀ m ∈ w.inflight, json.cmdField m.2 ≠ some "ioc_change"
  queued : ∀ b, latest (requestsOf w.discovery.orch.commands) pv = some b →
    (b = true ↔ pv ∈ w.discovery.orch.poller.known)
  known : pv ∈ w.discovery.table → pv ∈ w.discovery.orch.poller.known → w.Requested json pv
  unknown : pv ∈ w.discovery.table → ¬w.discovery.table.Enabled pv →
    pv ∉ w.discovery.orch.poller.known → ¬w.Requested json pv
  absent : pv ∉ w.discovery.table → ¬w.Bound json pv

/-! ## Steps of the main loop -/

omit [DecidableEq Addr] in
theorem Converging.handle {w w' : World Addr} {json : JsonReader} {pv : String}
    (h : w.Converging json pv) (hdisc : w'.discovery = w.discovery)
    (hsub : w'.inflight.Sublist w.inflight) (hbound : ∀ pv, w'.Bound json pv ↔ w.Bound json pv) :
    w'.Converging json pv := by
  have hset : {pv | w'.Bound json pv} = {pv | w.Bound json pv} := Set.ext hbound
  have hreq : w'.Requested json pv ↔ w.Requested json pv := by
    unfold Requested
    rw [hset, hdisc]
  constructor
  · rw [hdisc]
    exact h.followed
  · exact fun m hm => h.cmdField m (hsub.subset hm)
  · rw [hdisc]
    exact h.queued
  · rw [hdisc, hreq]
    exact h.known
  · rw [hdisc, hreq]
    exact h.unknown
  · rw [hdisc, hbound]
    exact h.absent

theorem handleNotify_keeps (json : JsonReader) (w : World Addr) (window : ℕ)
    (answers : BatchAnswers Addr) :
    (w.handleNotify json window answers).discovery = w.discovery ∧
      (w.handleNotify json window answers).inflight.Sublist w.inflight := by
  unfold handleNotify
  split
  · exact ⟨rfl, List.Sublist.refl _⟩
  · exact ⟨rfl, takeFrom_snd_sublist _ _ _⟩

theorem handleCommands_keeps (json : JsonReader) (w : World Addr) (drained : ℕ)
    (answers : BatchAnswers Addr) :
    (w.handleCommands json drained answers).discovery = w.discovery ∧
      (w.handleCommands json drained answers).inflight.Sublist w.inflight := by
  unfold handleCommands
  split
  · exact ⟨rfl, List.Sublist.refl _⟩
  · exact ⟨rfl, takeFrom_snd_sublist _ _ _⟩

/-! ## Steps of the table and the orchestrator -/

/-- The messages sent come last. -/
theorem bound_discover {w : World Addr} {json : JsonReader} {toJson : IngestCommand → String}
    {act : Act} (hread : ∀ m ∈ sent w.discovery act, ReadsBack json toJson m.2) (pv : String) :
    (w.step json toJson (.discover act)).Bound json pv ↔
      Decided {pv | w.Bound json pv} (requestsOf ((sent w.discovery act).map Prod.snd)) pv := by
  have hsent : inflightRequests json ((sent w.discovery act).map fun m => (m.1, toJson m.2)) =
      requestsOf ((sent w.discovery act).map Prod.snd) := by
    unfold inflightRequests requestsOf
    rw [List.flatMap_map, List.flatMap_map]
    refine List.flatMap_congr fun m hm => ?_
    show requestsOf (json.fromJson (toJson m.2)).toList = m.2.requests
    rw [(hread m hm).fromJson]
    exact List.append_nil _
  unfold Bound step
  dsimp only
  rw [inflightRequests, List.flatMap_append]
  show Decided _ (inflightRequests json w.inflight ++ inflightRequests json _) pv ↔ _
  rw [hsent, decided_append]

theorem cmdField_discover {w : World Addr} {json : JsonReader} {toJson : IngestCommand → String}
    {act : Act} (hread : ∀ m ∈ sent w.discovery act, ReadsBack json toJson m.2)
    (h : ∀ m ∈ w.inflight, json.cmdField m.2 ≠ some "ioc_change") :
    ∀ m ∈ (w.step json toJson (.discover act)).inflight, json.cmdField m.2 ≠ some "ioc_change" := by
  intro m hm
  rcases List.mem_append.1 hm with hold | hnew
  · exact h m hold
  · obtain ⟨m', hm', rfl⟩ := List.mem_map.1 hnew
    exact (hread m' hm').cmdField

theorem latest_notified {inserted deleted : List String}
    (hins : ∀ name ∈ inserted, ',' ∉ name.toList) (hdel : ∀ name ∈ deleted, ',' ∉ name.toList)
    (pv : String) :
    latest (requestsOf (notified inserted deleted)) pv =
      if pv ∈ deleted ∧ pv ≠ "" then some false
      else if pv ∈ inserted ∧ pv ≠ "" then some true else none := by
  rw [requestsOf_notified hins hdel, latest_append, Orchestrator.latest_map_const,
    Orchestrator.latest_map_const]
  simp only [List.mem_filter, decide_eq_true_eq]
  split_ifs <;> rfl

omit [DecidableEq Addr] in
theorem requested_of_none {w : World Addr} {json : JsonReader} {pv : String}
    (h : latest (requestsOf w.discovery.orch.commands) pv = none) :
    w.Requested json pv ↔ w.Bound json pv := by
  unfold Requested Decided
  rw [h]
  exact Iff.rfl

omit [DecidableEq Addr] in
theorem requested_of_some {w : World Addr} {json : JsonReader} {pv : String} {b : Bool}
    (h : latest (requestsOf w.discovery.orch.commands) pv = some b) :
    w.Requested json pv ↔ b = true := by
  unfold Requested Decided
  rw [h]

omit [DecidableEq Addr] in
/-- A statement says nothing to the driver about the PV. -/
theorem Converging.untold {w w' : World Addr} {json : JsonReader} {pv : String}
    (h : w.Converging json pv) (hfollowed : w'.discovery.Followed pv)
    (hcmd : ∀ m ∈ w'.inflight, json.cmdField m.2 ≠ some "ioc_change")
    (horch : w'.discovery.orch = w.discovery.orch)
    (hbound : w'.Bound json pv ↔ w.Bound json pv)
    (hmem : pv ∈ w'.discovery.table ↔ pv ∈ w.discovery.table)
    (hdis : pv ∈ w.discovery.table → ¬w'.discovery.table.Enabled pv →
      ¬w.discovery.table.Enabled pv ∨ pv ∈ w.discovery.orch.poller.known ∨ ¬w.Requested json pv) :
    w'.Converging json pv := by
  have hreq : w'.Requested json pv ↔ w.Requested json pv := by
    cases hq : latest (requestsOf w.discovery.orch.commands) pv with
    | none => rw [requested_of_none hq, requested_of_none (by rw [horch, hq]), hbound]
    | some b => rw [requested_of_some hq, requested_of_some (by rw [horch, hq])]
  constructor
  · exact hfollowed
  · exact hcmd
  · rw [horch]
    exact h.queued
  · rw [hmem, horch, hreq]
    exact h.known
  · rw [hmem, horch, hreq]
    intro hin hen hknown
    rcases hdis hin hen with hold | hold | hold
    · exact h.unknown hin hold hknown
    · exact absurd hold hknown
    · exact hold
  · rw [hmem, hbound]
    exact h.absent

theorem Converging.statement {w : World Addr} {json : JsonReader}
    {toJson : IngestCommand → String} {pv : String} (h : w.Converging json pv)
    {stmt : Statement} {now : ℤ} (hc : w.DiscoverInOrder json toJson (.statement stmt now)) :
    (w.step json toJson (.discover (.statement stmt now))).Converging json pv := by
  obtain ⟨hcareful, hread, hcomma, hstmt⟩ := hc
  have hbound := bound_discover hread pv
  have hsent : (sent w.discovery (.statement stmt now)).map Prod.snd =
      notified (w.discovery.table.inserted stmt) (w.discovery.table.deleted stmt) := by
    simp [sent, Function.comp_def]
  have hlatest := latest_notified
    (fun name hname => hcomma name (w.discovery.table.inserted_subset stmt hname))
    (fun name hname => hcomma name (w.discovery.table.deleted_subset stmt hname)) pv
  rw [hsent, Decided, hlatest] at hbound
  have hcmd := cmdField_discover hread h.cmdField
  have hfollowed : (w.step json toJson (.discover (.statement stmt now))).discovery.Followed pv :=
    h.followed.step (hcareful pv)
  have horch : (w.step json toJson (.discover (.statement stmt now))).discovery.orch =
      w.discovery.orch := rfl
  have htable : (w.step json toJson (.discover (.statement stmt now))).discovery.table =
      w.discovery.table.exec stmt now := rfl
  generalize w.step json toJson (.discover (.statement stmt now)) = w'
    at hbound hcmd hfollowed horch htable ⊢
  -- a disabled row is inserted so, set so or so before
  have hdis : pv ∉ w.discovery.table.inserted stmt → pv ∈ w.discovery.table →
      pv ∈ w'.discovery.table → ¬w'.discovery.table.Enabled pv → ¬w.discovery.table.Enabled pv ∨
        pv ∈ w.discovery.orch.poller.known ∨ ¬w.Requested json pv := by
    intro hins hin hin' hen
    obtain ⟨row, hrow⟩ := Option.isSome_iff_exists.1 (AList.lookup_isSome.2 hin')
    rw [htable] at hrow hen
    have hrowdis : row.enabled = false := Bool.eq_false_iff.2 fun h => hen ⟨row, hrow, h⟩
    rcases PvTable.exec_disabled hrow hrowdis with
      ⟨rows, -, hmem, -⟩ | ⟨names, rfl, hname, -⟩ | ⟨old, hold, holddis⟩
    · exact absurd hmem hins
    · exact .inr (hstmt rfl pv hname hin)
    · left
      rintro ⟨row', hrow', hen'⟩
      rw [hold] at hrow'
      cases hrow'
      rw [holddis] at hen'
      cases hen'
  rcases w.discovery.table.exec_cases stmt now pv with
    ⟨hsame, hins, hdel⟩ | ⟨hins, hdel, hnone, row, hrow, -⟩ | ⟨hins, hdel, hold, row, hrow, -⟩ |
    ⟨hins, hdel, hnone⟩
  · rw [if_neg fun hd => hdel hd.1, if_neg fun hi => hins hi.1] at hbound
    rw [← htable] at hsame
    exact h.untold hfollowed hcmd horch hbound (PvTable.mem_congr hsame) fun hin =>
      hdis hins hin ((PvTable.mem_congr hsame).2 hin)
  · -- the trigger has told the driver of the row, enabled or not
    have hcond : ∀ rows, stmt = .insert rows → ∀ new ∈ rows, new.pvName ≠ "" ∧
        (new.enabled = false → new.pvName ∈ w.discovery.orch.poller.known ∨
          latest (requestsOf w.discovery.orch.commands) new.pvName = some false) := by
      rintro rows rfl
      exact hstmt
    have hpv : pv ≠ "" := by
      cases stmt with
      | insert rows =>
        obtain ⟨new, hnew, rfl⟩ := List.mem_map.1 (w.discovery.table.inserted_subset _ hins)
        exact (hcond rows rfl new hnew).1
      | setEnabled names enabled => exact absurd hins List.not_mem_nil
      | updateHeartbeat names heartbeatS => exact absurd hins List.not_mem_nil
      | delete names => exact absurd hins List.not_mem_nil
    rw [if_neg fun hd => hdel hd.1, if_pos ⟨hins, hpv⟩] at hbound
    have hin' : pv ∈ w'.discovery.table := by
      rw [htable, ← AList.lookup_isSome, hrow]
      rfl
    refine ⟨hfollowed, hcmd, ?_, fun _ hknown => ?_, fun _ hen hknown => ?_,
      fun hnot => absurd hin' hnot⟩
    · rw [horch]
      exact h.queued
    · rw [horch] at hknown
      cases hq : latest (requestsOf w'.discovery.orch.commands) pv with
      | none => exact (requested_of_none hq).2 (hbound.2 rfl)
      | some b =>
        rw [horch] at hq
        rw [requested_of_some (by rw [horch, hq])]
        exact (h.queued b hq).2 hknown
    · rw [horch] at hknown
      rw [htable] at hen
      have hrowdis : row.enabled = false := Bool.eq_false_iff.2 fun h => hen ⟨row, hrow, h⟩
      rcases PvTable.exec_disabled hrow hrowdis with
        ⟨rows, hrows, -, new, hnew, rfl, hnewdis⟩ | ⟨names, -, -, hin⟩ | ⟨old, hold, -⟩
      · have hq := ((hcond rows hrows new hnew).2 hnewdis).resolve_left hknown
        rw [requested_of_some (by rw [horch, hq])]
        exact Bool.false_ne_true
      · exact absurd hnone (AList.lookup_eq_none.not.2 (not_not.2 hin))
      · rw [hnone] at hold
        cases hold
  · rw [if_neg fun hd => hdel hd.1, if_neg fun hi => hins hi.1] at hbound
    have hin : pv ∈ w.discovery.table := by
      by_contra hnot
      exact hold (AList.lookup_eq_none.2 hnot)
    have hin' : pv ∈ w'.discovery.table := by
      rw [htable, ← AList.lookup_isSome, hrow]
      rfl
    exact h.untold hfollowed hcmd horch hbound ⟨fun _ => hin, fun _ => hin'⟩ fun hin =>
      hdis hins hin hin'
  · have hpv : pv ≠ "" := by
      rintro rfl
      cases stmt with
      | delete names => exact hstmt (w.discovery.table.deleted_subset _ hdel)
      | insert rows => exact absurd hdel List.not_mem_nil
      | setEnabled names enabled => exact absurd hdel List.not_mem_nil
      | updateHeartbeat names heartbeatS => exact absurd hdel List.not_mem_nil
    rw [if_pos ⟨hdel, hpv⟩] at hbound
    have hgone : pv ∉ w'.discovery.table := by
      rw [htable]
      exact AList.lookup_eq_none.1 hnone
    refine ⟨hfollowed, hcmd, ?_, fun hin => absurd hin hgone, fun hin => absurd hin hgone, ?_⟩
    · rw [horch]
      exact h.queued
    · intro _ hb
      cases hbound.1 hb

/-- Publishing the queued commands sends what was requested. -/
theorem Converging.flush {w : World Addr} {json : JsonReader} {toJson : IngestCommand → String}
    {pv : String} (h : w.Converging json pv) {ok : Bool}
    (hc : w.DiscoverInOrder json toJson (.flush ok)) :
    (w.step json toJson (.discover (.flush ok))).Converging json pv := by
  obtain ⟨hcareful, hread, rfl, hrow⟩ := hc
  have hbound := bound_discover hread pv
  have hcmd := cmdField_discover hread h.cmdField
  have hfollowed : (w.step json toJson (.discover (.flush true))).discovery.Followed pv :=
    h.followed.step (hcareful pv)
  by_cases hidle : w.discovery.phase = .idle
  · have hsent : (sent w.discovery (.flush true)).map Prod.snd = w.discovery.orch.commands := by
      simp [sent, hidle, Function.comp_def]
    rw [hsent] at hbound
    have hbound : (w.step json toJson (.discover (.flush true))).Bound json pv ↔
        w.Requested json pv := hbound
    have hdisc : (w.step json toJson (.discover (.flush true))).discovery =
        w.discovery.step (.flush true) := rfl
    rw [Discovery.step_flush hidle] at hdisc
    generalize w.step json toJson (.discover (.flush true)) = w' at hbound hcmd hfollowed hdisc ⊢
    have hreq : w'.Requested json pv ↔ w.Requested json pv := by
      rw [requested_of_none (by rw [hdisc]; rfl), hbound]
    refine ⟨hfollowed, hcmd, ?_, ?_, ?_, ?_⟩
    · intro b hb
      rw [hdisc] at hb
      cases hb
    · rw [hreq, hdisc]
      exact h.known
    · rw [hreq, hdisc]
      exact h.unknown
    · rw [hbound, hdisc]
      intro hnot
      cases hq : latest (requestsOf w.discovery.orch.commands) pv with
      | none =>
        rw [requested_of_none hq]
        exact h.absent hnot
      | some b =>
        rw [requested_of_some hq]
        rintro rfl
        exact hnot (hrow pv hq)
  · have hsent : sent w.discovery (.flush true) = [] := by simp [sent, hidle]
    rw [hsent] at hbound
    have hdisc : (w.step json toJson (.discover (.flush true))).discovery = w.discovery :=
      Discovery.step_flush_of_ne hidle true
    refine h.untold hfollowed hcmd (by rw [hdisc]) hbound (by rw [hdisc]) fun _ hen => .inl ?_
    rw [← hdisc]
    exact hen

/-- The other steps send nothing; the poller and the queue stay, or a snapshot is taken
    in. -/
theorem orch_moves {s s' : Discovery} {act : Act} (hs : s.Sound) (hm : Discovery.Moves s act s')
    (hact : ∀ ok, act ≠ .flush ok) :
    (s'.orch.poller = s.orch.poller ∧ s'.orch.commands = s.orch.commands) ∨
      ∃ all, Orchestrator.Processed s.orch all s'.orch := by
  cases hm with
  | start now hphase => exact .inr ⟨_, (hs.start hphase now).1⟩
  | @process all hphase =>
    cases all with
    | some all => exact .inr ⟨all, (Orchestrator.process_processed hs.inStep all).1⟩
    | none =>
      rw [Orchestrator.process_none hs.inStep]
      exact .inl ⟨rfl, rfl⟩
  | flush ok hphase => exact absurd rfl (hact ok)
  | _ => exact .inl ⟨rfl, rfl⟩

theorem Converging.quiet {w : World Addr} {json : JsonReader} {toJson : IngestCommand → String}
    {pv : String} (h : w.Converging json pv) {act : Act}
    (hstmt : ∀ stmt now, act ≠ .statement stmt now) (hflush : ∀ ok, act ≠ .flush ok)
    (hc : w.DiscoverInOrder json toJson act) :
    (w.step json toJson (.discover act)).Converging json pv := by
  have hsent : sent w.discovery act = [] := by
    cases act with
    | statement stmt now => exact absurd rfl (hstmt stmt now)
    | flush ok => exact absurd rfl (hflush ok)
    | _ => rfl
  have hbound := bound_discover hc.2.1 pv
  rw [hsent] at hbound
  have hbound : (w.step json toJson (.discover act)).Bound json pv ↔ w.Bound json pv := hbound
  have hcmd := cmdField_discover hc.2.1 h.cmdField
  have hfollowed : (w.step json toJson (.discover act)).discovery.Followed pv :=
    h.followed.step (hc.1 pv)
  have hm : Discovery.Moves w.discovery act (w.step json toJson (.discover act)).discovery :=
    Discovery.moves_step w.discovery act
  obtain ⟨hmem, hen⟩ : (pv ∈ (w.step json toJson (.discover act)).discovery.table ↔
      pv ∈ w.discovery.table) ∧
      ((w.step json toJson (.discover act)).discovery.table.Enabled pv ↔
        w.discovery.table.Enabled pv) :=
    Discovery.row_spares hm fun stmt now heq => absurd heq (hstmt stmt now)
  have horch := orch_moves h.followed.sound hm hflush
  generalize w.step json toJson (.discover act) = w' at hbound hcmd hfollowed hmem hen horch ⊢
  -- what is queued about the PV and what the poller knows of it stay, or change together
  have hcases : (latest (requestsOf w'.discovery.orch.commands) pv =
        latest (requestsOf w.discovery.orch.commands) pv ∧
        (pv ∈ w'.discovery.orch.poller.known ↔ pv ∈ w.discovery.orch.poller.known)) ∨
      ∃ b, latest (requestsOf w'.discovery.orch.commands) pv = some b ∧
        (b = true ↔ pv ∈ w'.discovery.orch.poller.known) := by
    rcases horch with ⟨hpoller, hcmds⟩ | ⟨all, hproc⟩
    · exact .inl ⟨by rw [hcmds], by rw [hpoller]⟩
    · obtain ⟨added, hcmds, hadded⟩ := hproc.latest
      rw [hcmds, requestsOf_append, latest_append, hadded pv, hproc.known pv]
      by_cases hfresh : pv ∈ freshMap all
      · by_cases hknown : pv ∈ w.discovery.orch.poller.known
        · simp [hfresh, hknown]
        · simp [hfresh, hknown]
      · by_cases hknown : pv ∈ w.discovery.orch.poller.known
        · simp [hfresh, hknown]
        · simp [hfresh, hknown]
  rcases hcases with ⟨hlatest, hknown⟩ | ⟨b, hlatest, hknown⟩
  · have hreq : w'.Requested json pv ↔ w.Requested json pv := by
      cases hq : latest (requestsOf w.discovery.orch.commands) pv with
      | none => rw [requested_of_none hq, requested_of_none (hlatest.trans hq), hbound]
      | some b => rw [requested_of_some hq, requested_of_some (hlatest.trans hq)]
    constructor
    · exact hfollowed
    · exact hcmd
    · rw [hlatest, hknown]
      exact h.queued
    · rw [hmem, hknown, hreq]
      exact h.known
    · rw [hmem, hen, hknown, hreq]
      exact h.unknown
    · rw [hmem, hbound]
      exact h.absent
  · have hreq : w'.Requested json pv ↔ b = true := requested_of_some hlatest
    constructor
    · exact hfollowed
    · exact hcmd
    · intro b' hb'
      obtain rfl : b = b' := Option.some.inj (hlatest.symm.trans hb')
      exact hknown
    · exact fun _ hin => hreq.2 (hknown.2 hin)
    · exact fun _ _ hnot hr => hnot (hknown.1 (hreq.1 hr))
    · rw [hmem, hbound]
      exact h.absent

theorem Converging.step {w : World Addr} {json : JsonReader} {toJson : IngestCommand → String}
    {pv : String} (h : w.Converging json pv) {event : Event Addr}
    (hc : Orderly json toJson w event) : (w.step json toJson event).Converging json pv := by
  cases event with
  | handleNotify window answers =>
    obtain ⟨hdisc, hsub⟩ := handleNotify_keeps json w window answers
    exact h.handle hdisc hsub (bound_handleNotify h.cmdField hc)
  | handleCommands drained answers =>
    obtain ⟨hdisc, hsub⟩ := handleCommands_keeps json w drained answers
    exact h.handle hdisc hsub (bound_handleCommands hc)
  | discover act =>
    cases act with
    | statement stmt now => exact h.statement hc
    | flush ok => exact h.flush hc
    | _ => exact h.quiet (by simp) (by simp) hc

/-! ## A complete cycle -/

/-- The orchestrator before `startup` and a main loop that has subscribed to enabled PVs
    only; nothing is in flight. -/
def start (table : PvTable) (nameServers : List String) (minUtc : ℤ) (driver : PvaDriver Addr) :
    World Addr :=
  { discovery := .new table nameServers minUtc, inflight := [], driver }

omit [DecidableEq Addr] in
theorem converging_start {table : PvTable} {driver : PvaDriver Addr} (json : JsonReader)
    (nameServers : List String) (minUtc : ℤ)
    (hdriver : ∀ pv, driver.Subscribed pv → table.Enabled pv) (pv : String) :
    (start table nameServers minUtc driver).Converging json pv := by
  have hbound : (start table nameServers minUtc driver).Bound json pv ↔ driver.Subscribed pv :=
    Iff.rfl
  have hreq : (start table nameServers minUtc driver).Requested json pv ↔ driver.Subscribed pv :=
    Iff.rfl
  refine ⟨Discovery.followed_new table nameServers minUtc pv, ?_, ?_, ?_, ?_, ?_⟩
  · exact fun m hm => absurd hm List.not_mem_nil
  · intro b hb
    cases hb
  · exact fun _ hknown => absurd hknown (AList.notMem_empty pv)
  · exact fun _ hen _ hr => hen (hdriver pv (hreq.1 hr))
  · exact fun hnot hb => hnot (PvTable.mem_of_enabled (hdriver pv (hbound.1 hb)))

/-- Steps of a cycle without statements. -/
theorem caught_step {w : World Addr} {json : JsonReader} {toJson : IngestCommand → String}
    {pv : String} (h : w.discovery.Caught pv) {event : Event Addr}
    (hc : Orderly json toJson w event)
    (hquiet : ∀ stmt now, event ≠ .discover (.statement stmt now)) :
    (w.step json toJson event).discovery.Caught pv := by
  cases event with
  | handleNotify window answers =>
    show (w.handleNotify json window answers).discovery.Caught pv
    rw [(handleNotify_keeps json w window answers).1]
    exact h
  | handleCommands drained answers =>
    show (w.handleCommands json drained answers).discovery.Caught pv
    rw [(handleCommands_keeps json w drained answers).1]
    exact h
  | discover act =>
    refine h.step (hc.1 pv) ⟨?_, ?_⟩
    · rintro stmt now rfl
      exact absurd rfl (hquiet stmt now)
    · rintro rfl
      exact absurd hc.2.2 Bool.false_ne_true

omit [DecidableEq Addr] in
/-- What is left when a cycle is over and everything is handled. -/
theorem Converging.settled {w : World Addr} {json : JsonReader} {pv : String}
    (h : w.Converging json pv) (hcaught : w.discovery.Caught pv)
    (hidle : w.discovery.phase = .idle) (hinflight : w.inflight = [])
    (hqueue : w.discovery.orch.commands = []) :
    w.driver.Subscribed pv ↔ w.discovery.table.Enabled pv := by
  have hbound : w.Bound json pv ↔ w.driver.Subscribed pv := by
    unfold Bound
    rw [hinflight]
    exact Iff.rfl
  have hreq : w.Requested json pv ↔ w.driver.Subscribed pv := by
    rw [requested_of_none (by rw [hqueue]; rfl), hbound]
  by_cases hmem : pv ∈ w.discovery.table
  · have hcov := hcaught.covers
    rw [Discovery.covers_of_agrees (.inl hidle)] at hcov
    have hagree : w.discovery.table.Enabled pv ↔ pv ∈ w.discovery.orch.poller.known :=
      (hcov hmem).resolve_right id
    constructor
    · intro hsub
      by_contra hen
      exact h.unknown hmem hen (fun hknown => hen (hagree.2 hknown)) (hreq.2 hsub)
    · exact fun hen => hreq.1 (h.known hmem (hagree.1 hen))
  · constructor
    · exact fun hsub => absurd (hbound.2 hsub) (h.absent hmem)
    · exact fun hen => absurd (PvTable.mem_of_enabled hen) hmem

/-- **Main theorem**: in a run of orderly steps, once a complete cycle has run with no
    statement since it began, and no message is in flight and no command queued, the
    subscribed PVs are those with an enabled row. -/
theorem subscribed_iff_enabled (json : JsonReader) (toJson : IngestCommand → String)
    (table : PvTable) (nameServers : List String) (minUtc : ℤ) (driver : PvaDriver Addr)
    (hdriver : ∀ pv, driver.Subscribed pv → table.Enabled pv) (before cycle : List (Event Addr))
    (horderly : AlongSteps (step json toJson) (Orderly json toJson)
      (start table nameServers minUtc driver)
      (before ++ .discover (.getChangedSince true) :: cycle))
    (hidle : (Runs.run (step json toJson) (start table nameServers minUtc driver)
      before).discovery.phase = .idle)
    (hquiet : ∀ stmt now, .discover (.statement stmt now) ∉ cycle) :
    let w := Runs.run (step json toJson) (start table nameServers minUtc driver)
      (before ++ .discover (.getChangedSince true) :: cycle)
    w.discovery.phase = .idle → w.inflight = [] → w.discovery.orch.commands = [] →
      ∀ pv, w.driver.Subscribed pv ↔ w.discovery.table.Enabled pv := by
  intro w hend hinflight hqueue pv
  have hconv := AlongSteps.invariant (I := (Converging · json pv))
    (fun w event hc h => Converging.step h hc) horderly
    (converging_start json nameServers minUtc hdriver pv)
  obtain ⟨-, hquery, hcycle⟩ := alongSteps_append.1 horderly
  have hcaught : w.discovery.Caught pv := by
    have hrun : w = Runs.run (step json toJson)
        (step json toJson (Runs.run (step json toJson) (start table nameServers minUtc driver) before)
          (.discover (.getChangedSince true))) cycle :=
      run_append _ before (.discover (.getChangedSince true) :: cycle)
    rw [hrun]
    have hspares : ∀ event ∈ cycle, ∀ stmt now, event ≠ .discover (.statement stmt now) := by
      rintro event hevent stmt now rfl
      exact hquiet stmt now hevent
    refine (AlongSteps.invariant (I := fun w => w.discovery.Caught pv)
      (fun w event hc h => caught_step h hc.1 hc.2) (hcycle.and_mem hspares) ?_).last
    exact (hconv.before.followed).query hidle
  exact Converging.settled hconv.last hcaught hend hinflight hqueue

end World

/-- `to_json` on the two commands of the example. -/
def exampleToJson (cmd : IngestCommand) : String :=
  if cmd = .subscribeBatch ["A"] none then subscribeJson
  else if cmd = .unsubscribeBatch ["B"] then unsubscribeJson
  else ""

namespace World

/-- A PV that is inserted, subscribed to on the notification, and found by the cycle. -/
theorem subscribed_iff_enabled_inserted :
    let before : List (Event ℕ) := [.discover (.loadAll true), .discover (.startUp 1),
      .discover (.statement (.insert [⟨"A", none, true⟩]) 2), .handleNotify 0 acceptingNetwork]
    let cycle : List (Event ℕ) := [.discover (.stampPoll 3), .discover (.getAllEnabled true),
      .discover .process, .discover (.flush true), .handleCommands 0 acceptingNetwork]
    let w := Runs.run (step exampleReader exampleToJson) (start ∅ [] 0 (.new [0]))
      (before ++ .discover (.getChangedSince true) :: cycle)
    w.driver.Subscribed "A" ∧ ∀ pv, w.driver.Subscribed pv ↔ w.discovery.table.Enabled pv := by
  intro before cycle w
  let states (n : ℕ) : World ℕ := Runs.run (step exampleReader exampleToJson)
    (start ∅ [] 0 (.new [0])) ((before ++ .discover (.getChangedSince true) :: cycle).take n)
  have hread : ReadsBack exampleReader exampleToJson (.subscribeBatch ["A"] none) :=
    ⟨by decide +kernel, by decide +kernel⟩
  refine ⟨by decide +kernel, subscribed_iff_enabled exampleReader exampleToJson ∅ [] 0 (.new [0])
    (fun pv h => by cases h) before cycle ?_ (by decide +kernel) ?_ (by decide +kernel)
    (by decide +kernel) (by decide +kernel)⟩
  · refine ⟨⟨fun _ => trivial, ?_, trivial⟩, ⟨?_, ?_, trivial⟩, ⟨?_, ?_, ?_, ?_⟩, ?_,
      ⟨fun _ => trivial, ?_, trivial⟩, ⟨fun _ => trivial, ?_, trivial⟩, ⟨fun _ => .inl rfl, ?_, rfl⟩,
      ⟨fun _ => trivial, ?_, trivial⟩, ⟨fun _ => .inl rfl, ?_, rfl, ?_⟩, ?_, trivial⟩
    · exact fun m hm => absurd hm List.not_mem_nil
    · exact fun name h => absurd h (AList.notMem_empty name)
    · exact fun m hm => absurd hm List.not_mem_nil
    · intro name
      show (1 : ℤ) < 2
      decide
    · have hsent : sent (states 2).discovery (.statement (.insert [⟨"A", none, true⟩]) 2) =
          [(.notify, .subscribeBatch ["A"] none)] := by decide +kernel
      intro m hm
      replace hm : m ∈ sent (states 2).discovery (.statement (.insert [⟨"A", none, true⟩]) 2) := hm
      rw [hsent, List.mem_singleton] at hm
      rw [hm]
      exact hread
    · decide
    · intro row hrow
      rw [List.mem_singleton.1 hrow]
      exact ⟨by decide, fun h => absurd h (by decide)⟩
    · show (states 3).NotifyInOrder exampleReader 0 acceptingNetwork
      have hpass : notifyPass exampleReader 0 (onChannel .notify (states 3).inflight) =
          some (.subscribe [subscribeJson] ["A"], 1) := by decide +kernel
      have hrest : (takeFrom .notify 1 (states 3).inflight).2 = [] := by decide +kernel
      have hmsgs : onChannel .notify (states 3).inflight = [subscribeJson] := by decide +kernel
      unfold NotifyInOrder
      rw [hpass]
      refine ⟨by unfold Effect.Accepted; decide +kernel, ?_, ?_⟩
      · rw [hmsgs]
        exact fun _ msg hmsg => absurd hmsg List.not_mem_nil
      · rw [hrest]
        exact fun pv b hb => absurd hb (by simp [inflightRequests])
    · exact fun m hm => absurd hm List.not_mem_nil
    · exact fun m hm => absurd hm List.not_mem_nil
    · exact fun m hm => absurd hm List.not_mem_nil
    · exact fun m hm => absurd hm List.not_mem_nil
    · have hsent : sent (states 8).discovery (.flush true) =
          [(.redis, .subscribeBatch ["A"] none)] := by decide +kernel
      intro m hm
      replace hm : m ∈ sent (states 8).discovery (.flush true) := hm
      rw [hsent, List.mem_singleton] at hm
      rw [hm]
      exact hread
    · intro name hname
      show name ∈ (states 8).discovery.table
      have hreq : requestsOf (states 8).discovery.orch.commands = [("A", true)] := by
        decide +kernel
      have hmem : (name, true) ∈ requestsOf (states 8).discovery.orch.commands :=
        mem_of_latest hname
      rw [hreq, List.mem_singleton] at hmem
      cases hmem
      decide +kernel
    · show (states 9).CommandsInOrder exampleReader 0 acceptingNetwork
      have hmsgs : onChannel .redis (states 9).inflight = [subscribeJson] := by decide +kernel
      have hrest : (takeFrom .redis 1 (states 9).inflight).2 = [] := by decide +kernel
      have hcmd : exampleReader.fromJson subscribeJson = some (.subscribeBatch ["A"] none) := by
        decide +kernel
      unfold CommandsInOrder
      rw [hmsgs]
      refine ⟨?_, ?_, ?_⟩
      · unfold SubscribesSucceed
        decide +kernel
      · rw [hcmd]
        intro pv _ hmem
        simp [batchCommands, requestsOf, IngestCommand.requests, List.reduceOption] at hmem
      · show InOrder exampleReader (states 9).inflight (takeFrom .redis 1 (states 9).inflight).2
        rw [hrest]
        exact fun pv b hb => absurd hb (by simp [inflightRequests])
  · intro stmt now h
    simp [cycle] at h

/-- A row inserted disabled is subscribed to on the notification, and nothing undoes it. -/
theorem disabledInsert_subscribed :
    let w := Runs.run (step exampleReader exampleToJson) (start ∅ [] 0 (.new [0]))
      [.discover (.loadAll true), .discover (.startUp 1),
        .discover (.statement (.insert [⟨"A", none, false⟩]) 2), .handleNotify 0 acceptingNetwork,
        .discover (.getChangedSince true), .discover (.stampPoll 3),
        .discover (.getAllEnabled true), .discover .process, .discover (.flush true)]
    w.discovery.phase = .idle ∧ w.inflight = [] ∧ w.discovery.orch.commands = [] ∧
      w.driver.Subscribed "A" ∧ ¬w.discovery.table.Enabled "A" := by
  decide +kernel

end World

end AuraEpics.Main

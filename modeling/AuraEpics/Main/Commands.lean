import Mathlib.Data.List.ReduceOption
import AuraEpics.Discover.Command
import AuraEpics.Runtime.Driver

/-!
# Command batches of the main loop

Model of the branch of the main loop that reads the Redis command channel
(`src/main.rs`, lines 736-877). The branch takes one message, drains those that follow
within a millisecond of each other, subscribes to all PVs it collected in one
`monitor_batch` and then works off the other commands.

Result: `processBatch_faithful_iff`, for which batches the outcome is that of the
commands applied one at a time, with no PV subscribed twice.
-/

namespace AuraEpics.Main

open AuraEpics.Discover AuraEpics.Runtime Latest

variable {Addr : Type} [DecidableEq Addr]

/-- `subscribe_pvs` and `other_cmds` (lines 743-744). -/
structure Collected where
  subscribePvs : List String
  otherCmds : List IngestCommand

/-- The first message (lines 746-760); `none` is one that `from_json` refuses. Only a
    `SubscribeBatch` is filtered by what is subscribed already. -/
def collectFirst (d : PvaDriver Addr) : Option IngestCommand → Collected
  | none => ⟨[], []⟩
  | some (.subscribe pv _) => ⟨[pv], []⟩
  | some (.subscribeBatch pvs _) => ⟨pvs.filter fun pv => ¬d.Subscribed pv, []⟩
  | some other => ⟨[], [other]⟩

/-- A message of the drain loop (lines 771-777). -/
def collectNext (c : Collected) : Option IngestCommand → Collected
  | none => c
  | some (.subscribe pv _) => { c with subscribePvs := c.subscribePvs ++ [pv] }
  | some (.subscribeBatch pvs _) => { c with subscribePvs := c.subscribePvs ++ pvs }
  | some other => { c with otherCmds := c.otherCmds ++ [other] }

/-- What is collected from the first message and the drained ones. -/
def collect (d : PvaDriver Addr) (first : Option IngestCommand)
    (drained : List (Option IngestCommand)) : Collected :=
  drained.foldl collectNext (collectFirst d first)

/-- One pass of the loop over `other_cmds` (lines 830-876), as far as the driver goes. -/
def processOther (d : PvaDriver Addr) : IngestCommand → PvaDriver Addr
  | .unsubscribe pv => d.unsubscribe [pv]
  | .unsubscribeBatch pvs => d.unsubscribe pvs
  | _ => d

/-- The branch of the main loop (lines 742-877). `handlers::subscribe_pvs` hands the PVs
    to `monitor_batch`. -/
def processBatch (d : PvaDriver Addr) (first : Option IngestCommand)
    (drained : List (Option IngestCommand)) (answers : BatchAnswers Addr) : PvaDriver Addr :=
  let c := collect d first drained
  let d := if c.subscribePvs = [] then d else (d.monitorBatch c.subscribePvs answers).2
  c.otherCmds.foldl processOther d

/-! ## What is collected -/

/-- The commands of a batch in arrival order. -/
def batchCommands (first : Option IngestCommand) (drained : List (Option IngestCommand)) :
    List IngestCommand := (first :: drained).reduceOption

/-- The PVs of the batch that are subscribed to without asking whether they are
    subscribed already. -/
def unfiltered (first : Option IngestCommand) (drained : List (Option IngestCommand)) :
    List String :=
  (match first with
    | some (.subscribe pv _) => [pv]
    | _ => []) ++
  ((requestsOf drained.reduceOption).filter Prod.snd).map Prod.fst

theorem requestsOf_cons (cmd : IngestCommand) (cmds : List IngestCommand) :
    requestsOf (cmd :: cmds) = cmd.requests ++ requestsOf cmds := List.flatMap_cons

theorem requestsOf_append (cmds cmds' : List IngestCommand) :
    requestsOf (cmds ++ cmds') = requestsOf cmds ++ requestsOf cmds' := List.flatMap_append

/-- What each command of the drain loop adds for itself, the loop adds for all of them. -/
theorem foldl_collectNext_iff {entry : String × Bool} {Q : Collected → Prop}
    (hstep : ∀ c cmd, Q (collectNext c (some cmd)) ↔ Q c ∨ entry ∈ cmd.requests) (c : Collected)
    (drained : List (Option IngestCommand)) :
    Q (drained.foldl collectNext c) ↔ Q c ∨ entry ∈ requestsOf drained.reduceOption := by
  induction drained generalizing c with
  | nil => simp [requestsOf]
  | cons msg drained ih =>
    rw [List.foldl_cons, ih]
    cases msg with
    | none => rfl
    | some cmd =>
      rw [List.reduceOption_cons_of_some, requestsOf_cons, List.mem_append, ← or_assoc, hstep]

/-- The drain loop adds the PVs of every subscribe. -/
theorem mem_subscribePvs_foldl (c : Collected) (drained : List (Option IngestCommand))
    (pv : String) :
    pv ∈ (drained.foldl collectNext c).subscribePvs ↔
      pv ∈ c.subscribePvs ∨ (pv, true) ∈ requestsOf drained.reduceOption := by
  refine foldl_collectNext_iff (Q := fun c => pv ∈ c.subscribePvs) ?_ c drained
  intro c cmd
  cases cmd <;> simp [collectNext, IngestCommand.requests]

/-- The other commands it collects hold every unsubscribe. -/
theorem mem_otherCmds_foldl (c : Collected) (drained : List (Option IngestCommand))
    (pv : String) :
    (pv, false) ∈ requestsOf (drained.foldl collectNext c).otherCmds ↔
      (pv, false) ∈ requestsOf c.otherCmds ∨ (pv, false) ∈ requestsOf drained.reduceOption := by
  refine foldl_collectNext_iff (Q := fun c => (pv, false) ∈ requestsOf c.otherCmds) ?_ c drained
  intro c cmd
  cases cmd <;> simp [collectNext, IngestCommand.requests, requestsOf]

omit [DecidableEq Addr] in
theorem mem_subscribePvs_collect (d : PvaDriver Addr) (first : Option IngestCommand)
    (drained : List (Option IngestCommand)) (pv : String) :
    d.Subscribed pv ∨ pv ∈ (collect d first drained).subscribePvs ↔
      d.Subscribed pv ∨ (pv, true) ∈ requestsOf (batchCommands first drained) := by
  rw [collect, mem_subscribePvs_foldl]
  cases first with
  | none => simp [collectFirst, batchCommands, List.reduceOption_cons_of_none]
  | some cmd =>
    rw [batchCommands, List.reduceOption_cons_of_some, requestsOf_cons, List.mem_append]
    cases cmd <;> simp [collectFirst, IngestCommand.requests]
    -- a PV that is filtered out is subscribed already
    tauto

omit [DecidableEq Addr] in
theorem mem_otherCmds_collect (d : PvaDriver Addr) (first : Option IngestCommand)
    (drained : List (Option IngestCommand)) (pv : String) :
    (pv, false) ∈ requestsOf (collect d first drained).otherCmds ↔
      (pv, false) ∈ requestsOf (batchCommands first drained) := by
  rw [collect, mem_otherCmds_foldl]
  cases first with
  | none => simp [collectFirst, batchCommands, List.reduceOption_cons_of_none, requestsOf]
  | some cmd =>
    rw [batchCommands, List.reduceOption_cons_of_some, requestsOf_cons, List.mem_append]
    cases cmd <;> simp [collectFirst, IngestCommand.requests, requestsOf]

omit [DecidableEq Addr] in
theorem mem_unfiltered_iff (d : PvaDriver Addr) (first : Option IngestCommand)
    (drained : List (Option IngestCommand)) {pv : String} (hpv : d.Subscribed pv) :
    pv ∈ (collect d first drained).subscribePvs ↔ pv ∈ unfiltered first drained := by
  rw [collect, mem_subscribePvs_foldl]
  unfold unfiltered
  rw [List.mem_append]
  have hdrained : (pv, true) ∈ requestsOf drained.reduceOption ↔
      pv ∈ ((requestsOf drained.reduceOption).filter Prod.snd).map Prod.fst := by
    simp
  rw [hdrained]
  cases first with
  | none => simp [collectFirst]
  | some cmd => cases cmd <;> simp [collectFirst, hpv]

/-! ## What the batch does -/

theorem subscribed_foldl_processOther (d : PvaDriver Addr) (cmds : List IngestCommand)
    (pv : String) :
    (cmds.foldl processOther d).Subscribed pv ↔
      d.Subscribed pv ∧ (pv, false) ∉ requestsOf cmds := by
  induction cmds generalizing d with
  | nil => simp [requestsOf]
  | cons cmd cmds ih =>
    rw [List.foldl_cons, ih, requestsOf_cons, List.mem_append, not_or, ← and_assoc]
    cases cmd <;> simp [processOther, IngestCommand.requests, PvaDriver.subscribed_unsubscribe]

/-- Every PV the batch subscribes to is found and accepted. -/
def SubscribesSucceed (d : PvaDriver Addr) (first : Option IngestCommand)
    (drained : List (Option IngestCommand)) (answers : BatchAnswers Addr) : Prop :=
  let pvs := (collect d first drained).subscribePvs
  ∀ pv ∈ pvs, (pv, true) ∈ (d.monitorBatch pvs answers).1

theorem subscribed_processBatch {d : PvaDriver Addr} {first : Option IngestCommand}
    {drained : List (Option IngestCommand)} {answers : BatchAnswers Addr}
    (hsucc : SubscribesSucceed d first drained answers) (pv : String) :
    (processBatch d first drained answers).Subscribed pv ↔
      (d.Subscribed pv ∨ (pv, true) ∈ requestsOf (batchCommands first drained)) ∧
        (pv, false) ∉ requestsOf (batchCommands first drained) := by
  unfold processBatch
  dsimp only
  rw [subscribed_foldl_processOther, mem_otherCmds_collect, ← mem_subscribePvs_collect d]
  refine and_congr_left fun _ => ?_
  split_ifs with hnil
  · simp [hnil]
  · rw [PvaDriver.subscribed_monitorBatch]
    refine or_congr_right ⟨?_, hsucc pv⟩
    exact fun h => PvaDriver.mem_of_mem_monitorBatch h

/-- The batch comes to what its commands come to one at a time, in arrival order. -/
def OrderPreserved (d : PvaDriver Addr) (first : Option IngestCommand)
    (drained : List (Option IngestCommand)) (answers : BatchAnswers Addr) : Prop :=
  {pv | (processBatch d first drained answers).Subscribed pv} =
    (batchCommands first drained).foldl applyCommand {pv | d.Subscribed pv}

/-- No PV that is subscribed already is handed to `monitor_batch`. -/
def NoneTwice (d : PvaDriver Addr) (first : Option IngestCommand)
    (drained : List (Option IngestCommand)) : Prop :=
  ∀ pv ∈ (collect d first drained).subscribePvs, ¬d.Subscribed pv

theorem orderPreserved_iff {d : PvaDriver Addr} {first : Option IngestCommand}
    {drained : List (Option IngestCommand)} {answers : BatchAnswers Addr}
    (hsucc : SubscribesSucceed d first drained answers) :
    OrderPreserved d first drained answers ↔
      ∀ pv, latest (requestsOf (batchCommands first drained)) pv = some true →
        (pv, false) ∉ requestsOf (batchCommands first drained) := by
  unfold OrderPreserved
  rw [Set.ext_iff]
  refine forall_congr' fun pv => ?_
  rw [Set.mem_ofPred_eq, subscribed_processBatch hsucc, mem_foldl_applyCommand_iff, Decided]
  generalize requestsOf (batchCommands first drained) = h
  cases hlast : latest h pv with
  | none =>
    have hnot : ∀ b, (pv, b) ∉ h := by
      intro b hb
      exact latest_eq_none_iff.1 hlast (List.mem_map_of_mem hb)
    simp [hnot]
  | some b =>
    have hmem : (pv, b) ∈ h := mem_of_latest hlast
    cases b with
    | false => simp [hmem]
    | true => simp [hmem]

/-- **Main theorem**: if every subscribe of a batch succeeds, the batch comes to what its
    commands come to one at a time and subscribes to no PV a second time, exactly if no
    PV with an unsubscribe in the batch has a subscribe as its last command, and no
    subscribed PV is named by a first `Subscribe` or by a subscribe that is drained. -/
theorem processBatch_faithful_iff (d : PvaDriver Addr) (first : Option IngestCommand)
    (drained : List (Option IngestCommand)) (answers : BatchAnswers Addr)
    (hsucc : SubscribesSucceed d first drained answers) :
    OrderPreserved d first drained answers ∧ NoneTwice d first drained ↔
      (∀ pv, latest (requestsOf (batchCommands first drained)) pv = some true →
        (pv, false) ∉ requestsOf (batchCommands first drained)) ∧
      ∀ pv, d.Subscribed pv → pv ∉ unfiltered first drained := by
  rw [orderPreserved_iff hsucc]
  refine and_congr_right fun _ => ⟨fun h pv hpv hun => ?_, fun h pv hmem hpv => ?_⟩
  · exact h pv ((mem_unfiltered_iff d first drained hpv).2 hun) hpv
  · exact h pv hpv ((mem_unfiltered_iff d first drained hpv).1 hmem)

/-- A network on which every PV is found and every subscription succeeds. -/
def acceptingNetwork : BatchAnswers ℕ where
  found₁ := fun _ _ => true
  found₂ := fun _ _ => true
  added := fun _ => .replied fun _ => .started
  opened := fun _ => some fun _ => .started

/-- A subscribe and an unsubscribe of different PVs in one batch. -/
theorem processBatch_faithful_iff_disjoint :
    let d : PvaDriver ℕ := .new [0]
    let first := some (IngestCommand.subscribe "A" none)
    let drained := [some (IngestCommand.unsubscribe "B")]
    SubscribesSucceed d first drained acceptingNetwork ∧
      OrderPreserved d first drained acceptingNetwork ∧ NoneTwice d first drained := by
  intro d first drained
  have hsucc : SubscribesSucceed d first drained acceptingNetwork := by
    intro pv hpv
    obtain rfl : pv = "A" := by
      simpa [collect, collectFirst, collectNext, first, drained] using hpv
    decide +kernel
  refine ⟨hsucc, (processBatch_faithful_iff d first drained acceptingNetwork hsucc).2 ⟨?_, ?_⟩⟩
  · have hreq : requestsOf (batchCommands first drained) = [("A", true), ("B", false)] := by
      decide +kernel
    rw [hreq]
    intro pv hlast hmem
    obtain rfl : pv = "B" := by simpa using hmem
    revert hlast
    decide +kernel
  · intro pv hpv
    cases hpv

/-- An unsubscribe and then a subscribe of one PV in one batch leave it unsubscribed, and
    a drained subscribe of a subscribed PV subscribes to it again. -/
theorem processBatch_unfaithful :
    let first := some (IngestCommand.unsubscribe "A")
    let drained := [some (IngestCommand.subscribe "A" none)]
    let empty : PvaDriver ℕ := .new [0]
    let holding := (empty.monitorBatch ["A"] acceptingNetwork).2
    (SubscribesSucceed empty first drained acceptingNetwork ∧
      ¬OrderPreserved empty first drained acceptingNetwork) ∧
    (SubscribesSucceed holding none drained acceptingNetwork ∧
      ¬NoneTwice holding none drained) := by
  intro first drained empty holding
  have hsucc : ∀ d first, (collect d first drained).subscribePvs = ["A"] →
      ("A", true) ∈ (d.monitorBatch ["A"] acceptingNetwork).1 →
      SubscribesSucceed d first drained acceptingNetwork := by
    intro d first hcollect hmem pv hpv
    rw [hcollect] at hpv ⊢
    rw [List.mem_singleton.1 hpv]
    exact hmem
  refine ⟨⟨hsucc empty first (by decide +kernel) (by decide +kernel), fun hpres => ?_⟩,
    hsucc holding none (by decide +kernel) (by decide +kernel), fun htwice => ?_⟩
  · have hmem : "A" ∈ (batchCommands first drained).foldl applyCommand {pv | empty.Subscribed pv} :=
      (mem_foldl_applyCommand_iff _ _ _).2 (show Decided _ [("A", false), ("A", true)] "A" from rfl)
    rw [← hpres] at hmem
    revert hmem
    show ¬(processBatch empty first drained acceptingNetwork).Subscribed "A"
    decide +kernel
  · have hsub : holding.Subscribed "A" := by decide +kernel
    exact htwice "A" (by decide +kernel) hsub

end AuraEpics.Main

import AuraEpics.Discover.Orchestrator
import AuraEpics.Discover.PgNotify
import AuraEpics.Lib.Channels
import AuraEpics.Main.Commands
import AuraEpics.Main.Notify

/-!
# Table, orchestrator and main loop

The parts that decide which PVs are subscribed, put together: the table with its triggers,
the orchestrator, the two channels to the main loop, and the driver. A statement on the
table notifies the main loop through the listener; the orchestrator publishes its
commands through Redis. The main loop serves the two channels in any order, each from its
front: one pass over the notifications (`src/main.rs`, lines 880-1033) or one batch of
commands (lines 736-877).

`toJson` is `IngestCommand::to_json`, which is `serde_json` like the reader.

Result: `bound_handleNotify` and `bound_handleCommands`, handling messages in order does
not change what a PV is bound to become.
-/

namespace AuraEpics.Main

open AuraEpics.Discover AuraEpics.Runtime AuraEpics.Store Latest Channels

variable {Addr : Type} [DecidableEq Addr]

/-- The channels of the main loop. -/
inductive Channel where
  | notify
  | redis
  deriving DecidableEq, Repr

/-- The state of all parts; `inflight` are the messages sent and not taken yet. -/
structure World (Addr : Type) where
  discovery : Discovery
  inflight : List (Channel × String)
  driver : PvaDriver Addr

/-- A step of the table or the orchestrator, or of the main loop with the answers of the
    network. `window` messages arrive while a window is open and `drained` ones within a
    millisecond of each other. -/
inductive Event (Addr : Type) where
  | discover (act : Act)
  | handleNotify (window : ℕ) (answers : BatchAnswers Addr)
  | handleCommands (drained : ℕ) (answers : BatchAnswers Addr)

/-- The messages a step sends. -/
def sent (s : Discovery) : Act → List (Channel × IngestCommand)
  | .statement stmt _ =>
    (notified (s.table.inserted stmt) (s.table.deleted stmt)).map fun cmd => (.notify, cmd)
  | .flush ok =>
    if ok = true ∧ s.phase = .idle then s.orch.commands.map fun cmd => (.redis, cmd) else []
  | _ => []

/-- The messages a window takes, and their number; the message that closes it is taken
    too. -/
def drain (json : JsonReader) (w : Window) : List String → Window × ℕ
  | [] => (w, 0)
  | msg :: rest =>
    match aggregate json w msg with
    | some w' => ((drain json w' rest).1, (drain json w' rest).2 + 1)
    | none => (w, 1)

/-- One pass over the notifications: its effect and the number of messages it takes. -/
def notifyPass (json : JsonReader) (window : ℕ) : List String → Option (Effect × ℕ)
  | [] => none
  | first :: rest =>
    match dispatch json first with
    | .inl e => some (e, 1)
    | .inr w =>
      some ((drain json w (rest.take window)).1.effect, (drain json w (rest.take window)).2 + 1)

namespace World

/-- One pass over the notifications. -/
def handleNotify (json : JsonReader) (w : World Addr) (window : ℕ) (answers : BatchAnswers Addr) :
    World Addr :=
  match notifyPass json window (onChannel .notify w.inflight) with
  | none => w
  | some (e, n) =>
    { w with driver := e.apply w.driver answers, inflight := (takeFrom .notify n w.inflight).2 }

/-- One batch of commands. -/
def handleCommands (json : JsonReader) (w : World Addr) (drained : ℕ)
    (answers : BatchAnswers Addr) : World Addr :=
  match onChannel .redis w.inflight with
  | [] => w
  | first :: rest =>
    { w with
      driver := processBatch w.driver (json.fromJson first)
        ((rest.take drained).map json.fromJson) answers
      inflight := (takeFrom .redis ((rest.take drained).length + 1) w.inflight).2 }

/-- One step. -/
def step (json : JsonReader) (toJson : IngestCommand → String) (w : World Addr) :
    Event Addr → World Addr
  | .discover act =>
    { w with
      discovery := w.discovery.step act
      inflight := w.inflight ++ (sent w.discovery act).map fun m => (m.1, toJson m.2) }
  | .handleNotify window answers => w.handleNotify json window answers
  | .handleCommands drained answers => w.handleCommands json drained answers

end World

/-! ## What messages ask for -/

/-- The requests of a message. -/
def msgRequests (json : JsonReader) (msg : String) : List (String × Bool) :=
  requestsOf (json.fromJson msg).toList

/-- The requests of the messages in flight. -/
def inflightRequests (json : JsonReader) (inflight : List (Channel × String)) :
    List (String × Bool) := inflight.flatMap fun m => msgRequests json m.2

/-- The requests an effect carries out. -/
def Effect.requests : Effect → List (String × Bool)
  | .subscribe _ pvs => pvs.map fun pv => (pv, true)
  | .unsubscribe _ pvs => pvs.map fun pv => (pv, false)
  | _ => []

/-- Every PV an effect subscribes to is found and accepted. -/
def Effect.Accepted (d : PvaDriver Addr) (answers : BatchAnswers Addr) : Effect → Prop
  | .subscribe _ pvs =>
    let newPvs := pvs.filter fun pv => ¬d.Subscribed pv
    ∀ pv ∈ newPvs, (pv, true) ∈ (d.monitorBatch newPvs answers).1
  | _ => True

theorem Effect.subscribed_apply {d : PvaDriver Addr} {answers : BatchAnswers Addr} {e : Effect}
    (h : e.Accepted d answers) (pv : String) :
    (e.apply d answers).Subscribed pv ↔ Decided {pv | d.Subscribed pv} e.requests pv := by
  cases e with
  | iocChange msg => exact Iff.rfl
  | ignored msg => exact Iff.rfl
  | unsubscribe msg pvs =>
    show (d.unsubscribe pvs).Subscribed pv ↔ _
    rw [PvaDriver.subscribed_unsubscribe, Effect.requests, decided_map]
    by_cases hmem : pv ∈ pvs
    · simp [hmem]
    · simp [hmem]
  | subscribe msgs pvs =>
    rw [Effect.requests, decided_map]
    show (if pvs.filter (fun pv => ¬d.Subscribed pv) = [] then d
      else (d.monitorBatch (pvs.filter fun pv => ¬d.Subscribed pv) answers).2).Subscribed pv ↔ _
    have hnew : pv ∈ pvs.filter (fun pv => ¬d.Subscribed pv) ↔ pv ∈ pvs ∧ ¬d.Subscribed pv := by
      rw [List.mem_filter, decide_eq_true_eq]
    have hmon : (if pvs.filter (fun pv => ¬d.Subscribed pv) = [] then d
        else (d.monitorBatch (pvs.filter fun pv => ¬d.Subscribed pv) answers).2).Subscribed pv ↔
        d.Subscribed pv ∨ pv ∈ pvs.filter fun pv => ¬d.Subscribed pv := by
      split_ifs with hnil
      · rw [hnil]
        simp
      · rw [PvaDriver.subscribed_monitorBatch]
        exact or_congr_right ⟨fun hm => PvaDriver.mem_of_mem_monitorBatch hm, h pv⟩
    rw [hmon, hnew]
    by_cases hmem : pv ∈ pvs
    · simp [hmem, em]
    · simp [hmem]

/-- `serde_json` reads a command back as it was written, with its `cmd` field. -/
structure ReadsBack (json : JsonReader) (toJson : IngestCommand → String) (cmd : IngestCommand) :
    Prop where
  fromJson : json.fromJson (toJson cmd) = some cmd
  cmdField : json.cmdField (toJson cmd) ≠ some "ioc_change"

/-- No message is lost to a window: those it takes are ones it takes up. -/
def Lossless (json : JsonReader) (window : ℕ) : List String → Prop
  | [] => True
  | first :: rest => opens json first → ∀ msg ∈ rest.take window, aggregates json msg

section Requests

variable {json : JsonReader}

theorem requests_dispatch {msg : String} (hcmd : json.cmdField msg ≠ some "ioc_change") :
    (∃ e, dispatch json msg = .inl e ∧ e.requests = msgRequests json msg) ∨
      ∃ w, dispatch json msg = .inr w ∧ w.effect.requests = msgRequests json msg := by
  unfold dispatch msgRequests
  rw [if_neg fun h => hcmd h.2]
  cases json.fromJson msg with
  | none => exact .inl ⟨_, rfl, rfl⟩
  | some cmd =>
    cases cmd with
    | subscribe pv ioc => exact .inr ⟨_, rfl, rfl⟩
    | subscribeBatch pvs ioc =>
      exact .inr ⟨_, rfl, by simp [Window.effect, Effect.requests, requestsOf, IngestCommand.requests]⟩
    | unsubscribe pv => exact .inl ⟨_, rfl, rfl⟩
    | unsubscribeBatch pvs =>
      exact .inl ⟨_, rfl, by simp [Effect.requests, requestsOf, IngestCommand.requests]⟩
    | reload => exact .inl ⟨_, rfl, rfl⟩

theorem requests_aggregate {w : Window} {msg : String} (hagg : aggregates json msg = true) :
    ∃ w', aggregate json w msg = some w' ∧
      w'.effect.requests = w.effect.requests ++ msgRequests json msg := by
  unfold aggregates at hagg
  unfold aggregate msgRequests
  rw [Bool.and_eq_true, Bool.not_eq_true'] at hagg
  rw [hagg.1]
  have hsub := hagg.2
  cases hcmd : json.fromJson msg with
  | none =>
    rw [hcmd] at hsub
    cases hsub
  | some cmd =>
    rw [hcmd] at hsub
    cases cmd with
    | subscribe pv ioc =>
      exact ⟨_, rfl, by simp [Window.effect, Effect.requests, requestsOf, IngestCommand.requests]⟩
    | subscribeBatch pvs ioc =>
      exact ⟨_, rfl, by simp [Window.effect, Effect.requests, requestsOf, IngestCommand.requests]⟩
    | unsubscribe pv => cases hsub
    | unsubscribeBatch pvs => cases hsub
    | reload => cases hsub

theorem requests_drain (w : Window) {msgs : List String}
    (hagg : ∀ msg ∈ msgs, aggregates json msg = true) :
    (drain json w msgs).1.effect.requests =
        w.effect.requests ++ msgs.flatMap (msgRequests json) ∧
      (drain json w msgs).2 = msgs.length := by
  induction msgs generalizing w with
  | nil => simp [drain]
  | cons msg msgs ih =>
    rw [List.forall_mem_cons] at hagg
    obtain ⟨w', hw', hreq⟩ := requests_aggregate (w := w) hagg.1
    obtain ⟨hreqs, hlen⟩ := ih w' hagg.2
    simp only [drain, hw']
    rw [hreqs, hlen, hreq, List.flatMap_cons, List.append_assoc, List.length_cons]
    exact ⟨rfl, rfl⟩

/-- A pass that loses no message carries out the requests of the messages it takes. -/
theorem requests_notifyPass {window : ℕ} {msgs : List String} {e : Effect} {n : ℕ}
    (hpass : notifyPass json window msgs = some (e, n))
    (hcmd : ∀ msg ∈ msgs, json.cmdField msg ≠ some "ioc_change")
    (hloss : Lossless json window msgs) :
    e.requests = (msgs.take n).flatMap (msgRequests json) := by
  cases msgs with
  | nil => cases hpass
  | cons first rest =>
    rw [List.forall_mem_cons] at hcmd
    rcases requests_dispatch hcmd.1 with ⟨e', he, hreq⟩ | ⟨w, hw, hreq⟩
    · simp only [notifyPass, he, Option.some.injEq, Prod.mk.injEq] at hpass
      obtain ⟨rfl, rfl⟩ := hpass
      simpa using hreq
    · have hopen : opens json first = true := by simp [opens, hw]
      obtain ⟨hreqs, hlen⟩ := requests_drain w (hloss hopen)
      simp only [notifyPass, hw, Option.some.injEq, Prod.mk.injEq] at hpass
      obtain ⟨rfl, rfl⟩ := hpass
      rw [hreqs, hlen, hreq, List.take_succ_cons, List.flatMap_cons, List.length_take,
        List.take_eq_take_min]

end Requests

/-! ## Handling messages in order -/

namespace World

/-- The PV is subscribed once the messages in flight are handled in the order they were
    sent in. -/
def Bound (w : World Addr) (json : JsonReader) (pv : String) : Prop :=
  Decided {pv | w.driver.Subscribed pv} (inflightRequests json w.inflight) pv

/-- The last message about a PV is not overtaken by one that asks for something else: the
    messages that stay, if any is about the PV, end as all of them did. -/
def InOrder (json : JsonReader) (inflight rest : List (Channel × String)) : Prop :=
  ∀ pv b, latest (inflightRequests json rest) pv = some b →
    latest (inflightRequests json inflight) pv = some b

/-- What is asked of a pass over the notifications: every subscribe succeeds, the window
    loses no message, and no message is overtaken. -/
def NotifyInOrder (json : JsonReader) (w : World Addr) (window : ℕ) (answers : BatchAnswers Addr) :
    Prop :=
  match notifyPass json window (onChannel .notify w.inflight) with
  | none => True
  | some (e, n) =>
    e.Accepted w.driver answers ∧ Lossless json window (onChannel .notify w.inflight) ∧
      InOrder json w.inflight (takeFrom .notify n w.inflight).2

/-- What is asked of a batch of commands: every subscribe succeeds, no PV that the batch
    unsubscribes from has a subscribe as its last command, and no message is overtaken. -/
def CommandsInOrder (json : JsonReader) (w : World Addr) (drained : ℕ)
    (answers : BatchAnswers Addr) : Prop :=
  match onChannel .redis w.inflight with
  | [] => True
  | first :: rest =>
    let cmds := (rest.take drained).map json.fromJson
    SubscribesSucceed w.driver (json.fromJson first) cmds answers ∧
      (∀ pv, latest (requestsOf (batchCommands (json.fromJson first) cmds)) pv = some true →
        (pv, false) ∉ requestsOf (batchCommands (json.fromJson first) cmds)) ∧
      InOrder json w.inflight (takeFrom .redis ((rest.take drained).length + 1) w.inflight).2

omit [DecidableEq Addr] in
/-- Messages taken from one channel and carried out. -/
theorem bound_take {json : JsonReader} {w : World Addr} {c : Channel} {n : ℕ}
    {driver : PvaDriver Addr}
    (hdriver : ∀ pv, driver.Subscribed pv ↔ Decided {pv | w.driver.Subscribed pv}
      ((takeFrom c n w.inflight).1.flatMap (msgRequests json)) pv)
    (horder : InOrder json w.inflight (takeFrom c n w.inflight).2) (pv : String) :
    Bound { w with driver, inflight := (takeFrom c n w.inflight).2 } json pv ↔
      w.Bound json pv := by
  unfold Bound Decided
  dsimp only
  cases hlast : latest (inflightRequests json (takeFrom c n w.inflight).2) pv with
  | some b => rw [horder pv b hlast]
  | none =>
    have htaken : latest (inflightRequests json w.inflight) pv =
        latest ((takeFrom c n w.inflight).1.flatMap (msgRequests json)) pv :=
      latest_takeFrom (msgRequests json) c n w.inflight pv hlast
    rw [htaken]
    exact hdriver pv

theorem bound_handleNotify {json : JsonReader} {w : World Addr} {window : ℕ}
    {answers : BatchAnswers Addr}
    (hcmd : ∀ m ∈ w.inflight, json.cmdField m.2 ≠ some "ioc_change")
    (h : w.NotifyInOrder json window answers) (pv : String) :
    (w.handleNotify json window answers).Bound json pv ↔ w.Bound json pv := by
  unfold NotifyInOrder at h
  unfold handleNotify
  cases hpass : notifyPass json window (onChannel .notify w.inflight) with
  | none => exact Iff.rfl
  | some out =>
    obtain ⟨e, n⟩ := out
    rw [hpass] at h
    obtain ⟨hacc, hloss, horder⟩ := h
    have hmsgs : ∀ msg ∈ onChannel .notify w.inflight, json.cmdField msg ≠ some "ioc_change" := by
      intro msg hmsg
      obtain ⟨m, hm, rfl⟩ := List.mem_map.1 hmsg
      exact hcmd m (List.mem_filter.1 hm).1
    refine bound_take (fun pv => ?_) horder pv
    rw [takeFrom_fst, ← requests_notifyPass hpass hmsgs hloss]
    exact Effect.subscribed_apply hacc pv

theorem requestsOf_reduceOption (json : JsonReader) (msgs : List String) :
    requestsOf (msgs.map json.fromJson).reduceOption = msgs.flatMap (msgRequests json) := by
  induction msgs with
  | nil => rfl
  | cons msg msgs ih =>
    rw [List.map_cons, List.flatMap_cons, ← ih]
    cases hcmd : json.fromJson msg with
    | none => simp [msgRequests, hcmd, requestsOf, List.reduceOption_cons_of_none]
    | some cmd => simp [msgRequests, hcmd, requestsOf, List.reduceOption_cons_of_some]

theorem bound_handleCommands {json : JsonReader} {w : World Addr} {drained : ℕ}
    {answers : BatchAnswers Addr} (h : w.CommandsInOrder json drained answers) (pv : String) :
    (w.handleCommands json drained answers).Bound json pv ↔ w.Bound json pv := by
  unfold CommandsInOrder at h
  unfold handleCommands
  cases hmsgs : onChannel .redis w.inflight with
  | nil => exact Iff.rfl
  | cons first rest =>
    rw [hmsgs] at h
    obtain ⟨hsucc, hlast, horder⟩ := h
    refine bound_take (fun pv => ?_) horder pv
    have htaken : (takeFrom .redis ((rest.take drained).length + 1) w.inflight).1 =
        first :: rest.take drained := by
      rw [takeFrom_fst, hmsgs, List.take_succ_cons, List.length_take, ← List.take_eq_take_min]
    have hreq : requestsOf (batchCommands (json.fromJson first)
        ((rest.take drained).map json.fromJson)) =
        (takeFrom .redis ((rest.take drained).length + 1) w.inflight).1.flatMap
          (msgRequests json) := by
      rw [htaken, ← requestsOf_reduceOption]
      rfl
    have hpres := Set.ext_iff.1 ((orderPreserved_iff hsucc).2 hlast) pv
    rw [mem_foldl_applyCommand_iff, hreq] at hpres
    exact hpres

end World

end AuraEpics.Main

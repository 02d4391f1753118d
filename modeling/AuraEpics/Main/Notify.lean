import Mathlib.Data.List.Infix
import Mathlib.Data.List.Chain
import AuraEpics.Discover.Command
import AuraEpics.Main.IocChange

/-!
# Notifications in the main loop

Model of the branch of the main loop that reads the notification channel
(`src/main.rs`, lines 880-1033). A subscribe opens a window: the messages that arrive
within 100 ms of each other are taken from the channel and, if they are subscribes,
added to the batch. The first message of another kind closes the window.

A message of the channel comes with whether it arrives within 100 ms of the wait for
it. Each `Effect` names the messages it is the effect of; `serve` runs the effects on the
driver and keeps, for each, these messages and the driver it leaves.

* `request`, `ActedUpon`: what a message asks for, and what the driver is once messages
  have been acted upon; they say nothing of windows.

Result: `notifyLoop_messages_iff`, for which message sequences every message that is
taken from the channel is acted upon.
-/

namespace AuraEpics.Main

open AuraEpics.Discover AuraEpics.Runtime

/-- What the main loop asks `serde_json` for: `IngestCommand::from_json`, and the string
    in the field `cmd` of a message that is JSON. -/
structure JsonReader where
  fromJson : String → Option IngestCommand
  cmdField : String → Option String

/-- `contains("\"ioc_change\"")`. -/
def mentionsIocChange (msg : String) : Bool := "\"ioc_change\"".toList <:+: msg.toList

/-- What the branch does for some messages of the channel: reload the IOCs, subscribe to
    a batch, unsubscribe, or nothing. -/
inductive Effect where
  | iocChange (msg : String)
  | subscribe (msgs : List String) (pvs : List String)
  | unsubscribe (msg : String) (pvs : List String)
  | ignored (msg : String)
  deriving DecidableEq, Repr

/-- The messages an effect acts upon. -/
def Effect.messages : Effect → List String
  | iocChange msg => [msg]
  | subscribe msgs _ => msgs
  | unsubscribe msg _ => [msg]
  | ignored msg => [msg]

/-- The drain window (lines 955-980): the messages of the batch and its PVs. -/
structure Window where
  msgs : List String
  subscribePvs : List String

/-- A message at the top of the branch (lines 880-952 and 1006-1032). A subscribe opens a
    window. -/
def dispatch (json : JsonReader) (msg : String) : Effect ⊕ Window :=
  if mentionsIocChange msg ∧ json.cmdField msg = some "ioc_change" then .inl (.iocChange msg)
  else
    match json.fromJson msg with
    | some (.subscribe pv _) => .inr ⟨[msg], [pv]⟩
    | some (.subscribeBatch pvs _) => .inr ⟨[msg], pvs⟩
    | some (.unsubscribe pv) => .inl (.unsubscribe msg [pv])
    | some (.unsubscribeBatch pvs) => .inl (.unsubscribe msg pvs)
    | some .reload => .inl (.ignored msg)
    | none => .inl (.ignored msg)

/-- A message taken inside the window (lines 963-979); `none` is `break`. -/
def aggregate (json : JsonReader) (w : Window) (msg : String) : Option Window :=
  if mentionsIocChange msg then none
  else
    match json.fromJson msg with
    | some (.subscribe pv _) => some ⟨w.msgs ++ [msg], w.subscribePvs ++ [pv]⟩
    | some (.subscribeBatch pvs _) => some ⟨w.msgs ++ [msg], w.subscribePvs ++ pvs⟩
    | _ => none

/-- The batch a window comes to (lines 981-1004). -/
def Window.effect (w : Window) : Effect := .subscribe w.msgs w.subscribePvs

/-- The effects of the branch on the messages of the channel, from the top of the branch
    or from inside a window. The window closes when no message arrives in time, and also
    when one arrives that is not aggregated; that message has left the channel. -/
def notifyLoop (json : JsonReader) : Option Window → List (String × Bool) → List Effect
  | none, [] => []
  | some w, [] => [w.effect]
  | none, (msg, _) :: rest =>
    match dispatch json msg with
    | .inl e => e :: notifyLoop json none rest
    | .inr w => notifyLoop json (some w) rest
  | some w, (msg, inTime) :: rest =>
    if inTime then
      match aggregate json w msg with
      | some w' => notifyLoop json (some w') rest
      | none => w.effect :: notifyLoop json none rest
    else
      w.effect ::
        match dispatch json msg with
        | .inl e => e :: notifyLoop json none rest
        | .inr w' => notifyLoop json (some w') rest

/-- What an effect does to the driver (lines 981-1031), apart from a reload of the IOCs. -/
def Effect.apply {Addr : Type} [DecidableEq Addr] (d : PvaDriver Addr)
    (answers : BatchAnswers Addr) : Effect → PvaDriver Addr
  | .iocChange _ => d
  | .subscribe _ pvs =>
    let newPvs := pvs.filter fun pv => ¬d.Subscribed pv
    if newPvs = [] then d else (d.monitorBatch newPvs answers).2
  | .unsubscribe _ pvs => d.unsubscribe pvs
  | .ignored _ => d

/-- What the network and the table answer to one effect. -/
structure PassAnswers (Addr : Type) where
  rows : Option (List String)
  hotAdds : ℕ → HotAdd
  batch : BatchAnswers Addr

section Serve

variable {Addr : Type} [DecidableEq Addr] (parse : String → Option Addr)

/-- What an effect does to the driver. -/
def Effect.perform (d : PvaDriver Addr) (a : PassAnswers Addr) : Effect → PvaDriver Addr
  | .iocChange _ => (handleIocChange parse d a.rows a.hotAdds).driver
  | e => e.apply d a.batch

/-- Messages that have been acted upon, and the driver after that. -/
structure Served (Addr : Type) where
  msgs : List String
  driver : PvaDriver Addr

/-- The effects one after another on the driver; `answers k` are for the `k`-th. -/
def serve (answers : ℕ → PassAnswers Addr) :
    ℕ → PvaDriver Addr → List Effect → List (Served Addr)
  | _, _, [] => []
  | k, d, e :: es =>
    let d' := e.perform parse d (answers k)
    ⟨e.messages, d'⟩ :: serve answers (k + 1) d' es

/-- The branch on the messages of the channel, with a driver. -/
def runNotify (json : JsonReader) (answers : ℕ → PassAnswers Addr) (d : PvaDriver Addr)
    (msgs : List (String × Bool)) : List (Served Addr) :=
  serve parse answers 0 d (notifyLoop json none msgs)

end Serve

/-! ## What a message asks for -/

/-- What a message asks of the main loop. -/
inductive Request where
  | reloadIocs
  | subscribe (pvs : List String)
  | unsubscribe (pvs : List String)
  | nothing
  deriving DecidableEq, Repr

/-- The request of a message. One that is not a command asks for nothing. -/
def request (json : JsonReader) (msg : String) : Request :=
  if mentionsIocChange msg ∧ json.cmdField msg = some "ioc_change" then .reloadIocs
  else
    match json.fromJson msg with
    | some (.subscribe pv _) => .subscribe [pv]
    | some (.subscribeBatch pvs _) => .subscribe pvs
    | some (.unsubscribe pv) => .unsubscribe [pv]
    | some (.unsubscribeBatch pvs) => .unsubscribe pvs
    | some .reload | none => .nothing

section Handled

variable {Addr : Type} [DecidableEq Addr] (json : JsonReader) (parse : String → Option Addr)

/-- The driver `d'` is `d` after some messages have been acted upon: the IOCs are reloaded,
    the PVs of all subscribes that are not subscribed yet are monitored, the PVs of an
    unsubscribe are unsubscribed. -/
inductive ActedUpon (a : PassAnswers Addr) (d : PvaDriver Addr) :
    List String → PvaDriver Addr → Prop
  | reload {msg} (h : request json msg = .reloadIocs) :
    ActedUpon a d [msg] (handleIocChange parse d a.rows a.hotAdds).driver
  | subscribe {msgs} {pvss : List (List String)} {newPvs : List String}
    (h : msgs.map (request json) = pvss.map .subscribe)
    (hnew : newPvs = pvss.flatten.filter fun pv => ¬d.Subscribed pv) :
    ActedUpon a d msgs (if newPvs = [] then d else (d.monitorBatch newPvs a.batch).2)
  | unsubscribe {msg} {pvs : List String} (h : request json msg = .unsubscribe pvs) :
    ActedUpon a d [msg] (d.unsubscribe pvs)
  | nothing {msg} (h : request json msg = .nothing) : ActedUpon a d [msg] d

/-- Each entry's messages have been acted upon in turn, from the driver `d` on. -/
inductive Acts (answers : ℕ → PassAnswers Addr) :
    ℕ → PvaDriver Addr → List (Served Addr) → Prop
  | nil {k d} : Acts answers k d []
  | cons {k d} {s : Served Addr} {log : List (Served Addr)}
    (h : ActedUpon json parse (answers k) d s.msgs s.driver)
    (hlog : Acts answers (k + 1) s.driver log) : Acts answers k d (s :: log)

/-- Each message has been acted upon once, in the order of the messages. -/
structure HandledOnce (answers : ℕ → PassAnswers Addr) (d : PvaDriver Addr) (msgs : List String)
    (log : List (Served Addr)) : Prop where
  acts : Acts json parse answers 0 d log
  once : log.flatMap Served.msgs = msgs

/-! ## Effects do what their messages ask for -/

/-- An effect is what its messages ask for. -/
def Effect.Meant : Effect → Prop
  | .iocChange msg => request json msg = .reloadIocs
  | .subscribe msgs pvs =>
    ∃ pvss : List (List String), msgs.map (request json) = pvss.map .subscribe ∧ pvs = pvss.flatten
  | .unsubscribe msg pvs => request json msg = .unsubscribe pvs
  | .ignored msg => request json msg = .nothing

theorem dispatch_meant (msg : String) :
    (∃ e, dispatch json msg = .inl e ∧ e.Meant json) ∨
      ∃ w, dispatch json msg = .inr w ∧ w.effect.Meant json := by
  unfold dispatch
  split_ifs with hioc
  · exact .inl ⟨_, rfl, if_pos hioc⟩
  · have hreq : request json msg = _ := if_neg hioc
    rcases hcmd : json.fromJson msg with _ | cmd
    · rw [hcmd] at hreq
      exact .inl ⟨_, rfl, hreq⟩
    · rw [hcmd] at hreq
      cases cmd with
      | subscribe pv _ => exact .inr ⟨_, rfl, [[pv]], by simpa using hreq, rfl⟩
      | subscribeBatch pvs _ =>
        exact .inr ⟨_, rfl, [pvs], by simpa using hreq, (List.append_nil pvs).symm⟩
      | unsubscribe pv => exact .inl ⟨_, rfl, hreq⟩
      | unsubscribeBatch pvs => exact .inl ⟨_, rfl, hreq⟩
      | reload => exact .inl ⟨_, rfl, hreq⟩

/-- A window stays one batch of subscribes. -/
theorem aggregate_meant {w w' : Window} {msg : String} (hw : w.effect.Meant json)
    (h : aggregate json w msg = some w') : w'.effect.Meant json := by
  obtain ⟨pvss, hmsgs, hpvs⟩ := hw
  unfold aggregate at h
  split_ifs at h with hioc
  have hreq : request json msg = _ := if_neg fun hmention => hioc hmention.1
  rcases hcmd : json.fromJson msg with _ | cmd
  · rw [hcmd] at h
    cases h
  · rw [hcmd] at h hreq
    cases cmd with
    | subscribe pv _ =>
      cases h
      exact ⟨pvss ++ [[pv]], by simp [hmsgs, hreq], by simp [hpvs]⟩
    | subscribeBatch pvs _ =>
      cases h
      exact ⟨pvss ++ [pvs], by simp [hmsgs, hreq], by simp [hpvs]⟩
    | unsubscribe pv => cases h
    | unsubscribeBatch pvs => cases h
    | reload => cases h

theorem notifyLoop_meant (w : Option Window) (hw : ∀ v, w = some v → v.effect.Meant json)
    (msgs : List (String × Bool)) : ∀ e ∈ notifyLoop json w msgs, e.Meant json := by
  induction msgs generalizing w with
  | nil =>
    cases w with
    | none => exact fun _ he => absurd he List.not_mem_nil
    | some w =>
      intro e he
      rw [List.mem_singleton.1 he]
      exact hw w rfl
  | cons m rest ih =>
    obtain ⟨msg, inTime⟩ := m
    have hnone := ih none fun _ h => absurd h nofun
    have htop : ∀ e ∈ (match dispatch json msg with
        | .inl e => e :: notifyLoop json none rest
        | .inr w' => notifyLoop json (some w') rest), e.Meant json := by
      rcases dispatch_meant json msg with ⟨e, he, hmeant⟩ | ⟨w', hw', hmeant⟩
      · rw [he]
        exact List.forall_mem_cons.2 ⟨hmeant, hnone⟩
      · rw [hw']
        exact ih (some w') fun v hv => Option.some.inj hv ▸ hmeant
    cases w with
    | none =>
      rw [notifyLoop]
      exact htop
    | some w =>
      have hmeant := hw w rfl
      rw [notifyLoop]
      cases inTime with
      | false => exact List.forall_mem_cons.2 ⟨hmeant, htop⟩
      | true =>
        rw [if_pos rfl]
        cases hagg : aggregate json w msg with
        | none => exact List.forall_mem_cons.2 ⟨hmeant, hnone⟩
        | some w' =>
          exact ih (some w') fun v hv => Option.some.inj hv ▸ aggregate_meant json hmeant hagg

theorem Effect.actedUpon {e : Effect} (h : e.Meant json) (d : PvaDriver Addr)
    (a : PassAnswers Addr) : ActedUpon json parse a d e.messages (e.perform parse d a) := by
  cases e with
  | iocChange msg => exact .reload h
  | subscribe msgs pvs =>
    obtain ⟨pvss, hmsgs, rfl⟩ := h
    exact .subscribe hmsgs rfl
  | unsubscribe msg pvs => exact .unsubscribe h
  | ignored msg => exact .nothing h

theorem serve_acts (answers : ℕ → PassAnswers Addr) {es : List Effect}
    (h : ∀ e ∈ es, e.Meant json) (k : ℕ) (d : PvaDriver Addr) :
    Acts json parse answers k d (serve parse answers k d es) := by
  induction es generalizing k d with
  | nil => exact .nil
  | cons e es ih =>
    rw [List.forall_mem_cons] at h
    exact .cons (e.actedUpon json parse h.1 d (answers k)) (ih h.2 (k + 1) _)

theorem serve_messages (answers : ℕ → PassAnswers Addr) (k : ℕ) (d : PvaDriver Addr)
    (es : List Effect) :
    (serve parse answers k d es).flatMap Served.msgs = es.flatMap Effect.messages := by
  induction es generalizing k d with
  | nil => rfl
  | cons e es ih => exact congrArg (e.messages ++ ·) (ih (k + 1) _)

end Handled

/-! ## Lost messages -/

section Lost

variable (json : JsonReader)

/-- The messages that open a window. -/
def opens (msg : String) : Bool := (dispatch json msg).isRight

/-- The messages a window takes up: subscribes that do not mention `ioc_change`. -/
def aggregates (msg : String) : Bool :=
  !mentionsIocChange msg &&
    match json.fromJson msg with
    | some (.subscribe _ _) => true
    | some (.subscribeBatch _ _) => true
    | _ => false

/-- The condition on two messages that follow each other in the channel. -/
def Follows (a b : String × Bool) : Prop := opens json a.1 → b.2 → aggregates json b.1

theorem dispatch_messages (msg : String) :
    (∃ e, dispatch json msg = .inl e ∧ e.messages = [msg] ∧ opens json msg = false) ∨
      ∃ w, dispatch json msg = .inr w ∧ w.msgs = [msg] ∧ opens json msg = true := by
  unfold opens
  rcases hd : dispatch json msg with e | w
  · refine .inl ⟨e, rfl, ?_, rfl⟩
    unfold dispatch at hd
    split_ifs at hd
    · cases hd
      rfl
    · split at hd <;> cases hd <;> rfl
  · refine .inr ⟨w, rfl, ?_, rfl⟩
    unfold dispatch at hd
    split_ifs at hd
    split at hd <;> cases hd <;> rfl

theorem aggregate_messages (w : Window) (msg : String) :
    (aggregate json w msg = none ∧ aggregates json msg = false) ∨
      ∃ w', aggregate json w msg = some w' ∧ w'.msgs = w.msgs ++ [msg] ∧
        aggregates json msg = true ∧ opens json msg = true := by
  unfold aggregate aggregates opens dispatch
  cases hio : mentionsIocChange msg with
  | true => exact .inl ⟨rfl, by simp⟩
  | false =>
    cases hcmd : json.fromJson msg with
    | none => exact .inl ⟨rfl, by simp⟩
    | some cmd => cases cmd <;> simp

/-- The messages acted upon are no more than those of the window and the channel. -/
theorem length_notifyLoop_le (w : Option Window) (msgs : List (String × Bool)) :
    ((notifyLoop json w msgs).flatMap Effect.messages).length ≤
      (w.elim 0 fun w => w.msgs.length) + msgs.length := by
  have hsome : ∀ w' : Window, w'.effect.messages = w'.msgs := fun _ => rfl
  induction msgs generalizing w with
  | nil => cases w <;> simp [notifyLoop, hsome]
  | cons m rest ih =>
    obtain ⟨msg, inTime⟩ := m
    have hnone := ih none
    -- a message at the top of the branch is acted upon or opens a window of its own
    have htop : ((match dispatch json msg with
        | .inl e => e :: notifyLoop json none rest
        | .inr w' => notifyLoop json (some w') rest).flatMap Effect.messages).length ≤
          1 + rest.length := by
      rcases dispatch_messages json msg with ⟨e, he, hmsg, -⟩ | ⟨w', hw, hmsg, -⟩
      · rw [he]
        simp only [List.flatMap_cons, List.length_append, hmsg, List.length_singleton]
        simp only [Option.elim_none, Nat.zero_add] at hnone
        omega
      · rw [hw]
        have hw' := ih (some w')
        simp only [Option.elim_some, hmsg, List.length_singleton] at hw'
        exact hw'
    cases w with
    | none =>
      simp only [Option.elim_none, List.length_cons]
      rw [notifyLoop]
      omega
    | some w =>
      simp only [Option.elim_some, List.length_cons]
      rw [notifyLoop]
      cases inTime with
      | false =>
        simp only [Bool.false_eq_true, if_false, List.flatMap_cons, List.length_append, hsome]
        omega
      | true =>
        rw [if_pos rfl]
        rcases aggregate_messages json w msg with ⟨hagg, -⟩ | ⟨w', hagg, hmsgs, -, -⟩
        · rw [hagg]
          simp only [List.flatMap_cons, List.length_append, hsome]
          simp only [Option.elim_none, Nat.zero_add] at hnone
          omega
        · rw [hagg]
          have hw' := ih (some w')
          simp only [Option.elim_some, hmsgs, List.length_append, List.length_singleton] at hw'
          dsimp only
          omega

/-- Inside a window the previous message is one that opens. The induction is over the
    channel, from the top of the branch and from inside a window at once. -/
theorem notifyLoop_messages (msgs : List (String × Bool)) :
    ((notifyLoop json none msgs).flatMap Effect.messages = msgs.map Prod.fst ↔
      msgs.IsChain (Follows json)) ∧
    ∀ (w : Window) (prev : String × Bool), opens json prev.1 →
      ((notifyLoop json (some w) msgs).flatMap Effect.messages = w.msgs ++ msgs.map Prod.fst ↔
        (prev :: msgs).IsChain (Follows json)) := by
  have hsome : ∀ w' : Window, w'.effect.messages = w'.msgs := fun _ => rfl
  induction msgs with
  | nil => simp [notifyLoop, hsome]
  | cons m rest ih =>
    obtain ⟨msg, inTime⟩ := m
    obtain ⟨ihTop, ihWindow⟩ := ih
    have htop : (match dispatch json msg with
        | .inl e => e :: notifyLoop json none rest
        | .inr w' => notifyLoop json (some w') rest).flatMap Effect.messages =
          msg :: rest.map Prod.fst ↔ ((msg, inTime) :: rest).IsChain (Follows json) := by
      rcases dispatch_messages json msg with ⟨e, he, hmsg, hopen⟩ | ⟨w', hw, hmsg, hopen⟩
      · rw [he]
        have hfollows : ((msg, inTime) :: rest).IsChain (Follows json) ↔
            rest.IsChain (Follows json) := by
          cases rest with
          | nil => simp
          | cons b rest => simp [List.isChain_cons_cons, Follows, hopen]
        rw [hfollows, ← ihTop]
        simp [hmsg]
      · rw [hw]
        rw [← ihWindow w' (msg, inTime) hopen, hmsg]
        rfl
    refine ⟨htop, fun w prev hprev => ?_⟩
    rw [List.isChain_cons_cons]
    show (notifyLoop json (some w) ((msg, inTime) :: rest)).flatMap Effect.messages = _ ↔ _
    rw [notifyLoop]
    cases inTime with
    | false =>
      have hfollows : Follows json prev (msg, false) := by
        intro _ h
        cases h
      rw [if_neg Bool.false_ne_true, List.flatMap_cons, hsome, List.map_cons]
      simp only [List.append_cancel_left_eq, hfollows, true_and]
      exact htop
    | true =>
      rw [if_pos rfl]
      rcases aggregate_messages json w msg with
        ⟨hagg, hnot⟩ | ⟨w', hagg, hmsgs, hyes, hopen⟩
      · rw [hagg]
        have hlost : ¬Follows json prev (msg, true) := by
          intro h
          have := h hprev rfl
          rw [hnot] at this
          cases this
        simp only [hlost, false_and, iff_false]
        intro heq
        have hlen := congrArg List.length heq
        have hle := length_notifyLoop_le json none rest
        simp only [List.flatMap_cons, List.length_append, hsome, List.map_cons, List.length_cons,
          List.length_map, Option.elim_none, Nat.zero_add] at hlen hle
        omega
      · rw [hagg]
        have hfollows : Follows json prev (msg, true) := fun _ _ => hyes
        simp only [hfollows, true_and]
        rw [← ihWindow w' (msg, true) hopen, hmsgs]
        simp

end Lost

/-- **Main theorem**: every message taken from the channel is acted upon, once and in
    order, exactly if every message that arrives within 100 ms of one that opens a window
    is a subscribe that does not mention `ioc_change`. -/
theorem notifyLoop_messages_iff {Addr : Type} [DecidableEq Addr] (json : JsonReader)
    (parse : String → Option Addr) (answers : ℕ → PassAnswers Addr) (d : PvaDriver Addr)
    (msgs : List (String × Bool)) :
    HandledOnce json parse answers d (msgs.map Prod.fst) (runNotify parse json answers d msgs) ↔
      msgs.IsChain fun a b => opens json a.1 → b.2 → aggregates json b.1 := by
  have hmeant := notifyLoop_meant json none (fun _ h => absurd h nofun) msgs
  have hserved := serve_messages parse answers 0 d (notifyLoop json none msgs)
  refine Iff.trans ⟨fun h => ?_, fun h => ⟨serve_acts json parse answers hmeant 0 d, ?_⟩⟩
    (notifyLoop_messages json msgs).1
  · exact hserved.symm.trans h.once
  · exact hserved.trans h

/-- The three messages of the example, as `to_json` and the listener write them. -/
def subscribeJson : String := "\x7b\"cmd\":\"subscribe_batch\",\"pvs\":[\"A\"]\x7d"
def unsubscribeJson : String := "\x7b\"cmd\":\"unsubscribe_batch\",\"pvs\":[\"B\"]\x7d"
def iocChangeJson : String := "\x7b\"cmd\":\"ioc_change\",\"address\":\"10.0.1.5:5075\"\x7d"

/-- `serde_json` on these messages. -/
def exampleReader : JsonReader where
  fromJson := fun msg =>
    if msg = subscribeJson then some (.subscribeBatch ["A"] none)
    else if msg = unsubscribeJson then some (.unsubscribeBatch ["B"])
    else none
  cmdField := fun msg =>
    if msg = subscribeJson then some "subscribe_batch"
    else if msg = unsubscribeJson then some "unsubscribe_batch"
    else if msg = iocChangeJson then some "ioc_change"
    else none

/-- PV `A` and PV `B` are on the IOC with address 1, which takes every batch; the table has
    this IOC enabled. -/
def exampleAnswers : PassAnswers ℕ where
  rows := some ["10.0.1.5:5075"]
  hotAdds := fun _ => ⟨some ["A", "B"], some fun _ => true, some fun _ => .started⟩
  batch := ⟨fun _ _ => true, fun _ _ => true, fun _ => .unsent, fun _ => some fun _ => .started⟩

/-- An unsubscribe and an IOC change that arrive within 100 ms of a subscribe are lost. -/
theorem notifyLoop_loses :
    let parse : String → Option ℕ := fun _ => some 1
    let msgs := [(subscribeJson, false), (unsubscribeJson, true), (subscribeJson, true),
      (iocChangeJson, true)]
    notifyLoop exampleReader none msgs =
        [.subscribe [subscribeJson] ["A"], .subscribe [subscribeJson] ["A"]] ∧
      ¬HandledOnce exampleReader parse (fun _ => exampleAnswers) (PvaDriver.new [])
        (msgs.map Prod.fst)
        (runNotify parse exampleReader (fun _ => exampleAnswers) (PvaDriver.new []) msgs) := by
  intro parse msgs
  have hloop : notifyLoop exampleReader none msgs =
      [.subscribe [subscribeJson] ["A"], .subscribe [subscribeJson] ["A"]] := by decide +kernel
  refine ⟨hloop, fun h => ?_⟩
  have honce := h.once
  rw [runNotify, serve_messages, hloop] at honce
  revert honce
  decide +kernel

end AuraEpics.Main

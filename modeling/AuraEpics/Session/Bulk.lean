import AuraEpics.Lib.Inbox
import AuraEpics.Session.Channels

/-!
# Bulk subscriptions

Model of `add_monitors_bulk` (`crates/aura-net/src/runtime/session.rs`, lines 905-1242). It
sends a CREATE_CHANNEL for every PV and waits for as many responses, then an INIT for every
channel that was created and waits again, sends INIT once more where none was answered and
waits a third time. Responses are matched to PVs by their ids, but counted whatever id they
carry.

* `createPhase`, `initPhase`, `finish`: the phases;
* `BulkCall`: the ids of a call and what it receives in its waits;
* `Truthful`: what the results and the tables say about the PVs.

Result: `bulk_truthful_iff`, a call is truthful exactly if nothing is sent, or every channel
is answered once in the first wait, no INIT is answered only by failures, and no wait ends
before an INIT that succeeds is read.
-/

namespace AuraEpics.Session

open AuraEpics.Codec Inbox

/-! ## Phase 1 -/

/-- The state of phase 1: the tables, `channel_map` with the name and the server's id of each
    channel, and `channel_failures`. -/
structure Creating where
  tables : SessionTables
  channelMap : AList fun _ : ℤ => String × ℤ
  failures : List ℤ

/-- The frame counts as a response in phase 1. -/
def Frame.isCreated : Frame → Bool
  | createChannel (some _) => true
  | _ => false

/-- One pass of the loop of phase 1 (lines 983-1006). -/
def handleCreated (idToPv : List (ℤ × String)) (c : Creating) : Frame → Creating
  | .createChannel (some resp) =>
    if resp.status.isOk then
      { c with
        tables := c.tables.activateChannel resp.clientChannelId resp.serverChannelId
        channelMap :=
          match idToPv.lookup resp.clientChannelId with
          | some pv => c.channelMap.insert resp.clientChannelId (pv, resp.serverChannelId)
          | none => c.channelMap }
    else
      { c with
        tables := c.tables.closeChannel resp.clientChannelId
        failures := c.failures.insert resp.clientChannelId }
  | _ => c

/-- `id_to_pv` (lines 916-923). -/
def addChannels (ids : ℕ → ℤ) (s : SessionTables) :
    List String → List (ℤ × String) × SessionTables
  | [] => ([], s)
  | pv :: pvs =>
    let (clientId, s) := s.addChannel ids pv
    let (idToPv, s) := addChannels ids s pvs
    ((clientId, pv) :: idToPv, s)

/-- The wait of phase 1 (lines 967-1008). -/
def createPhase (idToPv : List (ℤ × String)) (s : SessionTables) (wire : List (Option Frame)) :
    Creating × List (Option Frame) :=
  awaitAnswers Frame.isCreated (handleCreated idToPv) idToPv.length ⟨s, ∅, []⟩ wire

/-! ## Phases 2 and 2b -/

/-- The state of phases 2 and 2b: the tables and `init_done`. -/
structure Initialising where
  tables : SessionTables
  initDone : List ℤ

/-- The frame counts as a response in phases 2 and 2b. -/
def Frame.isInit : Frame → Bool
  | monitor (some (.init _ (some _) _)) => true
  | _ => false

/-- One pass of the loops of phases 2 and 2b (lines 1103-1134 and 1170-1201). A status other
    than `Ok` counts as done as well. -/
def handleInit (c : Initialising) : Frame → Initialising
  | .monitor (some (.init requestId (some status) desc)) =>
    { tables :=
        if status.isOk then
          match desc with
          | some desc => c.tables.setTypeDesc requestId desc
          | none => c.tables
        else c.tables
      initDone := c.initDone.insert requestId }
  | _ => c

/-- `all_pending` (lines 1035-1071): the name and the request of each channel. -/
def addPending (ids : ℕ → ℤ) (s : SessionTables) :
    List (String × ℤ) → List (String × ℤ) × SessionTables
  | [] => ([], s)
  | (pv, _) :: entries =>
    let requestId := ids s.taken
    let (pending, s) := addPending ids
      { s with monitors := s.monitors.insert requestId ⟨pv, none⟩, taken := s.taken + 1 } entries
    ((pv, requestId) :: pending, s)

/-- The requests that are not answered (lines 1144-1147). -/
def missingInit (pending : List (String × ℤ)) (initDone : List ℤ) : List (String × ℤ) :=
  pending.filter fun p => p.2 ∉ initDone

/-- The waits of phases 2 and 2b (lines 1073-1207); the second one only if a request is
    missing. -/
def initPhase (pending : List (String × ℤ)) (s : SessionTables) (wire : List (Option Frame)) :
    Initialising × List (Option Frame) :=
  let (c, wire) := awaitAnswers Frame.isInit handleInit pending.length ⟨s, []⟩ wire
  awaitAnswers Frame.isInit handleInit (missingInit pending c.initDone).length c wire

/-- One pass of the loop that builds the results (lines 1225-1237); `true` stands for `Ok`. -/
def finish (initDone : List ℤ) (acc : List (String × Bool) × SessionTables) (p : String × ℤ) :
    List (String × Bool) × SessionTables :=
  if p.2 ∈ initDone then (acc.1 ++ [(p.1, true)], acc.2)
  else (acc.1 ++ [(p.1, false)], { acc.2 with monitors := acc.2.monitors.erase p.2 })

/-- `add_monitors_bulk` (lines 905-1242). `flushed` says whether the requests of phase 1 are
    sent, and `order` is the one in which `channel_map` yields its values. -/
def addMonitorsBulk (ids : ℕ → ℤ) (s : SessionTables) (pvs : List String) (flushed : Bool)
    (order : HashOrder (String × ℤ)) (wire : List (Option Frame)) :
    List (String × Bool) × SessionTables × List (Option Frame) :=
  if pvs = [] then ([], s, wire)
  else
    let (idToPv, s) := addChannels ids s pvs
    if flushed then
      let (c, wire) := createPhase idToPv s wire
      let failed := c.failures.filterMap fun clientId => idToPv.lookup clientId
      let results := failed.map fun pv => (pv, false)
      let entries := order.yields (c.channelMap.entries.map Sigma.snd)
      let (pending, s) := addPending ids c.tables entries
      let (i, wire) := initPhase pending s wire
      let (results, s) := pending.foldl (finish i.initDone) (results, i.tables)
      (results, s, wire)
    else (idToPv.map fun e => (e.2, false), s, wire)

/-! ## What each phase does -/

/-- The responses among some frames of phase 1. -/
def responses (frames : List Frame) : List CreateChannelResponse :=
  frames.filterMap fun
    | .createChannel (some resp) => some resp
    | _ => none

theorem length_responses (frames : List Frame) :
    (responses frames).length = frames.countP Frame.isCreated := by
  induction frames with
  | nil => rfl
  | cons f frames ih =>
    unfold responses at ih ⊢
    rw [List.filterMap_cons, List.countP_cons, ← ih]
    cases f with
    | createChannel resp => cases resp <;> rfl
    | monitor msg => rfl
    | other => rfl

/-- Ids from the one counter of all sessions: there may be gaps, but no id comes twice. -/
structure IdSource where
  id : ℕ → ℤ
  injective : Function.Injective id

theorem addChannels_spec (ids : IdSource) (s : SessionTables) (pvs : List String) :
    let (idToPv, s') := addChannels ids.id s pvs
    idToPv.map Prod.snd = pvs ∧ (∀ e ∈ idToPv, ∃ k ≥ s.taken, e.1 = ids.id k) ∧
      (idToPv.map Prod.fst).Nodup ∧ s'.monitors = s.monitors := by
  induction pvs generalizing s with
  | nil => exact ⟨rfl, fun _ h => absurd h List.not_mem_nil, List.nodup_nil, rfl⟩
  | cons pv pvs ih =>
    obtain ⟨hnames, hids, hnodup, hmonitors⟩ := ih (s.addChannel ids.id pv).2
    refine ⟨congrArg (List.cons pv) hnames, fun e he => ?_, ?_, hmonitors⟩
    · obtain rfl | he := List.mem_cons.1 he
      · exact ⟨s.taken, Nat.le_refl _, rfl⟩
      · obtain ⟨k, hk, heq⟩ := hids e he
        exact ⟨k, Nat.le_of_succ_le hk, heq⟩
    · refine List.nodup_cons.2 ⟨fun hmem => ?_, hnodup⟩
      obtain ⟨e, he, heq⟩ := List.mem_map.1 hmem
      obtain ⟨k, hk, hid⟩ := hids e he
      have hk' : k = s.taken := ids.injective (hid.symm.trans heq)
      have hlt : s.taken + 1 ≤ k := hk
      omega

/-- Phase 1 after some frames. -/
structure CreatedBy (idToPv : List (ℤ × String)) (s : SessionTables) (frames : List Frame)
    (c : Creating) : Prop where
  monitors : c.tables.monitors = s.monitors
  failures_nodup : c.failures.Nodup
  mem_failures : ∀ clientId, clientId ∈ c.failures ↔
    ∃ resp ∈ responses frames, resp.clientChannelId = clientId ∧ resp.status.isOk = false
  mem_channelMap : ∀ clientId, clientId ∈ c.channelMap ↔ (idToPv.lookup clientId).isSome ∧
    ∃ resp ∈ responses frames, resp.clientChannelId = clientId ∧ resp.status.isOk = true
  named : ∀ clientId e, c.channelMap.lookup clientId = some e → idToPv.lookup clientId = some e.1

theorem monitors_setState (s : SessionTables) (clientId : ℤ) (state : ChannelState) :
    (s.setState clientId state).monitors = s.monitors := by
  unfold SessionTables.setState
  split <;> rfl

theorem createdBy_foldl (idToPv : List (ℤ × String)) (s : SessionTables) (frames : List Frame) :
    CreatedBy idToPv s frames (frames.foldl (handleCreated idToPv) ⟨s, ∅, []⟩) := by
  induction frames using List.reverseRecOn with
  | nil =>
    refine ⟨rfl, List.nodup_nil, fun clientId => ?_, fun clientId => ?_, fun clientId e h => ?_⟩
    · simp [responses]
    · simp [responses]
    · cases h
  | append_singleton frames f ih =>
    rw [List.foldl_concat]
    generalize frames.foldl (handleCreated idToPv) ⟨s, ∅, []⟩ = c at ih
    have happ : responses (frames ++ [f]) = responses frames ++ responses [f] :=
      List.filterMap_append
    -- a frame that is no response changes nothing
    have hquiet : responses [f] = [] → handleCreated idToPv c f = c →
        CreatedBy idToPv s (frames ++ [f]) (handleCreated idToPv c f) := by
      intro hnil hsame
      rw [hsame]
      rw [hnil, List.append_nil] at happ
      exact ⟨ih.monitors, ih.failures_nodup, by rw [happ]; exact ih.mem_failures,
        by rw [happ]; exact ih.mem_channelMap, ih.named⟩
    cases f with
    | other => exact hquiet rfl rfl
    | monitor msg => exact hquiet rfl rfl
    | createChannel resp =>
      cases resp with
      | none => exact hquiet rfl rfl
      | some resp =>
        replace happ : responses (frames ++ [.createChannel (some resp)]) =
          responses frames ++ [resp] := happ
        unfold handleCreated
        dsimp only
        by_cases hok : resp.status.isOk = true
        · rw [if_pos hok]
          refine ⟨(monitors_setState _ _ _).trans ih.monitors, ih.failures_nodup,
            fun clientId => ?_, fun clientId => ?_, fun clientId e h => ?_⟩
          · rw [ih.mem_failures clientId, happ]
            simp [hok]
          · rw [happ]
            dsimp only
            cases hpv : idToPv.lookup resp.clientChannelId with
            | none =>
              dsimp only
              rw [ih.mem_channelMap clientId]
              refine and_congr_right fun hsome => ?_
              have hne : resp.clientChannelId ≠ clientId := by
                rintro rfl
                rw [hpv] at hsome
                cases hsome
              simp [hne]
            | some pv =>
              dsimp only
              rw [AList.mem_insert, ih.mem_channelMap clientId]
              constructor
              · rintro (rfl | ⟨hsome, other, hother, hid, hok'⟩)
                · exact ⟨by rw [hpv]; rfl, resp, by simp, rfl, hok⟩
                · exact ⟨hsome, other, List.mem_append_left _ hother, hid, hok'⟩
              · rintro ⟨hsome, other, hother, hid, hok'⟩
                obtain hother | hother := List.mem_append.1 hother
                · exact .inr ⟨hsome, other, hother, hid, hok'⟩
                · rw [List.mem_singleton.1 hother] at hid
                  exact .inl hid.symm
          · dsimp only at h
            cases hpv : idToPv.lookup resp.clientChannelId with
            | none =>
              rw [hpv] at h
              exact ih.named clientId e h
            | some pv =>
              rw [hpv] at h
              by_cases hid : clientId = resp.clientChannelId
              · subst hid
                rw [AList.lookup_insert] at h
                cases h
                exact hpv
              · rw [AList.lookup_insert_ne hid] at h
                exact ih.named clientId e h
        · rw [if_neg hok]
          refine ⟨(monitors_setState _ _ _).trans ih.monitors, ih.failures_nodup.insert,
            fun clientId => ?_, fun clientId => ?_, ih.named⟩
          · rw [List.mem_insert_iff, ih.mem_failures clientId, happ]
            simp only [List.mem_append, List.mem_singleton, or_and_right, exists_or, exists_eq_left]
            rw [or_comm, eq_comm (a := clientId)]
            simp [hok]
          · rw [ih.mem_channelMap clientId, happ]
            simp [hok]

theorem addPending_spec (ids : IdSource) (s : SessionTables) (entries : List (String × ℤ)) :
    let (pending, s') := addPending ids.id s entries
    pending.map Prod.fst = entries.map Prod.fst ∧ (∀ p ∈ pending, ∃ k ≥ s.taken, p.2 = ids.id k) ∧
      (pending.map Prod.snd).Nodup ∧
      ∀ requestId, (s'.monitors.lookup requestId).map MonitorSubscription.pvName =
        ((pending.find? fun p => p.2 = requestId).map Prod.fst).or
          ((s.monitors.lookup requestId).map MonitorSubscription.pvName) := by
  induction entries generalizing s with
  | nil => exact ⟨rfl, fun _ h => absurd h List.not_mem_nil, List.nodup_nil, fun _ => rfl⟩
  | cons e entries ih =>
    obtain ⟨pv, serverId⟩ := e
    obtain ⟨hnames, hids, hnodup, hmonitors⟩ := ih { s with
      monitors := s.monitors.insert (ids.id s.taken) ⟨pv, none⟩, taken := s.taken + 1 }
    have hfresh : ids.id s.taken ∉ (addPending ids.id { s with
        monitors := s.monitors.insert (ids.id s.taken) ⟨pv, none⟩
        taken := s.taken + 1 } entries).1.map Prod.snd := by
      intro hmem
      obtain ⟨p, hp, heq⟩ := List.mem_map.1 hmem
      obtain ⟨k, hk, hid⟩ := hids p hp
      have hk' : k = s.taken := ids.injective (hid.symm.trans heq)
      have hlt : s.taken + 1 ≤ k := hk
      omega
    refine ⟨congrArg (List.cons pv) hnames, fun p hp => ?_, List.nodup_cons.2 ⟨hfresh, hnodup⟩,
      fun requestId => ?_⟩
    · obtain rfl | hp := List.mem_cons.1 hp
      · exact ⟨s.taken, Nat.le_refl _, rfl⟩
      · obtain ⟨k, hk, heq⟩ := hids p hp
        exact ⟨k, Nat.le_of_succ_le hk, heq⟩
    · refine (hmonitors requestId).trans ?_
      show _ = (((((pv, ids.id s.taken) : String × ℤ) :: _).find? _).map Prod.fst).or _
      by_cases hid : ids.id s.taken = requestId
      · subst hid
        rw [List.find?_cons_of_pos (by simp), List.find?_eq_none.2, AList.lookup_insert]
        · rfl
        · intro p hp heq
          exact hfresh (List.mem_map.2 ⟨p, hp, of_decide_eq_true heq⟩)
      · rw [List.find?_cons_of_neg (by simpa using hid), AList.lookup_insert_ne (Ne.symm hid)]

theorem pvName_setTypeDesc (s : SessionTables) (id requestId : ℤ) (desc : FieldDesc) :
    ((s.setTypeDesc id desc).monitors.lookup requestId).map MonitorSubscription.pvName =
      (s.monitors.lookup requestId).map MonitorSubscription.pvName := by
  unfold SessionTables.setTypeDesc
  cases hmon : s.monitors.lookup id with
  | none => rfl
  | some mon =>
    dsimp only
    by_cases hid : requestId = id
    · subst hid
      rw [AList.lookup_insert, hmon]
      rfl
    · rw [AList.lookup_insert_ne hid]

/-- The frames answer the request, with a status that is decodable. -/
def Answers (frames : List Frame) (requestId : ℤ) : Prop :=
  ∃ status desc, Frame.monitor (some (.init requestId (some status) desc)) ∈ frames

/-- Phases 2 and 2b after some frames. -/
structure InitialisedBy (s : SessionTables) (frames : List Frame) (c : Initialising) : Prop where
  mem_initDone : ∀ requestId, requestId ∈ c.initDone ↔ Answers frames requestId
  monitors : ∀ requestId, (c.tables.monitors.lookup requestId).map MonitorSubscription.pvName =
    (s.monitors.lookup requestId).map MonitorSubscription.pvName

theorem initialisedBy_foldl (s : SessionTables) (frames : List Frame) :
    InitialisedBy s frames (frames.foldl handleInit ⟨s, []⟩) := by
  induction frames using List.reverseRecOn with
  | nil =>
    refine ⟨fun requestId => ?_, fun _ => rfl⟩
    simp [Answers]
  | append_singleton frames f ih =>
    rw [List.foldl_concat]
    generalize frames.foldl handleInit ⟨s, []⟩ = c at ih
    -- a frame that is no response changes nothing
    have hquiet : (∀ requestId, ¬Answers [f] requestId) → handleInit c f = c →
        InitialisedBy s (frames ++ [f]) (handleInit c f) := by
      intro hnone hsame
      rw [hsame]
      refine ⟨fun requestId => ?_, ih.monitors⟩
      rw [ih.mem_initDone requestId]
      have hnot := hnone requestId
      unfold Answers at hnot ⊢
      simp only [List.mem_append, exists_or, or_iff_left hnot]
    cases f with
    | other => exact hquiet (by simp [Answers]) rfl
    | createChannel resp => exact hquiet (by simp [Answers]) rfl
    | monitor msg =>
      cases msg with
      | none => exact hquiet (by simp [Answers]) rfl
      | some msg =>
        cases msg with
        | update id => exact hquiet (by simp [Answers]) rfl
        | init id status desc =>
          cases status with
          | none => exact hquiet (by simp [Answers]) rfl
          | some status =>
            refine ⟨fun requestId => ?_, fun requestId => ?_⟩
            · show requestId ∈ c.initDone.insert id ↔ _
              rw [List.mem_insert_iff, ih.mem_initDone requestId]
              unfold Answers
              simp only [List.mem_append, List.mem_singleton, exists_or, Frame.monitor.injEq,
                Option.some.injEq, MonitorMessage.init.injEq]
              rw [or_comm]
              refine or_congr Iff.rfl ⟨?_, ?_⟩
              · rintro rfl
                exact ⟨status, desc, rfl, rfl, rfl⟩
              · rintro ⟨status, desc, hid, -⟩
                exact hid
            · rw [← ih.monitors requestId]
              unfold handleInit
              dsimp only
              split_ifs
              · cases desc with
                | none => rfl
                | some desc => exact pvName_setTypeDesc c.tables id requestId desc
              · rfl

theorem foldl_finish (initDone : List ℤ) (results : List (String × Bool)) (s : SessionTables)
    (pending : List (String × ℤ)) :
    let out := pending.foldl (finish initDone) (results, s)
    out.1 = results ++ pending.map (fun p => (p.1, decide (p.2 ∈ initDone))) ∧
      ∀ requestId, out.2.monitors.lookup requestId =
        if requestId ∈ pending.map Prod.snd ∧ requestId ∉ initDone then none
        else s.monitors.lookup requestId := by
  induction pending generalizing results s with
  | nil =>
    refine ⟨(List.append_nil _).symm, fun requestId => ?_⟩
    simp
  | cons p pending ih =>
    obtain ⟨pv, id⟩ := p
    by_cases hid : id ∈ initDone
    · obtain ⟨hresults, hmonitors⟩ := ih (results ++ [(pv, true)]) s
      have hstep : finish initDone (results, s) (pv, id) = (results ++ [(pv, true)], s) :=
        if_pos hid
      dsimp only
      rw [List.foldl_cons, hstep]
      refine ⟨?_, fun requestId => ?_⟩
      · rw [hresults, List.append_assoc]
        simp [hid]
      · rw [hmonitors requestId]
        refine if_congr ?_ rfl rfl
        rw [List.map_cons, List.mem_cons, or_and_right]
        refine (or_iff_right ?_).symm
        rintro ⟨rfl, hnot⟩
        exact hnot hid
    · obtain ⟨hresults, hmonitors⟩ :=
        ih (results ++ [(pv, false)]) { s with monitors := s.monitors.erase id }
      have hstep : finish initDone (results, s) (pv, id) =
          (results ++ [(pv, false)], { s with monitors := s.monitors.erase id }) := if_neg hid
      dsimp only
      rw [List.foldl_cons, hstep]
      refine ⟨?_, fun requestId => ?_⟩
      · rw [hresults, List.append_assoc]
        simp [hid]
      · rw [hmonitors requestId]
        by_cases heq : requestId = id
        · subst heq
          simp [hid]
        · rw [AList.lookup_erase_ne heq]
          refine if_congr ?_ rfl rfl
          rw [List.map_cons, List.mem_cons, or_iff_right heq]

/-! ## A call -/

/-- The ids of a call, all the frames the server sends, and those the call receives in phase 1
    and after it. -/
structure BulkCall where
  idToPv : List (ℤ × String)
  sent : List Frame
  created : List Frame
  pending : List (String × ℤ)
  inited : List Frame

/-- What phases 2 and 2b receive. -/
def initFrames (pending : List (String × ℤ)) (s : SessionTables) (wire : List (Option Frame)) :
    List Frame :=
  let first := received Frame.isInit pending.length wire
  let missing := missingInit pending (first.foldl handleInit ⟨s, []⟩).initDone
  first ++ received Frame.isInit missing.length (unread Frame.isInit pending.length wire)

/-- What a call comes to on the wire. -/
def bulkCall (ids : ℕ → ℤ) (s : SessionTables) (pvs : List String) (flushed : Bool)
    (order : HashOrder (String × ℤ)) (wire : List (Option Frame)) : BulkCall :=
  let (idToPv, s) := addChannels ids s pvs
  let sent := wire.reduceOption
  if flushed then
    let created := received Frame.isCreated idToPv.length wire
    let c := created.foldl (handleCreated idToPv) ⟨s, ∅, []⟩
    let (pending, s) := addPending ids c.tables (order.yields (c.channelMap.entries.map Sigma.snd))
    { idToPv, sent, created, pending
      inited := initFrames pending s (unread Frame.isCreated idToPv.length wire) }
  else { idToPv, sent, created := [], pending := [], inited := [] }

/-- The server answers the INIT with success and a descriptor, read by the call or not. -/
def BulkCall.Granted (call : BulkCall) (requestId : ℤ) : Prop :=
  ∃ status desc, Frame.monitor (some (.init requestId (some status) (some desc))) ∈ call.sent ∧
    status.isSuccess = true

/-- The server answers both requests for the PV with success, the second with a descriptor. -/
def BulkCall.Answered (call : BulkCall) (pv : String) : Prop :=
  (∃ clientId, (clientId, pv) ∈ call.idToPv ∧ ∃ resp ∈ responses call.sent,
    resp.clientChannelId = clientId ∧ resp.status.isSuccess = true) ∧
  ∃ requestId, (pv, requestId) ∈ call.pending ∧ call.Granted requestId

/-- The first wait reads one answer for every channel and no other; an INIT whose answer is read
    is granted; and for an INIT that is granted an answer is read before the waits end, which
    answers to other requests cut short. -/
structure BulkCall.Prompt (call : BulkCall) : Prop where
  once : ((responses call.created).map CreateChannelResponse.clientChannelId).Perm
    (call.idToPv.map Prod.fst)
  honest : ∀ p ∈ call.pending, Answers call.inited p.2 → call.Granted p.2
  inTime : ∀ p ∈ call.pending, call.Granted p.2 → Answers call.inited p.2

/-- The results have one entry for every PV, which is `Ok` exactly if the server answers both
    requests for it with success; a PV that is reported as failed or not reported has no monitor that
    was not there before. -/
structure Truthful (pvs : List String) (before : SessionTables) (call : BulkCall)
    (results : List (String × Bool)) (after : SessionTables) : Prop where
  once : (results.map Prod.fst).Perm pvs
  ok_iff : ∀ pv ∈ pvs, (pv, true) ∈ results ↔ call.Answered pv
  clean : ∀ pv ∈ pvs, (pv, false) ∈ results ∨ pv ∉ results.map Prod.fst →
    ∀ requestId mon, after.monitors.lookup requestId = some mon → mon.pvName = pv →
      ∃ mon', before.monitors.lookup requestId = some mon' ∧ mon'.pvName = pv

/-! ## What a call reports -/

theorem lookup_eq_some_iff {idToPv : List (ℤ × String)} (h : (idToPv.map Prod.fst).Nodup)
    (clientId : ℤ) (pv : String) : idToPv.lookup clientId = some pv ↔ (clientId, pv) ∈ idToPv := by
  induction idToPv with
  | nil => simp
  | cons e idToPv ih =>
    obtain ⟨id, name⟩ := e
    obtain ⟨hnot, hrest⟩ := List.nodup_cons.1 h
    by_cases hid : clientId = id
    · subst hid
      rw [List.lookup_cons_self]
      constructor
      · intro heq
        rw [Option.some.inj heq]
        exact List.mem_cons_self
      · intro hmem
        obtain heq | hmem := List.mem_cons.1 hmem
        · rw [(Prod.mk.inj heq).2]
        · exact absurd (List.mem_map.2 ⟨_, hmem, rfl⟩) hnot
    · have hcons : ((id, name) :: idToPv).lookup clientId = idToPv.lookup clientId := by
        rw [List.lookup_cons, beq_false_of_ne hid]
      rw [hcons, ih hrest, List.mem_cons]
      refine (or_iff_right fun heq => ?_).symm
      exact hid (Prod.mk.inj heq).1

/-- What a call whose requests are sent does, in terms of what it receives. -/
structure Reports (s : SessionTables) (pvs : List String) (call : BulkCall)
    (results : List (String × Bool)) (after : SessionTables) (failures created initDone : List ℤ) :
    Prop where
  names : call.idToPv.map Prod.snd = pvs
  ids_nodup : (call.idToPv.map Prod.fst).Nodup
  length_le : (responses call.created).length ≤ pvs.length
  sent : ∀ resp ∈ responses call.created, resp ∈ responses call.sent
  failures_nodup : failures.Nodup
  mem_failures : ∀ clientId, clientId ∈ failures ↔ ∃ resp ∈ responses call.created,
    resp.clientChannelId = clientId ∧ resp.status.isOk = false
  created_nodup : created.Nodup
  mem_created : ∀ clientId, clientId ∈ created ↔ (call.idToPv.lookup clientId).isSome ∧
    ∃ resp ∈ responses call.created, resp.clientChannelId = clientId ∧ resp.status.isOk = true
  pending : (call.pending.map Prod.fst).Perm
    (created.filterMap fun clientId => call.idToPv.lookup clientId)
  mem_initDone : ∀ requestId, requestId ∈ initDone ↔ Answers call.inited requestId
  results : results = (failures.filterMap fun clientId => call.idToPv.lookup clientId).map
      (fun pv => (pv, false)) ++ call.pending.map fun p => (p.1, decide (p.2 ∈ initDone))
  monitors : ∀ requestId, (after.monitors.lookup requestId).map MonitorSubscription.pvName =
    if requestId ∈ call.pending.map Prod.snd ∧ requestId ∉ initDone then none
    else ((call.pending.find? fun p => p.2 = requestId).map Prod.fst).or
      ((s.monitors.lookup requestId).map MonitorSubscription.pvName)

theorem createPhase_eq (idToPv : List (ℤ × String)) (s : SessionTables) (wire : List (Option Frame)) :
    createPhase idToPv s wire =
      ((received Frame.isCreated idToPv.length wire).foldl (handleCreated idToPv) ⟨s, ∅, []⟩,
        unread Frame.isCreated idToPv.length wire) :=
  awaitAnswers_eq _ _ _ _ _

theorem initPhase_fst (pending : List (String × ℤ)) (s : SessionTables)
    (wire : List (Option Frame)) :
    (initPhase pending s wire).1 = (initFrames pending s wire).foldl handleInit ⟨s, []⟩ := by
  unfold initPhase initFrames
  simp only [awaitAnswers_eq, List.foldl_append]

/-- The values of `channel_map` name the PVs of its keys. -/
theorem map_fst_channelMap {idToPv : List (ℤ × String)} {s : SessionTables} {frames : List Frame}
    {c : Creating} (h : CreatedBy idToPv s frames c) :
    (c.channelMap.entries.map Sigma.snd).map Prod.fst =
      c.channelMap.keys.filterMap fun clientId => idToPv.lookup clientId := by
  have hnamed : ∀ e ∈ c.channelMap.entries, idToPv.lookup e.1 = some e.2.1 := by
    intro e he
    exact h.named e.1 e.2 (AList.mem_lookup_iff.2 he)
  rw [AList.keys, List.keys, List.filterMap_map, List.map_map]
  exact (List.filterMap_eq_map_iff_forall_eq_some.2 hnamed).symm

theorem bulk_reports (ids : IdSource) (s : SessionTables) (pvs : List String)
    (order : HashOrder (String × ℤ)) (wire : List (Option Frame)) :
    ∃ failures created initDone, Reports s pvs (bulkCall ids.id s pvs true order wire)
      (addMonitorsBulk ids.id s pvs true order wire).1
      (addMonitorsBulk ids.id s pvs true order wire).2.1 failures created initDone := by
  have hchannels := addChannels_spec ids s pvs
  generalize hadd : addChannels ids.id s pvs = added at hchannels
  obtain ⟨idToPv, s₁⟩ := added
  obtain ⟨hnames, -, hnodup, hmonitors₁⟩ := hchannels
  generalize hframes : received Frame.isCreated idToPv.length wire = frames
  have hcreated := createdBy_foldl idToPv s₁ frames
  generalize hc : frames.foldl (handleCreated idToPv) ⟨s₁, ∅, []⟩ = c at hcreated
  have hpending := addPending_spec ids c.tables (order.yields (c.channelMap.entries.map Sigma.snd))
  generalize hpend : addPending ids.id c.tables
    (order.yields (c.channelMap.entries.map Sigma.snd)) = added at hpending
  obtain ⟨pending, s₂⟩ := added
  obtain ⟨hpnames, -, hpnodup, hpmonitors⟩ := hpending
  generalize hrest : unread Frame.isCreated idToPv.length wire = rest
  have hinit := initialisedBy_foldl s₂ (initFrames pending s₂ rest)
  generalize hi : (initFrames pending s₂ rest).foldl handleInit ⟨s₂, []⟩ = i at hinit
  have hcall : bulkCall ids.id s pvs true order wire =
      ⟨idToPv, wire.reduceOption, frames, pending, initFrames pending s₂ rest⟩ := by
    unfold bulkCall
    rw [hadd]
    dsimp only
    rw [if_pos rfl, hframes, hc, hpend, hrest]
  have hlength : (responses frames).length ≤ pvs.length := by
    rw [length_responses, ← hframes, ← hnames, List.length_map]
    exact countP_received_le _ _ _
  have hsent : ∀ resp ∈ responses frames, resp ∈ responses wire.reduceOption := by
    intro resp hresp
    obtain ⟨f, hf, hf'⟩ := List.mem_filterMap.1 hresp
    rw [← hframes] at hf
    exact List.mem_filterMap.2 ⟨f, List.reduceOption_mem_iff.2 (mem_of_mem_received hf), hf'⟩
  have hfinish := foldl_finish i.initDone
    ((c.failures.filterMap fun clientId => idToPv.lookup clientId).map fun pv => (pv, false))
    i.tables pending
  dsimp only at hfinish hpnames hpmonitors
  refine ⟨c.failures, c.channelMap.keys, i.initDone, ?_⟩
  rw [hcall]
  have hperm : (pending.map Prod.fst).Perm
      (c.channelMap.keys.filterMap fun clientId => idToPv.lookup clientId) := by
    rw [hpnames, ← map_fst_channelMap hcreated]
    exact (order.perm _).map Prod.fst
  by_cases hpvs : pvs = []
  · -- nothing is asked for, so nothing is received
    have hout : addMonitorsBulk ids.id s pvs true order wire = ([], s, wire) := if_pos hpvs
    subst hpvs
    have hidnil : idToPv = [] := List.map_eq_nil_iff.1 hnames
    have hframesnil : frames = [] := by
      rw [← hframes, hidnil]
      exact received_zero _ _
    have hcnil : c = ⟨s₁, ∅, []⟩ := by
      rw [← hc, hframesnil]
      rfl
    have hpnil : pending = [] := by
      rw [hcnil] at hperm
      exact List.map_eq_nil_iff.1 (List.perm_nil.1 hperm)
    have hfailures : c.failures = [] := by rw [hcnil]
    refine ⟨hnames, hnodup, hlength, hsent, hcreated.failures_nodup, hcreated.mem_failures,
      c.channelMap.keys_nodup, hcreated.mem_channelMap, hperm, hinit.mem_initDone, ?_, ?_⟩
    · rw [hout, hpnil, hfailures]
      rfl
    · intro requestId
      rw [hout, hpnil]
      simp
  · have hout : addMonitorsBulk ids.id s pvs true order wire =
        ((pending.foldl (finish i.initDone)
            ((c.failures.filterMap fun clientId => idToPv.lookup clientId).map fun pv => (pv, false),
              i.tables)).1,
          (pending.foldl (finish i.initDone)
            ((c.failures.filterMap fun clientId => idToPv.lookup clientId).map fun pv => (pv, false),
              i.tables)).2,
          (initPhase pending s₂ rest).2) := by
      unfold addMonitorsBulk
      rw [if_neg hpvs, hadd]
      dsimp only
      rw [if_pos rfl, createPhase_eq, hframes, hrest, hc]
      dsimp only
      rw [hpend]
      dsimp only
      rw [initPhase_fst, hi]
    rw [hout]
    refine ⟨hnames, hnodup, hlength, hsent, hcreated.failures_nodup, hcreated.mem_failures,
      c.channelMap.keys_nodup, hcreated.mem_channelMap, hperm, hinit.mem_initDone, hfinish.1, ?_⟩
    intro requestId
    dsimp only
    rw [hfinish.2 requestId]
    split_ifs with hgone
    · rfl
    · rw [hinit.monitors requestId, hpmonitors requestId, hcreated.monitors, hmonitors₁]

/-! ## Main theorem -/

namespace Reports

variable {s after : SessionTables} {pvs : List String} {call : BulkCall}
  {results : List (String × Bool)} {failures created initDone : List ℤ}

/-- Every result is about a channel that is refused or created. -/
theorem map_fst (h : Reports s pvs call results after failures created initDone) :
    (results.map Prod.fst).Perm
      ((failures ++ created).filterMap fun clientId => call.idToPv.lookup clientId) := by
  rw [h.results, List.map_append, List.map_map, List.map_map, List.filterMap_append]
  show ((List.map id _) ++ call.pending.map Prod.fst).Perm _
  rw [List.map_id]
  exact h.pending.append_left _

theorem mem_true (h : Reports s pvs call results after failures created initDone) (pv : String) :
    (pv, true) ∈ results ↔ ∃ requestId, (pv, requestId) ∈ call.pending ∧
      Answers call.inited requestId := by
  rw [h.results, List.mem_append, List.mem_map, List.mem_map]
  constructor
  · rintro (⟨name, -, heq⟩ | ⟨p, hp, heq⟩)
    · cases heq
    · obtain ⟨rfl, hdone⟩ := Prod.mk.inj heq
      exact ⟨p.2, hp, (h.mem_initDone p.2).1 (of_decide_eq_true hdone)⟩
  · rintro ⟨requestId, hp, hanswers⟩
    refine .inr ⟨(pv, requestId), hp, ?_⟩
    rw [decide_eq_true ((h.mem_initDone requestId).2 hanswers)]

theorem mem_pvs (h : Reports s pvs call results after failures created initDone) {pv : String} :
    pv ∈ pvs ↔ ∃ clientId, (clientId, pv) ∈ call.idToPv := by
  rw [← h.names, List.mem_map]
  constructor
  · rintro ⟨e, he, rfl⟩
    exact ⟨e.1, he⟩
  · rintro ⟨clientId, he⟩
    exact ⟨(clientId, pv), he, rfl⟩

/-- A PV has one channel. -/
theorem clientId_unique (h : Reports s pvs call results after failures created initDone)
    (hpvs : pvs.Nodup) {a b : ℤ} {pv : String} (ha : (a, pv) ∈ call.idToPv)
    (hb : (b, pv) ∈ call.idToPv) : a = b := by
  rw [← h.names] at hpvs
  exact (Prod.mk.inj (List.inj_on_of_nodup_map hpvs ha hb rfl)).1

theorem exists_created (h : Reports s pvs call results after failures created initDone)
    {p : String × ℤ} (hp : p ∈ call.pending) :
    ∃ clientId ∈ created, (clientId, p.1) ∈ call.idToPv := by
  have hmem := h.pending.mem_iff.1 (List.mem_map.2 ⟨p, hp, rfl⟩)
  obtain ⟨clientId, hcreated, hlookup⟩ := List.mem_filterMap.1 hmem
  exact ⟨clientId, hcreated, (lookup_eq_some_iff h.ids_nodup clientId p.1).1 hlookup⟩

/-- If the PVs are reported once each, the wait of phase 1 has seen one response for each. -/
theorem once_of_perm (h : Reports s pvs call results after failures created initDone)
    (hpvs : pvs.Nodup) (hperm : (results.map Prod.fst).Perm pvs) :
    ((responses call.created).map CreateChannelResponse.clientChannelId).Perm
      (call.idToPv.map Prod.fst) := by
  have hsub : call.idToPv.map Prod.fst ⊆
      (responses call.created).map CreateChannelResponse.clientChannelId := by
    intro clientId hmem
    obtain ⟨⟨id, pv⟩, he, rfl⟩ := List.mem_map.1 hmem
    have hpv : pv ∈ results.map Prod.fst := hperm.mem_iff.2 (h.mem_pvs.2 ⟨id, he⟩)
    obtain ⟨other, hother, hlookup⟩ := List.mem_filterMap.1 (h.map_fst.mem_iff.1 hpv)
    have heq := h.clientId_unique hpvs he ((lookup_eq_some_iff h.ids_nodup other pv).1 hlookup)
    subst heq
    obtain hfailed | hcreated := List.mem_append.1 hother
    · obtain ⟨resp, hresp, hid, -⟩ := (h.mem_failures id).1 hfailed
      exact List.mem_map.2 ⟨resp, hresp, hid⟩
    · obtain ⟨-, resp, hresp, hid, -⟩ := (h.mem_created id).1 hcreated
      exact List.mem_map.2 ⟨resp, hresp, hid⟩
  refine ((List.subperm_of_subset h.ids_nodup hsub).perm_of_length_le ?_).symm
  rw [List.length_map, List.length_map, ← List.length_map (f := Prod.snd), h.names]
  exact h.length_le

/-- If no channel is answered twice, none is both refused and created. -/
theorem disjoint_of_nodup (h : Reports s pvs call results after failures created initDone)
    (hnodup : ((responses call.created).map CreateChannelResponse.clientChannelId).Nodup) :
    List.Disjoint failures created := by
  intro clientId hfailed hcreated
  obtain ⟨resp, hresp, hid, hbad⟩ := (h.mem_failures clientId).1 hfailed
  obtain ⟨-, resp', hresp', hid', hok⟩ := (h.mem_created clientId).1 hcreated
  have heq := List.inj_on_of_nodup_map hnodup hresp hresp' (hid.trans hid'.symm)
  rw [heq, hok] at hbad
  cases hbad

/-- If no channel is answered twice, no PV is reported twice. -/
theorem nodup_map_fst (h : Reports s pvs call results after failures created initDone)
    (hpvs : pvs.Nodup)
    (hnodup : ((responses call.created).map CreateChannelResponse.clientChannelId).Nodup) :
    (results.map Prod.fst).Nodup := by
  rw [h.map_fst.nodup_iff]
  refine (h.failures_nodup.append h.created_nodup (h.disjoint_of_nodup hnodup)).filterMap ?_
  intro a b pv ha hb
  exact h.clientId_unique hpvs ((lookup_eq_some_iff h.ids_nodup a pv).1 ha)
    ((lookup_eq_some_iff h.ids_nodup b pv).1 hb)

theorem mem_pvs_of_result (h : Reports s pvs call results after failures created initDone)
    {r : String × Bool} (hr : r ∈ results) : r.1 ∈ pvs := by
  obtain ⟨clientId, -, hlookup⟩ :=
    List.mem_filterMap.1 (h.map_fst.mem_iff.1 (List.mem_map.2 ⟨r, hr, rfl⟩))
  exact h.mem_pvs.2 ⟨clientId, (lookup_eq_some_iff h.ids_nodup clientId r.1).1 hlookup⟩

/-- If the wait of phase 1 sees one response for each channel, the PVs are reported once each. -/
theorem perm_of_once (h : Reports s pvs call results after failures created initDone)
    (honce : ((responses call.created).map CreateChannelResponse.clientChannelId).Perm
      (call.idToPv.map Prod.fst)) : (results.map Prod.fst).Perm pvs := by
  have hdisjoint := h.disjoint_of_nodup (honce.nodup_iff.2 h.ids_nodup)
  have hown : ∀ clientId, clientId ∈ call.idToPv.map Prod.fst ↔
      ∃ resp ∈ responses call.created, resp.clientChannelId = clientId := by
    intro clientId
    rw [← honce.mem_iff, List.mem_map]
  have hsome : ∀ clientId, clientId ∈ call.idToPv.map Prod.fst →
      (call.idToPv.lookup clientId).isSome := by
    intro clientId hmem
    obtain ⟨e, he, rfl⟩ := List.mem_map.1 hmem
    rw [(lookup_eq_some_iff h.ids_nodup e.1 e.2).2 he]
    rfl
  have hperm : (failures ++ created).Perm (call.idToPv.map Prod.fst) := by
    rw [List.perm_ext_iff_of_nodup (h.failures_nodup.append h.created_nodup hdisjoint) h.ids_nodup]
    intro clientId
    rw [List.mem_append, h.mem_failures, h.mem_created, hown]
    constructor
    · rintro (⟨resp, hresp, hid, -⟩ | ⟨-, resp, hresp, hid, -⟩)
      · exact ⟨resp, hresp, hid⟩
      · exact ⟨resp, hresp, hid⟩
    · rintro ⟨resp, hresp, hid⟩
      cases hok : resp.status.isOk with
      | false => exact .inl ⟨resp, hresp, hid, hok⟩
      | true => exact .inr ⟨hsome clientId ((hown clientId).2 ⟨resp, hresp, hid⟩), resp, hresp, hid, hok⟩
  refine h.map_fst.trans ((hperm.filterMap _).trans ?_)
  have hall : (call.idToPv.map Prod.fst).filterMap (fun clientId => call.idToPv.lookup clientId) =
      call.idToPv.map Prod.snd := by
    rw [List.filterMap_map]
    refine List.filterMap_eq_map_iff_forall_eq_some.2 fun e he => ?_
    exact (lookup_eq_some_iff h.ids_nodup e.1 e.2).2 he
  rw [hall, h.names]

/-- A PV of `all_pending` has its channel created. -/
theorem accepted (h : Reports s pvs call results after failures created initDone)
    {p : String × ℤ} (hp : p ∈ call.pending) :
    ∃ clientId, (clientId, p.1) ∈ call.idToPv ∧ ∃ resp ∈ responses call.sent,
      resp.clientChannelId = clientId ∧ resp.status.isSuccess = true := by
  obtain ⟨clientId, hcreated, he⟩ := h.exists_created hp
  obtain ⟨-, resp, hresp, hid, hok⟩ := (h.mem_created clientId).1 hcreated
  exact ⟨clientId, he, resp, h.sent resp hresp, hid, PvaStatus.isSuccess_of_isOk hok⟩

theorem prompt_of_truthful (h : Reports s pvs call results after failures created initDone)
    (hpvs : pvs.Nodup) (ht : Truthful pvs s call results after) : call.Prompt := by
  -- a PV has one request only
  have hnodup : (call.pending.map Prod.fst).Nodup := by
    have hall := ht.once.nodup_iff.2 hpvs
    rw [h.results, List.map_append] at hall
    have hright := (List.nodup_append.1 hall).2.1
    rwa [List.map_map] at hright
  have hsame {p : String × ℤ} (hp : p ∈ call.pending) {requestId : ℤ}
      (hp' : (p.1, requestId) ∈ call.pending) : requestId = p.2 :=
    congrArg Prod.snd (List.inj_on_of_nodup_map hnodup hp' hp rfl)
  have hok {p : String × ℤ} (hp : p ∈ call.pending) :
      (p.1, true) ∈ results ↔ call.Answered p.1 := by
    obtain ⟨clientId, -, he⟩ := h.exists_created hp
    exact ht.ok_iff p.1 (h.mem_pvs.2 ⟨clientId, he⟩)
  refine ⟨h.once_of_perm hpvs ht.once, fun p hp hanswers => ?_, fun p hp hgranted => ?_⟩
  · obtain ⟨-, requestId, hp', hgranted⟩ := (hok hp).1 ((h.mem_true p.1).2 ⟨p.2, hp, hanswers⟩)
    rwa [hsame hp hp'] at hgranted
  · have hreported := (hok hp).2 ⟨h.accepted hp, p.2, hp, hgranted⟩
    obtain ⟨requestId, hp', hanswers⟩ := (h.mem_true p.1).1 hreported
    rwa [hsame hp hp'] at hanswers

theorem truthful_of_prompt (h : Reports s pvs call results after failures created initDone)
    (hpvs : pvs.Nodup) (hp : call.Prompt) : Truthful pvs s call results after := by
  have hperm := h.perm_of_once hp.once
  refine ⟨hperm, fun pv hpv => ?_, fun pv hpv hfailed requestId mon hmon hname => ?_⟩
  · rw [h.mem_true]
    constructor
    · rintro ⟨requestId, hmem, hanswers⟩
      exact ⟨h.accepted hmem, requestId, hmem, hp.honest (pv, requestId) hmem hanswers⟩
    · rintro ⟨-, requestId, hmem, hgranted⟩
      exact ⟨requestId, hmem, hp.inTime (pv, requestId) hmem hgranted⟩
  · have hafter := h.monitors requestId
    rw [hmon, Option.map_some, hname] at hafter
    split_ifs at hafter with hgone
    cases hfind : call.pending.find? fun p => p.2 = requestId with
    | none =>
      rw [hfind] at hafter
      exact Option.map_eq_some_iff.1 hafter.symm
    | some p =>
      -- the monitor is one of the call, so the PV is reported as subscribed
      rw [hfind] at hafter
      have hp' : p ∈ call.pending := List.mem_of_find?_eq_some hfind
      have hid : p.2 = requestId := by simpa using List.find?_some hfind
      have hpv' : pv = p.1 := Option.some.inj hafter
      have hdone : requestId ∈ initDone := by
        by_contra hnot
        exact hgone ⟨List.mem_map.2 ⟨p, hp', hid⟩, hnot⟩
      have htrue : (pv, true) ∈ results := by
        rw [h.mem_true, hpv']
        exact ⟨p.2, hp', (h.mem_initDone p.2).1 (hid ▸ hdone)⟩
      obtain hfalse | hnot := hfailed
      · have heq := List.inj_on_of_nodup_map (hperm.nodup_iff.2 hpvs) htrue hfalse rfl
        exact absurd (Prod.mk.inj heq).2 Bool.noConfusion
      · exact absurd (List.mem_map.2 ⟨_, htrue, rfl⟩) hnot

end Reports

/-- Where nothing is sent every PV is reported as failed. -/
theorem truthful_of_unsent (ids : IdSource) (s : SessionTables) (pvs : List String)
    (order : HashOrder (String × ℤ)) (wire : List (Option Frame)) :
    Truthful pvs s (bulkCall ids.id s pvs false order wire)
      (addMonitorsBulk ids.id s pvs false order wire).1
      (addMonitorsBulk ids.id s pvs false order wire).2.1 := by
  have hchannels := addChannels_spec ids s pvs
  generalize hadd : addChannels ids.id s pvs = added at hchannels
  obtain ⟨idToPv, s₁⟩ := added
  obtain ⟨hnames, -, -, hmonitors⟩ := hchannels
  have hcall : bulkCall ids.id s pvs false order wire = ⟨idToPv, wire.reduceOption, [], [], []⟩ := by
    unfold bulkCall
    rw [hadd]
    rfl
  obtain ⟨hresults, hafter⟩ : (addMonitorsBulk ids.id s pvs false order wire).1 =
      pvs.map (fun pv => (pv, false)) ∧
      (addMonitorsBulk ids.id s pvs false order wire).2.1.monitors = s.monitors := by
    unfold addMonitorsBulk
    by_cases hnil : pvs = []
    · rw [if_pos hnil, hnil]
      exact ⟨rfl, rfl⟩
    · rw [if_neg hnil, hadd]
      dsimp only
      rw [if_neg Bool.false_ne_true, ← hnames, List.map_map]
      exact ⟨rfl, hmonitors⟩
  rw [hcall, hresults]
  refine ⟨?_, fun pv _ => iff_of_false ?_ ?_, fun pv _ _ requestId mon hmon hname => ?_⟩
  · rw [List.map_map]
    exact List.Perm.of_eq (List.map_id pvs)
  · simp
  · rintro ⟨-, requestId, hmem, -⟩
    cases hmem
  · rw [hafter] at hmon
    exact ⟨mon, hmon, hname⟩

/-- **Main theorem.** A bulk subscription is truthful exactly if its requests are not sent, or
    every channel is answered once in the first wait, no INIT is answered only by failures, and
    no wait ends before an INIT that succeeds is read. -/
theorem bulk_truthful_iff (ids : IdSource) (s : SessionTables) {pvs : List String}
    (hpvs : pvs.Nodup) (flushed : Bool) (order : HashOrder (String × ℤ))
    (wire : List (Option Frame)) :
    Truthful pvs s (bulkCall ids.id s pvs flushed order wire)
        (addMonitorsBulk ids.id s pvs flushed order wire).1
        (addMonitorsBulk ids.id s pvs flushed order wire).2.1 ↔
      flushed = false ∨ (bulkCall ids.id s pvs flushed order wire).Prompt := by
  cases flushed with
  | true =>
    obtain ⟨failures, created, initDone, h⟩ := bulk_reports ids s pvs order wire
    rw [or_iff_right Bool.noConfusion]
    exact ⟨h.prompt_of_truthful hpvs, h.truthful_of_prompt hpvs⟩
  | false =>
    exact iff_of_true (truthful_of_unsent ids s pvs order wire) (.inl rfl)

/-- Ids without gaps, and entries in the order of the table. -/
def plainIds : IdSource := ⟨fun k => k, Nat.cast_injective⟩

def plainOrder {α : Type*} : HashOrder α := ⟨fun l => l, List.Perm.refl⟩

/-- The channel of one PV is created, and its INIT is answered. -/
def answered : List (Option Frame) :=
  [some (.createChannel (some ⟨0, 10, ⟨.ok, ""⟩⟩)),
    some (.monitor (some (.init 1 (some ⟨.ok, ""⟩) (some (.scalar .double)))))]

theorem bulk_truthful_iff_answered :
    Truthful ["A"] .new (bulkCall plainIds.id .new ["A"] true plainOrder answered)
      (addMonitorsBulk plainIds.id .new ["A"] true plainOrder answered).1
      (addMonitorsBulk plainIds.id .new ["A"] true plainOrder answered).2.1 := by
  refine (bulk_truthful_iff plainIds .new (by simp) true plainOrder answered).2 (.inr ⟨?_, ?_, ?_⟩)
  · exact List.Perm.refl [0]
  · intro p hp _
    have hp' : p ∈ [(("A", 1) : String × ℤ)] := hp
    rw [List.mem_singleton.1 hp']
    exact ⟨⟨.ok, ""⟩, .scalar .double, List.mem_cons_of_mem _ (List.mem_singleton.2 rfl), rfl⟩
  · intro p hp _
    have hp' : p ∈ [(("A", 1) : String × ℤ)] := hp
    rw [List.mem_singleton.1 hp']
    exact ⟨⟨.ok, ""⟩, some (.scalar .double), List.mem_singleton.2 rfl⟩

/-- The channel of one PV is created, and its INIT is refused. -/
def refused : List (Option Frame) :=
  [some (.createChannel (some ⟨0, 10, ⟨.ok, ""⟩⟩)),
    some (.monitor (some (.init 1 (some ⟨.error, "no access"⟩) none)))]

/-- A PV whose INIT is refused is reported as subscribed. -/
theorem refusedInit_reported :
    ¬Truthful ["A"] .new (bulkCall plainIds.id .new ["A"] true plainOrder refused)
      (addMonitorsBulk plainIds.id .new ["A"] true plainOrder refused).1
      (addMonitorsBulk plainIds.id .new ["A"] true plainOrder refused).2.1 := by
  intro h
  have hreported : ("A", true) ∈ (addMonitorsBulk plainIds.id .new ["A"] true plainOrder refused).1 :=
    List.mem_singleton.2 rfl
  obtain ⟨-, requestId, -, status, desc, hframe, -⟩ := (h.ok_iff "A" (by simp)).1 hreported
  have hframe' : Frame.monitor (some (.init requestId (some status) (some desc))) ∈
      [Frame.createChannel (some ⟨0, 10, ⟨.ok, ""⟩⟩),
        Frame.monitor (some (.init 1 (some ⟨.error, "no access"⟩) none))] := hframe
  simp at hframe'

/-- Answers to other requests use up both waits, and the answer to the one of the PV is not
    read. -/
example :
    let init (requestId : ℤ) : Option Frame :=
      some (.monitor (some (.init requestId (some ⟨.ok, ""⟩) (some (.scalar .double)))))
    (addMonitorsBulk plainIds.id .new ["A"] true plainOrder
      [some (.createChannel (some ⟨0, 10, ⟨.ok, ""⟩⟩)), init 7, init 8, init 1]).1 =
      [("A", false)] := rfl

/-- A PV whose channel is not answered is not reported. -/
example : (addMonitorsBulk plainIds.id .new ["A"] true plainOrder []).1 = [] := rfl

end AuraEpics.Session

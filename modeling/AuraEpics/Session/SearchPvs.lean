import AuraEpics.Lib.Chunks
import AuraEpics.Lib.Pending
import AuraEpics.Runtime.Handshake

/-!
# Searching over a connection

Model of `search_pvs` and `recv_search_response` (`crates/aura-net/src/runtime/session.rs`, lines
1666-1763), on the connection of `Tcp` and from the session that `PvaSession::connect` (lines
599-622) makes. The PVs are asked for in requests of 500, under ids of `next_client_id`; as many
responses are read as there were requests, whichever these are, and a PV is found if a response
has its id. The deadline is a read that ends the call.

* `Draws`: the ids a session draws from the counter that all sessions share;
* `searchRequests`: the requests of a search;
* `responses`: the search responses among some frames.

Results:
* `searchPvs_eq`, a search as the answers of the responses that arrive to a table of its PVs;
* `search_pvs_found`, what is found are the PVs named in these responses.
-/

namespace AuraEpics.Session

open Codec Codec.PvaCodec Incremental Incremental.Machine Messages Net AuraEpics.Runtime

/-! ## Model -/

/-- `CMD_SEARCH` and `CMD_SEARCH_RESPONSE` (`commands.rs`, lines 13 and 14). -/
def cmdSearch : UInt8 := 0x03
def cmdSearchResponse : UInt8 := 0x04

/-- `SessionError` (lines 180-186). -/
inductive SessionError where
  | transport (e : TransportError)
  | handshake (e : HandshakeError)
  | channelCreateFailed (msg : String)
  | monitorFailed (msg : String)
  | protocol (msg : String)
  deriving DecidableEq, Repr

/-- The draws of a session from `NEXT_ID` (`client/connection.rs`, lines 21-26): the value of the
    counter and which draws are those of the session. -/
structure Draws where
  start : Int32
  draw : ℕ → ℕ
  strictMono : StrictMono draw

/-- `next_client_id`: the id of the `k`-th draw of the session. -/
def Draws.id (d : Draws) (k : ℕ) : Int32 := d.start + Int32.ofNat (d.draw k)

/-- `PvaSession` as far as a search uses it: the connection, its own address, and the byte order
    and the counters of its state. -/
structure SearchSession where
  tcp : PvaTcp
  localAddr : Option SocketAddr
  byteOrder : ByteOrder
  messagesSent : ℕ
  messagesReceived : ℕ

namespace SearchSession

/-- `PvaSession::connect` (lines 599-622) on a connected stream. -/
def connect (bufferSize : Int32) (registrySize : Int16) (localAddr : Option SocketAddr)
    (stream : TcpStream) : Option (Except SessionError SearchSession) :=
  match performHandshake bufferSize registrySize (.connect stream) with
  | (none, _) => none
  | (some (.error e), _) => some (.error (.handshake e))
  | (some (.ok hs), tcp) => some (.ok ⟨tcp, localAddr, hs.byteOrder, 0, 0⟩)

/-- The call of `recv_frame` that receives the frame leaves fewer of them to arrive. -/
theorem arriving_lt {t : PvaTcp} {frame : PvaFrame}
    (h : Received.ofPulled t.recvFrame.1 = some (.ok frame)) :
    t.recvFrame.2.arriving.length < t.arriving.length := by
  have hrecv : t.recvFrame = (.item frame, t.recvFrame.2) := by
    refine Prod.ext ?_ rfl
    cases hp : t.recvFrame.1 with
    | item f => rw [hp] at h; exact congrArg _ (Except.ok.inj (Option.some.inj h))
    | failed e => rw [hp] at h; cases h
    | stopped why => rw [hp] at h; cases why <;> cases h
    | pending => rw [hp] at h; cases h
  cases harriving : t.arriving with
  | nil => exact absurd hrecv (PvaTcp.recvFrame_none harriving frame _)
  | cons f frames =>
    obtain ⟨t', hrecv', hrest, -⟩ := PvaTcp.recvFrame_arriving harriving
    rw [hrecv', hrest]
    exact Nat.lt_succ_self _

/-- `recv_search_response` (lines 1666-1685); `none` if its future is dropped. -/
def recvSearchResponse (s : SearchSession) :
    Option (Except SessionError SearchResponse) × SearchSession :=
  match h : Received.ofPulled s.tcp.recvFrame.1 with
  | none => (none, { s with tcp := s.tcp.recvFrame.2 })
  | some (.error e) => (some (.error (.transport e)), { s with tcp := s.tcp.recvFrame.2 })
  | some (.ok frame) =>
    let s' := { s with tcp := s.tcp.recvFrame.2, messagesReceived := s.messagesReceived + 1 }
    if frame.header.command = cmdSearchResponse then
      match (SearchResponse.decode (.new frame.payload s.byteOrder)).1 with
      | .error e =>
        (some (.error (.protocol s!"decode search response: {displayDecodeError e}")), s')
      | .ok resp => (some (.ok resp), s')
    else recvSearchResponse s'
termination_by s.tcp.arriving.length
decreasing_by exact arriving_lt h

/-- The request of a batch whose first draw is the `drawn`-th: an id for each PV and then one for
    the request (lines 1704-1717). -/
def batchRequest (d : Draws) (drawn : ℕ) (addr : SocketAddr) (chunk : List String) :
    SearchRequest :=
  .multi (d.id (drawn + chunk.length))
    ((chunk.zipIdx drawn).map fun p => (d.id p.2, p.1)) addr

/-- `batch_size` (line 1698). -/
def batchSize : ℕ := 500

/-- The address a request is sent from (lines 1713-1715). -/
def requestAddr (localAddr : Option SocketAddr) : SocketAddr :=
  localAddr.getD (.new (.v4 ⟨⟨[0, 0, 0, 0], rfl⟩⟩) 0)

/-- The loop that sends the requests and the flush behind it (lines 1702-1729), from the batches
    and the ids drawn so far; the result is whether all was written, and `id_to_pv`. -/
def sendSearches (d : Draws) : List (List String) → (drawn batchesSent : ℕ) →
    Pending.Table Int32 String → SearchSession →
    (Bool × Pending.Table Int32 String) × SearchSession
  | [], _, _, idToPv, s =>
    ((s.tcp.flushWrites.1, idToPv), { s with tcp := s.tcp.flushWrites.2 })
  | chunk :: chunks, drawn, batchesSent, idToPv, s =>
    let req := batchRequest d drawn (requestAddr s.localAddr) chunk
    let idToPv := Pending.register idToPv req.channels
    let s' := { s with
      tcp := s.tcp.bufferMsg cmdSearch (req.encode s.byteOrder)
      messagesSent := s.messagesSent + 1 }
    let next := sendSearches d chunks (drawn + chunk.length + 1) (batchesSent + 1) idToPv
    if (batchesSent + 1) % 100 = 0 then
      if s'.tcp.flushWrites.1 then next { s' with tcp := s'.tcp.flushWrites.2 }
      else ((false, idToPv), { s' with tcp := s'.tcp.flushWrites.2 })
    else next s'

/-- The loop that reads the responses (lines 1738-1761), from the responses still expected. -/
def awaitResponses : ℕ → Pending.Table Int32 String × List String → SearchSession →
    List String × SearchSession
  | 0, p, s => (p.2, s)
  | expected + 1, p, s =>
    match s.recvSearchResponse with
    | (some (.ok resp), s') => awaitResponses expected (Pending.answerAll p resp.found) s'
    | (_, s') => (p.2, s')

/-- `search_pvs` (lines 1690-1763). -/
def searchPvs (d : Draws) (pvNames : List String) (s : SearchSession) :
    List String × SearchSession :=
  if pvNames = [] then ([], s)
  else
    match sendSearches d (Chunks.chunks batchSize pvNames) 0 0 ∅ s with
    | ((false, _), s') => ([], s')
    | ((true, idToPv), s') =>
      awaitResponses ((pvNames.length + (batchSize - 1)) / batchSize) (idToPv, []) s'

/-! ## Receiving -/

/-- The search responses among some frames, up to the first that is not decodable. -/
def responses (order : ByteOrder) : List PvaFrame → List SearchResponse
  | [] => []
  | frame :: frames =>
    if frame.header.command = cmdSearchResponse then
      match (SearchResponse.decode (.new frame.payload order)).1 with
      | .error _ => []
      | .ok resp => resp :: responses order frames
    else responses order frames

theorem responses_appFrame (order : ByteOrder) {resp : SearchResponse} (hfits : resp.Fits)
    (frames : List PvaFrame) :
    responses order (appFrame cmdSearchResponse (resp.encode order) :: frames) =
      resp :: responses order frames := by
  have hdecode : (SearchResponse.decode (.new (resp.encode order) order)).1 = .ok resp := by
    have hyields := hfits.yields order [] []
    rw [List.append_nil] at hyields
    exact congrArg Prod.fst hyields
  rw [responses, if_pos (by rfl)]
  show (match (SearchResponse.decode (.new (resp.encode order) order)).1 with
    | .error _ => []
    | .ok resp => resp :: responses order frames) = _
  rw [hdecode]

/-- What is still to be received by a session. -/
def arriving (s : SearchSession) : List SearchResponse := responses s.byteOrder s.tcp.arriving

theorem recvSearchResponse_nil {s : SearchSession} (h : s.tcp.arriving = [])
    (resp : SearchResponse) (s' : SearchSession) :
    s.recvSearchResponse ≠ (some (.ok resp), s') := by
  intro hrecv
  unfold recvSearchResponse at hrecv
  split at hrecv
  · cases hrecv
  · cases hrecv
  · rename_i frame hframe
    have hlt := arriving_lt hframe
    rw [h] at hlt
    exact absurd hlt (Nat.not_lt_zero _)

theorem recvSearchResponse_cons {s : SearchSession} {frame : PvaFrame} {frames : List PvaFrame}
    (h : s.tcp.arriving = frame :: frames) :
    ∃ t, t.arriving = frames ∧
      let s' := { s with tcp := t, messagesReceived := s.messagesReceived + 1 }
      s.recvSearchResponse =
        if frame.header.command = cmdSearchResponse then
          match (SearchResponse.decode (.new frame.payload s.byteOrder)).1 with
          | .error e =>
            (some (.error (.protocol s!"decode search response: {displayDecodeError e}")), s')
          | .ok resp => (some (.ok resp), s')
        else recvSearchResponse s' := by
  obtain ⟨t, hrecv, hrest, -⟩ := PvaTcp.recvFrame_arriving h
  have hok : Received.ofPulled s.tcp.recvFrame.1 = some (.ok frame) := by
    rw [hrecv]
    rfl
  refine ⟨t, hrest, ?_⟩
  dsimp only
  conv_lhs => unfold recvSearchResponse
  split
  · rename_i hnone
    rw [hok] at hnone
    cases hnone
  · rename_i e herror
    rw [hok] at herror
    cases herror
  · rename_i frame' hframe
    rw [hok] at hframe
    obtain rfl : frame = frame' := Except.ok.inj (Option.some.inj hframe)
    rw [hrecv]

/-- A call of `recv_search_response` returns the next of the responses that arrive, if there is
    one, and leaves the others. -/
theorem recvSearchResponse_spec (s : SearchSession) :
    (s.arriving = [] ∧ ∀ resp s', s.recvSearchResponse ≠ (some (.ok resp), s')) ∨
    ∃ resp s', s.recvSearchResponse = (some (.ok resp), s') ∧ s.arriving = resp :: s'.arriving := by
  induction hn : s.tcp.arriving generalizing s with
  | nil =>
    have hnone : s.arriving = [] := by
      rw [arriving, hn]
      rfl
    exact .inl ⟨hnone, recvSearchResponse_nil hn⟩
  | cons frame frames ih =>
    obtain ⟨t, hrest, hrecv⟩ := recvSearchResponse_cons hn
    have harriving : s.arriving = responses s.byteOrder (frame :: frames) := by
      rw [arriving, hn]
    rw [harriving, hrecv, responses]
    by_cases hcommand : frame.header.command = cmdSearchResponse
    · rw [if_pos hcommand, if_pos hcommand]
      cases hdecode : (SearchResponse.decode (.new frame.payload s.byteOrder)).1 with
      | error e => exact .inl ⟨rfl, fun resp s' h => by cases h⟩
      | ok resp =>
        refine .inr ⟨resp, _, rfl, ?_⟩
        rw [arriving, hrest]
    · rw [if_neg hcommand, if_neg hcommand]
      have hnext : responses s.byteOrder frames =
          arriving { s with tcp := t, messagesReceived := s.messagesReceived + 1 } := by
        rw [arriving, hrest]
      rw [hnext]
      exact ih _ hrest

/-- The loop takes what the responses that arrive name. -/
theorem awaitResponses_eq (expected : ℕ) (p : Pending.Table Int32 String × List String)
    (s : SearchSession) :
    (awaitResponses expected p s).1 =
      (Pending.answerAll p ((s.arriving.take expected).flatMap SearchResponse.found)).2 := by
  induction expected generalizing p s with
  | zero => rfl
  | succ expected ih =>
    unfold awaitResponses
    obtain ⟨hnone, hfail⟩ | ⟨resp, s', hrecv, hnext⟩ := recvSearchResponse_spec s
    · rw [hnone]
      split
      · rename_i resp s' h
        exact absurd h (hfail resp s')
      · rfl
    · rw [hrecv, hnext, List.take_succ_cons, List.flatMap_cons, Pending.answerAll_append]
      exact ih _ s'

/-! ## Sending -/

/-- The requests of a search, from the ids drawn so far. -/
def searchRequests (d : Draws) (addr : SocketAddr) : List (List String) → ℕ → List SearchRequest
  | [], _ => []
  | chunk :: chunks, drawn =>
    batchRequest d drawn addr chunk :: searchRequests d addr chunks (drawn + chunk.length + 1)

/-- The entries of `id_to_pv`. -/
def searchEntries (reqs : List SearchRequest) : List (Int32 × String) :=
  reqs.flatMap SearchRequest.channels

/-- The calls on the connection that send the requests. -/
def searchCalls (order : ByteOrder) : List SearchRequest → ℕ → List TcpOp
  | [], _ => [.flushWrites]
  | req :: reqs, batchesSent =>
    .bufferMsg cmdSearch (req.encode order) ::
      ((if (batchesSent + 1) % 100 = 0 then [TcpOp.flushWrites] else []) ++
        searchCalls order reqs (batchesSent + 1))

theorem length_searchRequests (d : Draws) (addr : SocketAddr) (chunks : List (List String))
    (drawn : ℕ) : (searchRequests d addr chunks drawn).length = chunks.length := by
  induction chunks generalizing drawn with
  | nil => rfl
  | cons chunk chunks ih => exact congrArg (· + 1) (ih _)

/-- Every PV is asked for, in order. -/
theorem searchEntries_names (d : Draws) (addr : SocketAddr) (chunks : List (List String))
    (drawn : ℕ) :
    (searchEntries (searchRequests d addr chunks drawn)).map Prod.snd = chunks.flatten := by
  induction chunks generalizing drawn with
  | nil => rfl
  | cons chunk chunks ih =>
    show ((batchRequest d drawn addr chunk).channels ++
      searchEntries (searchRequests d addr chunks _)).map Prod.snd = chunk ++ chunks.flatten
    rw [List.map_append, ih]
    refine congrArg (· ++ chunks.flatten) ?_
    show ((chunk.zipIdx drawn).map fun p => (d.id p.2, p.1)).map Prod.snd = chunk
    rw [List.map_map]
    exact List.zipIdx_map_fst drawn chunk

/-- The draws of the ids of the PVs. -/
theorem searchEntries_ids (d : Draws) (addr : SocketAddr) (chunks : List (List String))
    (drawn : ℕ) :
    ∃ draws : List ℕ, (searchEntries (searchRequests d addr chunks drawn)).map Prod.fst =
      draws.map d.id ∧ draws.Nodup ∧
        ∀ k ∈ draws, drawn ≤ k ∧ k < drawn + chunks.flatten.length + chunks.length := by
  induction chunks generalizing drawn with
  | nil => exact ⟨[], rfl, List.nodup_nil, fun k hk => absurd hk List.not_mem_nil⟩
  | cons chunk chunks ih =>
    obtain ⟨draws, hdraws, hnodup, hbound⟩ := ih (drawn + chunk.length + 1)
    refine ⟨List.range' drawn chunk.length ++ draws, ?_, ?_, ?_⟩
    · show ((batchRequest d drawn addr chunk).channels ++
        searchEntries (searchRequests d addr chunks _)).map Prod.fst = _
      rw [List.map_append, hdraws, List.map_append]
      refine congrArg (· ++ draws.map d.id) ?_
      show ((chunk.zipIdx drawn).map fun p => (d.id p.2, p.1)).map Prod.fst = _
      rw [List.map_map, ← List.zipIdx_map_snd, List.map_map]
      rfl
    · refine List.nodup_append'.2 ⟨List.nodup_range', hnodup, fun k hk hk' => ?_⟩
      have := (List.mem_range'_1.1 hk).2
      have := (hbound k hk').1
      omega
    · intro k hk
      rw [List.flatten_cons, List.length_append, List.length_cons]
      obtain hk | hk := List.mem_append.1 hk
      · have := List.mem_range'_1.1 hk
        omega
      · have := hbound k hk
        omega

/-- Draws of less than one round of the counter give different ids. -/
theorem Draws.id_injective {d : Draws} {n : ℕ} (hround : d.draw n ≤ d.draw 0 + 2 ^ 32) {i j : ℕ}
    (hi : i < n) (hj : j < n) (h : d.id i = d.id j) : i = j := by
  have hbits : (d.start + Int32.ofNat (d.draw i)).toBitVec =
      (d.start + Int32.ofNat (d.draw j)).toBitVec := congrArg Int32.toBitVec h
  have hmod : d.draw i % 2 ^ 32 = d.draw j % 2 ^ 32 := by
    have heq : BitVec.ofNat 32 (d.draw i) = BitVec.ofNat 32 (d.draw j) := by
      simpa using hbits
    simpa using congrArg BitVec.toNat heq
  have hlo := d.strictMono.monotone (Nat.zero_le i)
  have hlo' := d.strictMono.monotone (Nat.zero_le j)
  have hhi := d.strictMono hi
  have hhi' := d.strictMono hj
  exact d.strictMono.injective (by omega)

/-- The ids of the PVs of a search are different. -/
theorem searchEntries_nodup {d : Draws} {addr : SocketAddr} {chunks : List (List String)}
    (hround : d.draw (chunks.flatten.length + chunks.length) ≤ d.draw 0 + 2 ^ 32) :
    ((searchEntries (searchRequests d addr chunks 0)).map Prod.fst).Nodup := by
  obtain ⟨draws, hdraws, hnodup, hbound⟩ := searchEntries_ids d addr chunks 0
  rw [hdraws]
  refine List.Nodup.map_on (fun i hi j hj h => ?_) hnodup
  have hi' := (hbound i hi).2
  have hj' := (hbound j hj).2
  rw [Nat.zero_add] at hi' hj'
  exact Draws.id_injective hround hi' hj' h

/-- What the loop that sends requests does to a session: if all is written, the table holds their
    entries and the connection was used by their calls. -/
structure SendSpec (reqs : List SearchRequest) (batchesSent : ℕ)
    (idToPv : Pending.Table Int32 String) (s : SearchSession)
    (r : (Bool × Pending.Table Int32 String) × SearchSession) : Prop where
  byteOrder : r.2.byteOrder = s.byteOrder
  reads : PvaTcp.SameReads s.tcp r.2.tcp
  table : r.1.1 = true → r.1.2 = Pending.register idToPv (searchEntries reqs)
  calls : r.1.1 = true →
    r.2.tcp = Runs.run PvaTcp.step s.tcp (searchCalls s.byteOrder reqs batchesSent)
  counted : r.1.1 = true → r.2.messagesSent = s.messagesSent + reqs.length
  unbroken : s.tcp.stream.room = none → r.1.1 = true

theorem sendSearches_spec (d : Draws) (chunks : List (List String)) (drawn batchesSent : ℕ)
    (idToPv : Pending.Table Int32 String) (s : SearchSession) :
    SendSpec (searchRequests d (requestAddr s.localAddr) chunks drawn) batchesSent idToPv s
      (sendSearches d chunks drawn batchesSent idToPv s) := by
  induction chunks generalizing drawn batchesSent idToPv s with
  | nil =>
    exact ⟨rfl, PvaTcp.flushWrites_reads s.tcp, fun _ => rfl, fun _ => rfl, fun _ => rfl,
      PvaTcp.flushWrites_ok⟩
  | cons chunk chunks ih =>
    let req := batchRequest d drawn (requestAddr s.localAddr) chunk
    let table := Pending.register idToPv req.channels
    let s₁ : SearchSession := { s with
      tcp := s.tcp.bufferMsg cmdSearch (req.encode s.byteOrder)
      messagesSent := s.messagesSent + 1 }
    let s₂ : SearchSession := { s₁ with tcp := s₁.tcp.flushWrites.2 }
    let reqs := searchRequests d (requestAddr s.localAddr) chunks (drawn + chunk.length + 1)
    have hnext₁ : SendSpec reqs (batchesSent + 1) table s₁ _ :=
      ih (drawn + chunk.length + 1) (batchesSent + 1) table s₁
    have hnext₂ : SendSpec reqs (batchesSent + 1) table s₂ _ :=
      ih (drawn + chunk.length + 1) (batchesSent + 1) table s₂
    have hreads₁ : PvaTcp.SameReads s.tcp s₁.tcp := PvaTcp.bufferMsg_reads _ _ _
    have hreads₂ : PvaTcp.SameReads s.tcp s₂.tcp := hreads₁.trans (PvaTcp.flushWrites_reads _)
    have hroom₁ : s.tcp.stream.room = none → s₁.tcp.stream.room = none := fun h => h
    show SendSpec (req :: reqs) _ _ s _
    unfold sendSearches
    dsimp only
    by_cases hflush : (batchesSent + 1) % 100 = 0
    · rw [if_pos hflush]
      by_cases hok : s₁.tcp.flushWrites.1 = true
      · rw [if_pos hok]
        refine ⟨hnext₂.byteOrder, hreads₂.trans hnext₂.reads, fun h => ?_, fun h => ?_,
          fun h => ?_, fun h => ?_⟩
        · rw [hnext₂.table h]
          exact (Pending.register_append _ _ _).symm
        · rw [hnext₂.calls h, searchCalls, if_pos hflush]
          rfl
        · rw [hnext₂.counted h, List.length_cons]
          show s.messagesSent + 1 + _ = _
          omega
        · exact hnext₂.unbroken (PvaTcp.step_room (hroom₁ h) .flushWrites)
      · rw [if_neg hok]
        refine ⟨rfl, hreads₂, fun h => absurd h Bool.false_ne_true,
          fun h => absurd h Bool.false_ne_true, fun h => absurd h Bool.false_ne_true, fun h => ?_⟩
        exact absurd (PvaTcp.flushWrites_ok (hroom₁ h)) hok
    · rw [if_neg hflush]
      refine ⟨hnext₁.byteOrder, hreads₁.trans hnext₁.reads, fun h => ?_, fun h => ?_, fun h => ?_,
        hnext₁.unbroken⟩
      · rw [hnext₁.table h]
        exact (Pending.register_append _ _ _).symm
      · rw [hnext₁.calls h, searchCalls, if_neg hflush]
        rfl
      · rw [hnext₁.counted h, List.length_cons]
        show s.messagesSent + 1 + _ = _
        omega

/-- Sending changes nothing of what arrives. -/
theorem arriving_of_sent {s s' : SearchSession} (horder : s'.byteOrder = s.byteOrder)
    (hreads : PvaTcp.SameReads s.tcp s'.tcp) : s'.arriving = s.arriving := by
  unfold arriving PvaTcp.arriving
  rw [horder, hreads.reads, hreads.codec, hreads.readBuf]

/-! ## What is found -/

/-- The requests of a search for some PVs. -/
def requestsOf (d : Draws) (addr : SocketAddr) (pvNames : List String) : List SearchRequest :=
  searchRequests d addr (Chunks.chunks batchSize pvNames) 0

theorem requestsOf_names (d : Draws) (addr : SocketAddr) (pvNames : List String) :
    (searchEntries (requestsOf d addr pvNames)).map Prod.snd = pvNames := by
  unfold requestsOf
  rw [searchEntries_names, Chunks.flatten_chunks (by decide)]

/-- A search finds what the answers to its requests take out of its table, if all requests are
    written, and nothing otherwise. -/
theorem searchPvs_eq (d : Draws) (pvNames : List String) (s : SearchSession) :
    let reqs := requestsOf d (requestAddr s.localAddr) pvNames
    let taken := (Pending.answerAll (Pending.register ∅ (searchEntries reqs), [])
      ((s.arriving.take reqs.length).flatMap SearchResponse.found)).2
    ((searchPvs d pvNames s).1 = taken ∨ (searchPvs d pvNames s).1 = []) ∧
      (s.tcp.stream.room = none → (searchPvs d pvNames s).1 = taken) := by
  intro reqs taken
  unfold searchPvs
  by_cases hnil : pvNames = []
  · rw [if_pos hnil]
    have hreqs : reqs = [] := by
      show searchRequests _ _ (Chunks.chunks batchSize pvNames) 0 = []
      rw [hnil, Chunks.chunks_nil]
      rfl
    have htaken : taken = [] := by
      simp only [taken, hreqs]
      rfl
    exact ⟨.inr rfl, fun _ => htaken.symm⟩
  · rw [if_neg hnil]
    have hlen : (pvNames.length + (batchSize - 1)) / batchSize = reqs.length := by
      show _ = (searchRequests _ _ _ _).length
      rw [length_searchRequests, Chunks.length_chunks (by decide)]
    have hspec := sendSearches_spec d (Chunks.chunks batchSize pvNames) 0 0 ∅ s
    rcases hsend : sendSearches d (Chunks.chunks batchSize pvNames) 0 0 ∅ s with ⟨⟨ok, table⟩, s'⟩
    rw [hsend] at hspec
    cases ok with
    | false => exact ⟨.inr rfl, fun hroom => absurd (hspec.unbroken hroom) Bool.false_ne_true⟩
    | true =>
      have hfound : (awaitResponses ((pvNames.length + (batchSize - 1)) / batchSize)
          (table, []) s').1 = taken := by
        have htable : table = Pending.register ∅ (searchEntries reqs) := hspec.table rfl
        rw [awaitResponses_eq, hlen, htable, arriving_of_sent hspec.byteOrder hspec.reads]
      exact ⟨.inl hfound, fun _ => hfound⟩

/-- The ids a search draws are fewer than one round of the counter. -/
def DrawsFit (d : Draws) (pvNames : List String) : Prop :=
  d.draw (pvNames.length + (Chunks.chunks batchSize pvNames).length) ≤ d.draw 0 + 2 ^ 32

theorem requestsOf_nodup {d : Draws} {pvNames : List String} (hdraws : DrawsFit d pvNames)
    (addr : SocketAddr) : ((searchEntries (requestsOf d addr pvNames)).map Prod.fst).Nodup := by
  refine searchEntries_nodup ?_
  rw [Chunks.flatten_chunks (by decide)]
  exact hdraws

/-- **Main theorem**: a search asks for every PV in its order, in one request for 500. Whatever
    is received, it finds no PV that was not asked for, nor more often. If its connection does not
    break and the counter makes no full round, it finds exactly the PVs whose ids are in the
    responses that arrive before a read ends the call or a response is not decodable, of these
    the first as many as there were requests. -/
theorem search_pvs_found (d : Draws) (pvNames : List String) (s : SearchSession) :
    let entries := searchEntries (requestsOf d (requestAddr s.localAddr) pvNames)
    let expected := (pvNames.length + 499) / 500
    let ids := (s.arriving.take expected).flatMap SearchResponse.found
    let found := (searchPvs d pvNames s).1
    entries.map Prod.snd = pvNames ∧ found.Subperm pvNames ∧
      (s.tcp.stream.room = none → DrawsFit d pvNames →
        found.Perm ((entries.filter fun e => decide (e.1 ∈ ids)).map Prod.snd)) := by
  intro entries expected ids found
  have hnames : entries.map Prod.snd = pvNames := requestsOf_names d _ pvNames
  obtain ⟨hcases, hunbroken⟩ := searchPvs_eq d pvNames s
  have hlen : (requestsOf d (requestAddr s.localAddr) pvNames).length = expected := by
    show (searchRequests _ _ _ _).length = _
    rw [length_searchRequests, Chunks.length_chunks (by decide)]
    rfl
  rw [hlen] at hcases hunbroken
  refine ⟨hnames, ?_, fun hroom hdraws => ?_⟩
  · obtain hfound | hfound := hcases
    · show (searchPvs d pvNames s).1.Subperm pvNames
      rw [hfound]
      have hsub := Pending.done_subperm entries ids
      rw [hnames] at hsub
      exact hsub
    · show (searchPvs d pvNames s).1.Subperm pvNames
      rw [hfound]
      exact List.nil_subperm
  · show (searchPvs d pvNames s).1.Perm _
    rw [hunbroken hroom]
    exact Pending.done_perm (requestsOf_nodup hdraws (requestAddr s.localAddr)) ids

/-- A server's answer to a request with the ids it found, and the draws of the first session. -/
def exampleResponse (found : List Int32) : SearchResponse :=
  ⟨⟨List.replicate 12 0xAB, rfl⟩, 0, .v4 ⟨⟨[192, 168, 1, 10], rfl⟩⟩ 5075, "tcp", found⟩
def exampleDraws : Draws := ⟨1, id, strictMono_id⟩

theorem exampleResponse_fits {found : List Int32} (hcount : found.length < 65536) :
    (exampleResponse found).Fits :=
  ⟨trivial, show "tcp".utf8ByteSize < 2 ^ 31 by decide, hcount⟩

theorem searchEntries_two :
    searchEntries (requestsOf exampleDraws (requestAddr none) ["a", "b"]) =
      [(1, "a"), (2, "b")] := by
  unfold requestsOf
  rw [Chunks.chunks_of_ne_nil (by decide) (by decide)]
  show searchEntries (searchRequests _ _ (["a", "b"] :: Chunks.chunks batchSize []) 0) = _
  rw [Chunks.chunks_nil]
  decide +kernel

/-- A session to which the answer with the second id arrives. -/
def secondFound : SearchSession :=
  ⟨.connect ⟨[.data (PvaTcp.wire [appFrame cmdSearchResponse
    ((exampleResponse [2]).encode .littleEndian)])], [], none⟩, none, .littleEndian, 0, 0⟩

theorem arriving_secondFound : secondFound.arriving = [exampleResponse [2]] := by
  let frame := appFrame cmdSearchResponse ((exampleResponse [2]).encode .littleEndian)
  have hframe : ∀ f ∈ [frame], Decodable f := by
    intro f hf
    rw [List.mem_singleton.1 hf]
    exact appFrame_decodable (by decide +kernel)
  obtain ⟨c', -, hwhole⟩ := (decodeFrames_encode PvaCodec.new rfl).1 [frame] hframe
  have harriving : secondFound.tcp.arriving = [frame] := by
    show (decodeFrames PvaCodec.new (PvaTcp.wire [frame] ++ [])).items = _
    rw [List.append_nil]
    exact congrArg _ hwhole
  unfold arriving
  rw [harriving]
  exact responses_appFrame .littleEndian (exampleResponse_fits (by decide)) []

/-- Of two PVs the second is found. -/
theorem search_pvs_found_second : (searchPvs exampleDraws ["a", "b"] secondFound).1 = ["b"] := by
  have hchunks : (Chunks.chunks batchSize ["a", "b"]).length = 1 :=
    Chunks.length_chunks (by decide) _
  have hdraws : DrawsFit exampleDraws ["a", "b"] := by
    unfold DrawsFit
    rw [hchunks]
    decide
  obtain ⟨-, -, hfound⟩ := search_pvs_found exampleDraws ["a", "b"] secondFound
  have hfound := hfound rfl hdraws
  rw [arriving_secondFound, show requestAddr secondFound.localAddr = requestAddr none from rfl,
    searchEntries_two] at hfound
  exact List.perm_singleton.1 (hfound.trans (by decide +kernel))

end SearchSession

end AuraEpics.Session

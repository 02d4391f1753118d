import AuraEpics.Runtime.Search
import AuraEpics.Session.SearchPvs

/-!
# Searches against servers

What a search sends, and what it finds against a server that follows the protocol: from the bytes
of the connections to the search tasks of `PvaDriver::monitor_batch`
(`crates/aura-net/src/runtime/driver.rs`, lines 205-217 and 240-253), whose answers `Search`
takes as given.

* `Answers`: a response has the ids of the PVs of a request that the server hosts;
* `Serves`: a server follows the protocol on a connection and answers all requests;
* `RoundServed`: all name servers do in a search round.

Results:
* `connect_search`, a search on a new connection finds what the server hosts, and what the server
  is sent for it;
* `monitor_batch_network`, the PVs a batch reports as not found are those no server hosts.
-/

namespace AuraEpics.Session

open Codec Codec.PvaCodec Incremental Incremental.Machine Messages Net AuraEpics.Runtime

namespace SearchSession

/-! ## What is sent -/

/-- The frame of a request. -/
def searchFrame (order : ByteOrder) (req : SearchRequest) : PvaFrame :=
  appFrame cmdSearch (req.encode order)

/-- The calls that send some requests send what is in the write buffer and then the requests. -/
theorem outbox_searchCalls (order : ByteOrder) (b : Outbox) (reqs : List SearchRequest)
    (batchesSent : ℕ) :
    (Runs.run Outbox.step b (searchCalls order reqs batchesSent)).sent =
      b.sent ++ b.buffered ++ reqs.map (searchFrame order) := by
  induction reqs generalizing b batchesSent with
  | nil =>
    rw [List.map_nil, List.append_nil]
    rfl
  | cons req reqs ih =>
    let b₁ := b.step (.bufferMsg cmdSearch (req.encode order))
    have hbuffered : b₁.buffered = b.buffered ++ [searchFrame order req] :=
      (List.append_assoc _ _ _).symm
    show (Runs.run Outbox.step b₁ ((if (batchesSent + 1) % 100 = 0 then [TcpOp.flushWrites]
      else []) ++ searchCalls order reqs (batchesSent + 1))).sent = _
    rw [Runs.run_append, ih]
    have hall : (Runs.run Outbox.step b₁ (if (batchesSent + 1) % 100 = 0 then [TcpOp.flushWrites]
        else [])).sent ++ (Runs.run Outbox.step b₁ (if (batchesSent + 1) % 100 = 0
          then [TcpOp.flushWrites] else [])).buffered = b.sent ++ b₁.buffered := by
      split_ifs
      · show (b.sent ++ b₁.buffered) ++ [] = _
        rw [List.append_nil]
      · rfl
    rw [hall, hbuffered, List.map_cons]
    simp only [List.append_assoc, List.singleton_append]

theorem length_string_le (order : ByteOrder) (s : String) :
    (Write.string order s).length ≤ 5 + s.utf8ByteSize := by
  have hlen : s.toByteArray.data.toList.length = s.utf8ByteSize := rfl
  rw [Write.string, List.length_append, PvaStatus.length_size, hlen]
  split_ifs <;> omega

/-- The name of every PV is short enough for a request of 500. -/
def NamesFit (pvNames : List String) : Prop := ∀ pv ∈ pvNames, pv.utf8ByteSize ≤ 32768

theorem length_encode_le (order : ByteOrder) {m : SearchRequest} {k n : ℕ}
    (hprotocol : m.protocol = "tcp") (hcount : m.channels.length ≤ k)
    (hnames : ∀ channel ∈ m.channels, channel.2.utf8ByteSize ≤ n) :
    (m.encode order).length ≤ 37 + k * (9 + n) := by
  have htcp : (Write.string order m.protocol).length ≤ 5 + 3 := by
    rw [hprotocol]
    exact length_string_le order "tcp"
  have hchannels : (m.channels.flatMap (encodeChannel order)).length ≤ k * (9 + n) := by
    rw [List.length_flatMap]
    have hsum := List.sum_le_card_nsmul (m.channels.map fun c => (encodeChannel order c).length)
      (9 + n) fun len hlen => by
        obtain ⟨channel, hchannel, rfl⟩ := List.mem_map.1 hlen
        have hname := length_string_le order channel.2
        have hle := hnames channel hchannel
        have hid : (Write.i32 order channel.1).length = 4 := by simp [Write.i32, ByteOrder.writeI32]
        rw [encodeChannel, List.length_append, hid]
        omega
    rw [List.length_map, smul_eq_mul] at hsum
    exact hsum.trans (Nat.mul_le_mul_right _ hcount)
  have haddr : (encodeSearchAddress m.responseAddress).length = 21 := by
    simp [encodeSearchAddress]
  have hid : (Write.i32 order m.searchSequenceId).length = 4 := by
    simp [Write.i32, ByteOrder.writeI32]
  have hu16 : (Write.u16 order (UInt16.ofNat m.channels.length)).length = 2 := by
    simp [Write.u16]
  unfold SearchRequest.encode
  simp only [List.length_append, List.length_singleton, haddr, hid, hu16]
  omega

/-- What is known of every request of a search. -/
theorem mem_searchRequests {d : Draws} {addr : SocketAddr} {chunks : List (List String)}
    {drawn : ℕ} {req : SearchRequest} (h : req ∈ searchRequests d addr chunks drawn) :
    req.responseAddress = addr ∧ req.protocol = "tcp" ∧
      ∃ chunk ∈ chunks, req.channels.map Prod.snd = chunk := by
  induction chunks generalizing drawn with
  | nil => cases h
  | cons chunk chunks ih =>
    obtain rfl | h := List.mem_cons.1 h
    · refine ⟨rfl, rfl, chunk, List.mem_cons_self, ?_⟩
      show ((chunk.zipIdx drawn).map fun p => (d.id p.2, p.1)).map Prod.snd = chunk
      rw [List.map_map]
      exact List.zipIdx_map_fst drawn chunk
    · obtain ⟨haddr, hprotocol, chunk', hchunk, hnames⟩ := ih h
      exact ⟨haddr, hprotocol, chunk', List.mem_cons_of_mem _ hchunk, hnames⟩

/-- The requests of a search fit their fields and a frame. -/
theorem requestsOf_fits {d : Draws} {addr : SocketAddr} (haddr : addr.IsPlain)
    {pvNames : List String} (hfit : NamesFit pvNames) {req : SearchRequest}
    (h : req ∈ requestsOf d addr pvNames) (order : ByteOrder) :
    req.Fits ∧ (req.encode order).length ≤ maxPayloadSize := by
  obtain ⟨hreqAddr, hprotocol, chunk, hchunk, hnames⟩ := mem_searchRequests h
  have hcount : req.channels.length ≤ 500 := by
    rw [← List.length_map (f := Prod.snd), hnames]
    exact Chunks.length_le_of_mem_chunks (by decide) hchunk
  have hchannels : ∀ channel ∈ req.channels, channel.2.utf8ByteSize ≤ 32768 := by
    intro channel hchannel
    refine hfit channel.2 ?_
    rw [← Chunks.flatten_chunks (k := batchSize) (by decide) pvNames]
    exact List.mem_flatten.2 ⟨chunk, hchunk, hnames ▸ List.mem_map_of_mem hchannel⟩
  refine ⟨⟨hreqAddr ▸ haddr, ?_, by omega, fun channel hchannel => ?_⟩, ?_⟩
  · rw [hprotocol]
    decide
  · have := hchannels channel hchannel
    omega
  · exact (length_encode_le order hprotocol hcount hchannels).trans (by decide)

/-- The calls of a search fit the limit of a peer. -/
theorem searchCalls_fits {order : ByteOrder} {reqs : List SearchRequest} (batchesSent : ℕ)
    (h : ∀ req ∈ reqs, (req.encode order).length ≤ maxPayloadSize) :
    ∀ op ∈ searchCalls order reqs batchesSent, op.Fits := by
  induction reqs generalizing batchesSent with
  | nil =>
    intro op hop
    rw [List.mem_singleton.1 hop]
    trivial
  | cons req reqs ih =>
    intro op hop
    obtain rfl | hop := List.mem_cons.1 hop
    · exact h req List.mem_cons_self
    obtain hop | hop := List.mem_append.1 hop
    · split_ifs at hop
      · rw [List.mem_singleton.1 hop]
        trivial
      · cases hop
    · exact ih (batchesSent + 1) (fun req hreq => h req (List.mem_cons_of_mem _ hreq)) op hop

/-- Reading responses writes nothing. -/
theorem recvSearchResponse_writes (s : SearchSession) :
    PvaTcp.SameWrites s.tcp s.recvSearchResponse.2.tcp := by
  induction hn : s.tcp.arriving.length using Nat.strong_induction_on generalizing s with
  | _ n ih =>
    have hwrites := (PvaTcp.recvFrame_spec s.tcp).writes
    unfold recvSearchResponse
    split
    · exact hwrites
    · exact hwrites
    · rename_i frame hframe
      have hlt := arriving_lt hframe
      dsimp only
      split_ifs
      · cases (SearchResponse.decode (.new frame.payload s.byteOrder)).1 <;> exact hwrites
      · let s' : SearchSession := { s with
          tcp := s.tcp.recvFrame.2, messagesReceived := s.messagesReceived + 1 }
        have hnext : PvaTcp.SameWrites s'.tcp s'.recvSearchResponse.2.tcp :=
          ih s'.tcp.arriving.length (hn ▸ hlt) s' rfl
        exact hwrites.trans hnext

theorem awaitResponses_writes (expected : ℕ) (p : Pending.Table Int32 String × List String)
    (s : SearchSession) : PvaTcp.SameWrites s.tcp (awaitResponses expected p s).2.tcp := by
  induction expected generalizing p s with
  | zero => exact .refl s.tcp
  | succ expected ih =>
    have hwrites := recvSearchResponse_writes s
    unfold awaitResponses
    rcases hrecv : s.recvSearchResponse with ⟨_ | (e | resp), s'⟩
    all_goals rw [hrecv] at hwrites
    · exact hwrites
    · exact hwrites
    · exact hwrites.trans (ih _ s')

/-- The write side of a connection after a search. -/
theorem searchPvs_writes (d : Draws) {pvNames : List String} (hne : pvNames ≠ [])
    {s : SearchSession} (hroom : s.tcp.stream.room = none) :
    PvaTcp.SameWrites (Runs.run PvaTcp.step s.tcp
        (searchCalls s.byteOrder (requestsOf d (requestAddr s.localAddr) pvNames) 0))
      (searchPvs d pvNames s).2.tcp := by
  have hspec := sendSearches_spec d (Chunks.chunks batchSize pvNames) 0 0 ∅ s
  unfold searchPvs
  rw [if_neg hne]
  rcases hsend : sendSearches d (Chunks.chunks batchSize pvNames) 0 0 ∅ s with ⟨⟨ok, table⟩, s'⟩
  rw [hsend] at hspec
  cases ok with
  | false => exact absurd (hspec.unbroken hroom) Bool.false_ne_true
  | true =>
    have hcalls : s'.tcp = Runs.run PvaTcp.step s.tcp
        (searchCalls s.byteOrder (requestsOf d (requestAddr s.localAddr) pvNames) 0) :=
      hspec.calls rfl
    rw [← hcalls]
    exact awaitResponses_writes _ _ s'

/-! ## A server that answers -/

/-- The response has the ids of the PVs of the request that the server hosts. -/
def Answers (hosts : String → Bool) (req : SearchRequest) (resp : SearchResponse) : Prop :=
  ∀ id, id ∈ resp.found ↔ ∃ pv, (id, pv) ∈ req.channels ∧ hosts pv = true

/-- The responses answer the requests, in any order. -/
def AnswersAll (hosts : String → Bool) (reqs : List SearchRequest) (resps : List SearchResponse) :
    Prop :=
  ∃ resps', resps'.Perm resps ∧ List.Forall₂ (Answers hosts) reqs resps'

theorem answered_iff {hosts : String → Bool} {reqs : List SearchRequest}
    {resps : List SearchResponse} (h : List.Forall₂ (Answers hosts) reqs resps) (id : Int32) :
    id ∈ resps.flatMap SearchResponse.found ↔
      ∃ pv, (id, pv) ∈ searchEntries reqs ∧ hosts pv = true := by
  induction h with
  | nil => exact iff_of_false List.not_mem_nil fun ⟨pv, hpv, _⟩ => List.not_mem_nil hpv
  | @cons req resp reqs resps hanswers _ ih =>
    rw [List.flatMap_cons, List.mem_append, hanswers id, ih]
    show _ ↔ ∃ pv, (id, pv) ∈ req.channels ++ searchEntries reqs ∧ hosts pv = true
    simp only [List.mem_append, or_and_right, exists_or]

/-- Of entries with different ids the answers name those the server hosts. -/
theorem filter_answered {hosts : String → Bool} {reqs : List SearchRequest}
    {resps : List SearchResponse} (h : AnswersAll hosts reqs resps)
    (hnodup : ((searchEntries reqs).map Prod.fst).Nodup) :
    ((searchEntries reqs).filter fun e =>
        decide (e.1 ∈ resps.flatMap SearchResponse.found)).map Prod.snd =
      ((searchEntries reqs).map Prod.snd).filter hosts := by
  obtain ⟨resps', hperm, hforall⟩ := h
  rw [List.filter_map]
  refine congrArg (List.map Prod.snd) (List.filter_congr fun e he => ?_)
  have hmem : e.1 ∈ resps.flatMap SearchResponse.found ↔ hosts e.2 = true := by
    rw [← (hperm.flatMap_right SearchResponse.found).mem_iff, answered_iff hforall]
    constructor
    · rintro ⟨pv, hpv, hhosts⟩
      have hsame := List.inj_on_of_nodup_map hnodup hpv he rfl
      rw [← hsame]
      exact hhosts
    · intro hhosts
      exact ⟨e.2, he, hhosts⟩
  rw [Bool.eq_iff_iff, decide_eq_true_iff, hmem]
  rfl

/-- A connection a search is made on: its own address, the ids drawn on it and its stream. -/
structure SearchConnection where
  localAddr : Option SocketAddr
  draws : Draws
  stream : TcpStream

/-- The requests of a search on a connection. -/
def SearchConnection.requests (c : SearchConnection) (pvNames : List String) :
    List SearchRequest :=
  requestsOf c.draws (requestAddr c.localAddr) pvNames

/-- A server that hosts some PVs follows the protocol on a connection that does not break: after
    the handshake it sends frames of which the first search responses, as many as there are
    requests, answer these. -/
structure Serves (hosts : String → Bool) (pvNames : List String) (c : SearchConnection)
    (order : ByteOrder) (sizes : ConnectionValidation) (frames : List PvaFrame) : Prop where
  fits : sizes.Fits
  hello : ServerFrames order sizes frames
  stream : ∃ chunks : List (List UInt8), c.stream = ⟨chunks.map .data, [], none⟩ ∧
    chunks.flatten = PvaTcp.wire frames
  draws : DrawsFit c.draws pvNames
  answers : AnswersAll hosts (c.requests pvNames)
    ((responses order (frames.drop 3)).take (c.requests pvNames).length)

section Serves

variable (bufferSize : Int32) (registrySize : Int16) {hosts : String → Bool}
  {pvNames : List String} {c : SearchConnection} {order : ByteOrder}
  {sizes : ConnectionValidation} {frames : List PvaFrame}

/-- The session a client makes with such a server. -/
theorem Serves.connects (h : Serves hosts pvNames c order sizes frames) :
    ∃ s, connect bufferSize registrySize c.localAddr c.stream = some (.ok s) ∧
      s.tcp = Runs.run PvaTcp.step (.connect c.stream)
        (handshakeCalls bufferSize registrySize order) ∧
      s.localAddr = c.localAddr ∧ s.byteOrder = order ∧
      s.arriving = responses order (frames.drop 3) := by
  obtain ⟨chunks, hstream, hchunks⟩ := h.stream
  have hserver : performHandshake bufferSize registrySize (.connect ⟨chunks.map .data, [], none⟩) =
      _ ∧ _ := performHandshake_of_server h.fits h.hello hchunks
  rw [← hstream] at hserver
  obtain ⟨hresult, hanswers⟩ := hserver
  let t := Runs.run PvaTcp.step (.connect c.stream) (handshakeCalls bufferSize registrySize order)
  refine ⟨⟨t, c.localAddr, order, 0, 0⟩, ?_, rfl, rfl, rfl, ?_⟩
  · unfold connect
    rw [hresult]
  · -- all reads of the connection bring bytes, so all that comes arrives
    obtain ⟨used, hgot, -⟩ := PvaTcp.run_got (.connect c.stream)
      (handshakeCalls bufferSize registrySize order)
    have hsuffix : chunks.map Wait.data = used ++ t.stream.reads := by
      rw [← hgot.reads, hstream]
      rfl
    have hdata : t.stream.reads.takeWhile Wait.isData = t.stream.reads := by
      refine List.takeWhile_eq_self_iff.2 fun w hw => ?_
      have hmem : w ∈ chunks.map Wait.data := hsuffix ▸ List.mem_append_right _ hw
      obtain ⟨bytes, -, rfl⟩ := List.mem_map.1 hmem
      rfl
    show responses order t.arriving = _
    refine congrArg (responses order) ?_
    unfold PvaTcp.arriving
    rw [hdata]
    exact frameMachine.items_of_answers hanswers

/-- Nothing breaks the connection of such a session. -/
theorem Serves.room (h : Serves hosts pvNames c order sizes frames) :
    (Runs.run PvaTcp.step (.connect c.stream)
      (handshakeCalls bufferSize registrySize order)).stream.room = none := by
  obtain ⟨chunks, hstream, -⟩ := h.stream
  refine PvaTcp.run_room ?_ _
  rw [hstream]
  rfl

/-- The search finds what the server hosts. -/
theorem Serves.found {s : SearchSession} (h : Serves hosts pvNames c order sizes frames)
    (hroom : s.tcp.stream.room = none) (haddr : s.localAddr = c.localAddr)
    (harriving : s.arriving = responses order (frames.drop 3)) :
    (searchPvs c.draws pvNames s).1.Perm (pvNames.filter hosts) := by
  rw [(searchPvs_eq c.draws pvNames s).2 hroom, harriving, haddr]
  have hnodup := requestsOf_nodup h.draws (requestAddr c.localAddr)
  refine (Pending.done_perm hnodup _).trans (List.Perm.of_eq ?_)
  exact (filter_answered h.answers hnodup).trans
    (congrArg (List.filter hosts) (requestsOf_names _ _ pvNames))

/-- **Main theorem**: let a server follow the protocol on a new connection that does not break,
    its bytes cut in any way. A client that connects and searches finds exactly the PVs the server
    hosts, as often as they were asked for. The server decodes the echo of its byte order, the
    sizes of the client twice, as the first flush of the search sends them again, and then
    requests that ask for every PV in order. -/
theorem connect_search (h : Serves hosts pvNames c order sizes frames)
    (haddr : (requestAddr c.localAddr).IsPlain) (hfit : NamesFit pvNames) :
    ∃ s, connect bufferSize registrySize c.localAddr c.stream = some (.ok s) ∧
      let r := searchPvs c.draws pvNames s
      let validated := validatedFrame bufferSize registrySize order
      r.1.Perm (pvNames.filter hosts) ∧
      (pvNames ≠ [] → (decodeFrames PvaCodec.new r.2.tcp.stream.sent).items =
        [ctrlFrame ctrlSetByteOrder (orderFlag order), validated, validated] ++
          (c.requests pvNames).map (searchFrame order)) ∧
      (∀ req ∈ c.requests pvNames,
        (SearchRequest.decode (.new (req.encode order) order)).1 = .ok req) ∧
      (c.requests pvNames).flatMap (fun req => req.channels.map Prod.snd) = pvNames := by
  obtain ⟨s, hconnect, htcp, hlocal, horder, harriving⟩ :=
    h.connects bufferSize registrySize
  have hroom : s.tcp.stream.room = none := htcp ▸ h.room bufferSize registrySize
  refine ⟨s, hconnect, h.found hroom hlocal harriving, fun hne => ?_, fun req hreq => ?_, ?_⟩
  · let calls := handshakeCalls bufferSize registrySize order ++
      searchCalls order (c.requests pvNames) 0
    have hnew : c.stream.sent = [] := by
      obtain ⟨chunks, hstream, -⟩ := h.stream
      rw [hstream]
    have hfits : ∀ op ∈ calls, op.Fits := by
      intro op hop
      obtain hop | hop := List.mem_append.1 hop
      · exact handshakeCalls_fits order op hop
      · exact searchCalls_fits 0 (fun req hreq => (requestsOf_fits haddr hfit hreq order).2) op hop
    have hwrites := searchPvs_writes c.draws hne hroom
    have hrun : Runs.run PvaTcp.step s.tcp
        (searchCalls s.byteOrder (requestsOf c.draws (requestAddr s.localAddr) pvNames) 0) =
          Runs.run PvaTcp.step (.connect c.stream) calls := by
      rw [htcp, hlocal, horder, Runs.run_append]
      rfl
    rw [hrun] at hwrites
    have hcarries := (PvaTcp.run_carries c.stream hnew calls).of_same hwrites
    have hsent := PvaTcp.run_allDecodable hfits
    have hroom' : (Runs.run PvaTcp.step (.connect c.stream) calls).stream.room = none := by
      rw [← hrun]
      exact PvaTcp.run_room hroom _
    obtain ⟨codec, hpeer, -⟩ := hcarries.decode (hwrites.room.trans hroom')
      fun f hf => hsent f (List.mem_append_left _ hf)
    rw [hpeer]
    show (Runs.run Outbox.step .empty calls).sent = _
    rw [Runs.run_append, outbox_handshakeCalls, outbox_searchCalls]
    rfl
  · have hyields := (requestsOf_fits haddr hfit hreq order).1.yields order [] []
    rw [List.append_nil] at hyields
    exact congrArg Prod.fst hyields
  · rw [← List.map_flatMap]
    exact requestsOf_names _ _ pvNames

end Serves

/-- What a big-endian server finds for the first request of a client, and what it sends behind its
    handshake. -/
def exampleHosted (hosts : String → Bool) (pvNames : List String) : List Int32 :=
  ((searchEntries (requestsOf exampleDraws (requestAddr none) pvNames)).filter
    fun e => hosts e.2).map Prod.fst
def exampleAnswers (hosts : String → Bool) (pvNames : List String) : List PvaFrame :=
  [appFrame cmdSearchResponse ((exampleResponse (exampleHosted hosts pvNames)).encode .bigEndian)]

/-- The connection of a search for some PVs to that server. -/
def exampleConnection (hosts : String → Bool) (pvNames : List String) : SearchConnection :=
  ⟨none, exampleDraws,
    ⟨[PvaTcp.wire (exampleFrames 0x09 ++ exampleAnswers hosts pvNames)].map .data, [], none⟩⟩

theorem length_exampleHosted (hosts : String → Bool) (pvNames : List String) :
    (exampleHosted hosts pvNames).length ≤ pvNames.length := by
  unfold exampleHosted
  rw [List.length_map]
  refine (List.length_filter_le _ _).trans ?_
  rw [← List.length_map (f := Prod.snd), requestsOf_names]

theorem exampleAnswers_decodable (hosts : String → Bool) {pvNames : List String}
    (hlen : pvNames.length ≤ batchSize) :
    ∀ f ∈ exampleAnswers hosts pvNames, Decodable f := by
  intro f hf
  rw [List.mem_singleton.1 hf]
  refine appFrame_decodable ?_
  have hcount : (exampleHosted hosts pvNames).length ≤ 500 :=
    (length_exampleHosted hosts pvNames).trans hlen
  have hids : ((exampleResponse (exampleHosted hosts pvNames)).found.flatMap
      (Write.i32 .bigEndian)).length ≤ 500 * 4 := by
    show ((exampleHosted hosts pvNames).flatMap (Write.i32 .bigEndian)).length ≤ 500 * 4
    rw [List.length_flatMap]
    have hsum := List.sum_le_card_nsmul
      ((exampleHosted hosts pvNames).map fun id => (Write.i32 .bigEndian id).length) 4
      fun len hlen => by
        obtain ⟨id, -, rfl⟩ := List.mem_map.1 hlen
        simp [Write.i32, ByteOrder.writeI32]
    rw [List.length_map, smul_eq_mul] at hsum
    omega
  have htcp : (Write.string .bigEndian
      (exampleResponse (exampleHosted hosts pvNames)).protocol).length ≤ 5 + "tcp".utf8ByteSize :=
    length_string_le .bigEndian "tcp"
  have hsize : "tcp".utf8ByteSize = 3 := by decide
  have hguid : (exampleResponse (exampleHosted hosts pvNames)).guid.toList.length = 12 := rfl
  unfold SearchResponse.encode encodeSearchResponseAddress
  simp only [List.length_append, hguid, List.Vector.toList_length, ByteOrder.length_writeNat,
    List.length_singleton, Write.i32, ByteOrder.writeI32, Write.u16] at hids ⊢
  exact Nat.le_trans (by omega) (by decide : 2100 ≤ maxPayloadSize)

/-- The server answers all requests for up to 500 PVs. -/
theorem exampleConnection_serves (hosts : String → Bool) {pvNames : List String}
    (hlen : pvNames.length ≤ batchSize) :
    Serves hosts pvNames (exampleConnection hosts pvNames) .bigEndian exampleSizes
      (exampleFrames 0x09 ++ exampleAnswers hosts pvNames) := by
  refine ⟨exampleSizes_fits, exampleFrames_hello (exampleAnswers_decodable hosts hlen),
    ⟨_, rfl, List.flatten_singleton⟩, ?_, ?_⟩
  · show pvNames.length + (Chunks.chunks 500 pvNames).length ≤ 0 + 2 ^ 32
    rw [Chunks.length_chunks (by decide)]
    have hlen' : pvNames.length ≤ 500 := hlen
    omega
  · show AnswersAll hosts (requestsOf exampleDraws (requestAddr none) pvNames)
      ((responses .bigEndian (exampleEcho :: exampleAnswers hosts pvNames)).take
        (requestsOf exampleDraws (requestAddr none) pvNames).length)
    by_cases hnil : pvNames = []
    · subst hnil
      rw [requestsOf, Chunks.chunks_nil]
      exact ⟨[], .refl _, .nil⟩
    · have hchunks : Chunks.chunks batchSize pvNames = [pvNames] := by
        rw [Chunks.chunks_of_ne_nil (by decide) hnil, List.take_of_length_le hlen,
          List.drop_of_length_le hlen, Chunks.chunks_nil]
      have hreqs : requestsOf exampleDraws (requestAddr none) pvNames =
          [batchRequest exampleDraws 0 (requestAddr none) pvNames] := by
        rw [requestsOf, hchunks]
        rfl
      let resp := exampleResponse (exampleHosted hosts pvNames)
      have hcount : (exampleHosted hosts pvNames).length < 65536 :=
        ((length_exampleHosted hosts pvNames).trans hlen).trans_lt (by decide)
      have hfits : resp.Fits := exampleResponse_fits hcount
      have hresponses : responses .bigEndian (exampleEcho :: exampleAnswers hosts pvNames) =
          [resp] := by
        rw [responses, if_neg (by decide), exampleAnswers,
          responses_appFrame .bigEndian hfits]
        rfl
      rw [hresponses, hreqs]
      refine ⟨[resp], .refl _, .cons (fun id => ?_) .nil⟩
      have hentries : searchEntries (requestsOf exampleDraws (requestAddr none) pvNames) =
          (batchRequest exampleDraws 0 (requestAddr none) pvNames).channels := by
        rw [hreqs]
        exact List.append_nil _
      show id ∈ exampleHosted hosts pvNames ↔ _
      rw [exampleHosted, hentries]
      simp

/-- The server hosts the second of two PVs. -/
theorem connect_search_second :
    let hosts : String → Bool := fun pv => decide (pv = "b")
    ∃ s, connect 16384 16 none (exampleConnection hosts ["a", "b"]).stream = some (.ok s) ∧
      (searchPvs exampleDraws ["a", "b"] s).1 = ["b"] := by
  intro hosts
  have hlen : ["a", "b"].length ≤ batchSize := by decide
  have hfit : NamesFit ["a", "b"] := by
    intro pv hpv
    simp only [List.mem_cons, List.not_mem_nil, or_false] at hpv
    obtain rfl | rfl := hpv <;> decide
  obtain ⟨s, hconnect, hfound, -⟩ := connect_search 16384 16
    (exampleConnection_serves hosts hlen) trivial hfit
  exact ⟨s, hconnect, List.perm_singleton.1 hfound⟩

/-! ## The searches of a batch -/

/-- A search task of `monitor_batch` (`runtime/driver.rs`, lines 205-217 and 240-253): nothing is
    found where the client does not connect. -/
def searchTask (bufferSize : Int32) (registrySize : Int16) (c : SearchConnection)
    (pvNames : List String) : List String :=
  match connect bufferSize registrySize c.localAddr c.stream with
  | some (.ok s) => (searchPvs c.draws pvNames s).1
  | _ => []

section Batch

variable {Addr : Type} (bufferSize : Int32) (registrySize : Int16)

theorem mem_searchTask {hosts : String → Bool} {asked : List String} {c : SearchConnection}
    {order : ByteOrder} {sizes : ConnectionValidation} {frames : List PvaFrame}
    (h : Serves hosts asked c order sizes frames) (pv : String) :
    pv ∈ searchTask bufferSize registrySize c asked ↔ pv ∈ asked ∧ hosts pv = true := by
  obtain ⟨s, hconnect, htcp, hlocal, -, harriving⟩ :=
    h.connects bufferSize registrySize
  have hroom : s.tcp.stream.room = none := htcp ▸ h.room bufferSize registrySize
  unfold searchTask
  rw [hconnect]
  show pv ∈ (searchPvs c.draws asked s).1 ↔ _
  rw [(h.found hroom hlocal harriving).mem_iff, List.mem_filter]

theorem partition_sublist (names : List String) (n k : ℕ) :
    (PvaDriver.partition names n k).Sublist names := by
  have hfilter : PvaDriver.partition names n k =
      (names.zipIdx.filter fun p => decide (p.2 % n = k)).map Prod.fst := by
    unfold PvaDriver.partition
    induction names.zipIdx with
    | nil => rfl
    | cons p ps ih =>
      rw [List.filterMap_cons, List.filter_cons, ih]
      split_ifs <;> simp_all
  rw [hfilter]
  have hsub := (List.filter_sublist (p := fun p => decide (p.2 % n = k)) (l := names.zipIdx)).map
    Prod.fst
  rwa [List.zipIdx_map_fst] at hsub

/-- The routes of a batch depend on the searches for parts of its PVs only. -/
theorem searchRoutesBy_congr {servers : List Addr} {names : List String}
    {f₁ f₂ g₁ g₂ : ℕ → List String → List String}
    (h₁ : ∀ k asked, asked.Sublist names → f₁ k asked = g₁ k asked)
    (h₂ : ∀ k asked, asked.Sublist names → f₂ k asked = g₂ k asked) :
    PvaDriver.searchRoutesBy servers names f₁ f₂ =
      PvaDriver.searchRoutesBy servers names g₁ g₂ := by
  have hround₁ : (fun k => f₁ k (PvaDriver.partition names servers.length k)) =
      fun k => g₁ k (PvaDriver.partition names servers.length k) :=
    funext fun k => h₁ k _ (partition_sublist names servers.length k)
  unfold PvaDriver.searchRoutesBy
  dsimp only
  rw [hround₁]
  have hround₂ : ∀ routes : List (String × Addr),
      (fun k => f₂ k (names.filter fun pv => (routes.lookup pv).isNone)) =
        fun k => g₂ k (names.filter fun pv => (routes.lookup pv).isNone) :=
    fun routes => funext fun k => h₂ k _ List.filter_sublist
  rw [hround₂]

/-- Every connection of a round is served: whichever of the PVs the `k`-th name server is asked
    for, it answers with what it hosts. -/
def RoundServed (servers : List Addr) (hosts : Addr → String → Bool) (names : List String)
    (conn : ℕ → List String → SearchConnection) : Prop :=
  ∀ s ∈ servers.zipIdx, ∀ asked, asked.Sublist names →
    ∃ order sizes frames, Serves (hosts s.1) asked (conn s.2 asked) order sizes frames

/-- What the tasks of a served round find, with an answer made up for lists the batch never asks
    for. -/
theorem exists_searchesHosted {servers : List Addr} {hosts : Addr → String → Bool}
    {names : List String} {conn : ℕ → List String → SearchConnection}
    (h : RoundServed servers hosts names conn) :
    ∃ g : ℕ → List String → List String,
      PvaDriver.SearchesHosted servers (fun addr pv => hosts addr pv = true) g ∧
        ∀ k asked, asked.Sublist names →
          searchTask bufferSize registrySize (conn k asked) asked = g k asked := by
  classical
  let g : ℕ → List String → List String := fun k asked =>
    if asked.Sublist names then searchTask bufferSize registrySize (conn k asked) asked
    else asked.filter fun pv => (servers[k]?.map (hosts · pv)).getD false
  refine ⟨g, fun s hs asked pv => ?_, fun k asked hasked => (if_pos hasked).symm⟩
  show pv ∈ (if asked.Sublist names then _ else _) ↔ _
  by_cases hasked : asked.Sublist names
  · rw [if_pos hasked]
    obtain ⟨order, sizes, frames, hserves⟩ := h s hs asked hasked
    exact mem_searchTask bufferSize registrySize hserves pv
  · rw [if_neg hasked, List.mem_filter, List.mem_zipIdx_iff_getElem?.1 hs]
    rfl

/-- **Main theorem**: let every name server of a driver follow the protocol on the connections of
    both search rounds. A batch reports `SearchFailed` on exactly its PVs that no server hosts,
    and every other PV of it is subscribed on a server that hosts it. -/
theorem monitor_batch_network [DecidableEq Addr] (d : PvaDriver Addr) (names : List String)
    {hosts : Addr → String → Bool} {conn₁ conn₂ : ℕ → List String → SearchConnection}
    (h₁ : RoundServed d.nameServers hosts names conn₁)
    (h₂ : RoundServed d.nameServers hosts names conn₂)
    (added : Addr → AddAnswer) (opened : Addr → Option (String → BulkOutcome)) :
    let task := searchTask bufferSize registrySize
    let searched₁ := fun k asked => task (conn₁ k asked) asked
    let searched₂ := fun k asked => task (conn₂ k asked) asked
    let routes := PvaDriver.searchRoutesBy d.nameServers names searched₁ searched₂
    (∀ pv, (∃ msg, (pv, Report.searchFailed msg) ∈
        (d.monitorBatchReports names ⟨searched₁, searched₂, added, opened⟩).1) ↔
      pv ∈ names ∧ ∀ addr ∈ d.nameServers, hosts addr pv = false) ∧
    ∀ pv ∈ names, (∃ addr ∈ d.nameServers, hosts addr pv = true) →
      ∃ addr ∈ d.nameServers, routes.lookup pv = some addr ∧ hosts addr pv = true := by
  intro task searched₁ searched₂ routes
  obtain ⟨g₁, hg₁, heq₁⟩ := exists_searchesHosted bufferSize registrySize h₁
  obtain ⟨g₂, hg₂, heq₂⟩ := exists_searchesHosted bufferSize registrySize h₂
  have hroutes : routes = PvaDriver.searchRoutesBy d.nameServers names g₁ g₂ :=
    searchRoutesBy_congr heq₁ heq₂
  have hsome : ∀ pv, (routes.lookup pv).isSome ↔
      pv ∈ names ∧ ∃ addr ∈ d.nameServers, hosts addr pv = true := by
    rw [hroutes]
    exact PvaDriver.isSome_searchRoutesBy hg₁ hg₂
  refine ⟨fun pv => ?_, fun pv hpv hhosted => ?_⟩
  · rw [PvaDriver.searchFailed_mem_iff]
    show pv ∈ names ∧ (routes.lookup pv).isNone = true ↔ _
    rw [← Option.not_isSome, Bool.not_eq_true', ← Bool.not_eq_true, hsome, not_and]
    constructor
    · rintro ⟨hpv, hnot⟩
      refine ⟨hpv, fun addr haddr => Bool.eq_false_iff.2 fun hhosts => ?_⟩
      exact hnot hpv ⟨addr, haddr, hhosts⟩
    · rintro ⟨hpv, hnone⟩
      refine ⟨hpv, fun _ ⟨addr, haddr, hhosts⟩ => ?_⟩
      rw [hnone addr haddr] at hhosts
      cases hhosts
  · obtain ⟨addr, haddr⟩ := Option.isSome_iff_exists.1 ((hsome pv).2 ⟨hpv, hhosted⟩)
    rw [hroutes] at haddr
    obtain ⟨-, hserver, hhosts⟩ := PvaDriver.hosted_of_searchRoutesBy hg₁ hg₂ haddr
    exact ⟨addr, hserver, hroutes ▸ haddr, hhosts⟩

end Batch

/-- Two name servers, of which the second hosts `b`. -/
theorem monitor_batch_network_second :
    let hosts : ℕ → String → Bool := fun addr pv => decide (addr = 2 ∧ pv = "b")
    let task : ℕ → List String → List String := fun k asked =>
      searchTask 16384 16 (exampleConnection (hosts (k + 1)) asked) asked
    (∃ msg, ("a", Report.searchFailed msg) ∈ ((PvaDriver.new [1, 2]).monitorBatchReports ["a", "b"]
      ⟨task, task, fun _ => .unsent, fun _ => none⟩).1) ∧
    (PvaDriver.searchRoutesBy [1, 2] ["a", "b"] task task).lookup "b" = some 2 := by
  intro hosts task
  have hserved : RoundServed [1, 2] hosts ["a", "b"]
      fun k asked => exampleConnection (hosts (k + 1)) asked := by
    intro s hs asked hasked
    have haddr : s.1 = s.2 + 1 := by
      have hs : s = (1, 0) ∨ s = (2, 1) := by simpa using hs
      obtain rfl | rfl := hs <;> rfl
    rw [haddr]
    exact ⟨_, _, _, exampleConnection_serves (hosts (s.2 + 1))
      (hasked.length_le.trans (by decide))⟩
  obtain ⟨hfailed, hrouted⟩ := monitor_batch_network 16384 16 (PvaDriver.new [1, 2]) ["a", "b"]
    hserved hserved (fun _ => .unsent) (fun _ => none)
  refine ⟨(hfailed "a").2 ⟨by decide, by decide⟩, ?_⟩
  obtain ⟨addr, haddr, hroute, hhosts⟩ := hrouted "b" (by decide) ⟨2, by decide, by decide⟩
  rw [of_decide_eq_true hhosts |>.1] at hroute
  exact hroute

end SearchSession

end AuraEpics.Session

import AuraEpics.Codec.PvWriter
import AuraEpics.Lib.SocketAddr

/-!
# Search, channel and connection messages

Models of the payloads of `crates/aura-net/src/messages`: `SearchRequest` and `SearchResponse`
(`search.rs`, lines 20-231), `CreateChannelRequest` and `DestroyChannel` (`channel.rs`, lines
7-115), `ConnectionValidation` (`connection.rs`, lines 6-37). Each is written as the bytes its
`encode` appends and read with the reader its `decode` is given.

* `Fits`: the counts and sizes of a message fit their fields, and its address is one the wire
  format can tell from all others.

Results:
* `yields_address`, the 18 bytes of an address;
* `round_trip`, every message that fits is read back off its encoding.
-/

namespace AuraEpics.Messages

open Codec Net

/-! ## Addresses -/

/-- The IPv6 address written for `addr.ip()` (lines 24-27 and 42-45). -/
def wireIp (addr : SocketAddr) : Ipv6Addr :=
  match addr.ip with
  | .v4 v4 => v4.toIpv6Mapped
  | .v6 v6 => v6

/-- `encode_search_response_address` (lines 41-48): the port is little-endian in both byte
    orders. -/
def encodeSearchResponseAddress (addr : SocketAddr) : List UInt8 :=
  (wireIp addr).octets.toList ++ ByteOrder.littleEndian.writeNat 2 addr.port.toNat

/-- `encode_search_address` (lines 20-31). -/
def encodeSearchAddress (addr : SocketAddr) : List UInt8 :=
  List.replicate 3 0 ++ (wireIp addr).octets.toList ++
    ByteOrder.littleEndian.writeNat 2 addr.port.toNat

/-- `decode_ipv6_address` (lines 56-68). -/
def decodeIpv6Address : Read SocketAddr := do
  let b ← Read.bytes 16
  let ipv6 : Ipv6Addr := ⟨Octets.ofSlice 16 b⟩
  let ip : IpAddr :=
    match ipv6.toIpv4Mapped with
    | some v4 => .v4 v4
    | none => .v6 ipv6
  let portBytes ← Read.bytes 2
  let port := ByteOrder.littleEndian.readU16 portBytes
  return SocketAddr.new ip port

/-- `decode_search_address` (lines 34-38). -/
def decodeSearchAddress : Read SocketAddr := do
  let _ ← Read.bytes 3
  decodeIpv6Address

/-- `decode_search_response_address` (lines 51-53). -/
def decodeSearchResponseAddress : Read SocketAddr := decodeIpv6Address

/-! ## Messages -/

/-- `search_flags` (lines 71-76). -/
def replyRequiredFlag : UInt8 := 0x01
def unicastFlag : UInt8 := 0x80

/-- `GUID_LEN` (line 12). -/
def guidLen : ℕ := 12

/-- An entry `(id, name)` of the lists of channels, as both loops write it (`search.rs`, lines
    168-171, and `channel.rs`, lines 32-35). -/
def encodeChannel (order : ByteOrder) (channel : Int32 × String) : List UInt8 :=
  Write.i32 order channel.1 ++ Write.string order channel.2

/-- The body of the loops that read an entry. -/
def decodeChannel : Read (Int32 × String) := do
  let id ← Read.i32
  let name ← Read.string
  return (id, name)

/-- `SearchRequest` (lines 78-87). -/
structure SearchRequest where
  searchSequenceId : Int32
  replyRequired : Bool
  unicast : Bool
  responseAddress : SocketAddr
  protocol : String
  channels : List (Int32 × String)
  deriving DecidableEq

namespace SearchRequest

/-- `SearchRequest::single` (lines 90-99). -/
def single (searchId : Int32) (pvName : String) (addr : SocketAddr) : SearchRequest :=
  ⟨searchId, true, false, addr, "tcp", [(searchId, pvName)]⟩

/-- `SearchRequest::multi` (lines 101-110). -/
def multi (seq : Int32) (channels : List (Int32 × String)) (addr : SocketAddr) : SearchRequest :=
  ⟨seq, true, false, addr, "tcp", channels⟩

/-- `SearchRequest::decode` (lines 122-150). -/
def decode : Read SearchRequest := do
  let searchSequenceId ← Read.i32
  let flags ← Read.u8
  let replyRequired : Bool := flags &&& replyRequiredFlag ≠ 0
  let unicast : Bool := flags &&& unicastFlag ≠ 0
  let responseAddress ← decodeSearchAddress
  let protoCount ← Read.u8
  let protocol ← (if 0 < protoCount then Read.string else pure "tcp" : Read String)
  let _ ← Read.many Read.string (protoCount.toNat - 1)
  let count ← Read.u16
  let channels ← Read.many decodeChannel count.toNat
  return { searchSequenceId, replyRequired, unicast, responseAddress, protocol, channels }

/-- The flags `encode` writes (lines 154-160). -/
def flags (m : SearchRequest) : UInt8 :=
  let flags : UInt8 := 0
  let flags := if m.replyRequired then flags ||| replyRequiredFlag else flags
  if m.unicast then flags ||| unicastFlag else flags

/-- `SearchRequest::encode` (lines 152-172). -/
def encode (order : ByteOrder) (m : SearchRequest) : List UInt8 :=
  Write.i32 order m.searchSequenceId ++ [m.flags] ++ encodeSearchAddress m.responseAddress ++
    [1] ++ Write.string order m.protocol ++ Write.u16 order (UInt16.ofNat m.channels.length) ++
    m.channels.flatMap (encodeChannel order)

/-- The sizes of the request fit their fields. -/
structure Fits (m : SearchRequest) : Prop where
  address : m.responseAddress.IsPlain
  protocol : m.protocol.utf8ByteSize < 2 ^ 31
  count : m.channels.length < 65536
  names : ∀ channel ∈ m.channels, channel.2.utf8ByteSize < 2 ^ 31

end SearchRequest

/-- `SearchResponse` (lines 188-195). -/
structure SearchResponse where
  guid : Octets guidLen
  searchSequenceId : Int32
  serverAddr : SocketAddr
  protocol : String
  found : List Int32
  deriving DecidableEq

namespace SearchResponse

/-- `SearchResponse::decode` (lines 198-218); the found flag is read and not used. -/
def decode : Read SearchResponse := do
  let guid ← Octets.ofSlice guidLen <$> Read.bytes guidLen
  let searchSequenceId ← Read.i32
  let serverAddr ← decodeSearchResponseAddress
  let protocol ← Read.string
  let _ ← Read.u8
  let count ← Read.u16
  let found ← Read.many Read.i32 count.toNat
  return { guid, searchSequenceId, serverAddr, protocol, found }

/-- `SearchResponse::encode` (lines 220-231). -/
def encode (order : ByteOrder) (m : SearchResponse) : List UInt8 :=
  m.guid.toList ++ Write.i32 order m.searchSequenceId ++
    encodeSearchResponseAddress m.serverAddr ++ Write.string order m.protocol ++
    [if m.found.isEmpty then 0 else 1] ++ Write.u16 order (UInt16.ofNat m.found.length) ++
    m.found.flatMap (Write.i32 order)

/-- The sizes of the response fit their fields. -/
structure Fits (m : SearchResponse) : Prop where
  address : m.serverAddr.IsPlain
  protocol : m.protocol.utf8ByteSize < 2 ^ 31
  count : m.found.length < 65536

end SearchResponse

/-- `CreateChannelRequest` (lines 7-10). -/
structure CreateChannelRequest where
  channels : List (Int32 × String)
  deriving DecidableEq

namespace CreateChannelRequest

/-- `CreateChannelRequest::decode` (lines 22-29). -/
def decode : Read CreateChannelRequest := do
  let count ← Read.u16
  let channels ← Read.many decodeChannel count.toNat
  return { channels }

/-- `CreateChannelRequest::encode` (lines 30-36). -/
def encode (order : ByteOrder) (m : CreateChannelRequest) : List UInt8 :=
  Write.u16 order (UInt16.ofNat m.channels.length) ++ m.channels.flatMap (encodeChannel order)

/-- The sizes of the request fit their fields. -/
structure Fits (m : CreateChannelRequest) : Prop where
  count : m.channels.length < 65536
  names : ∀ channel ∈ m.channels, channel.2.utf8ByteSize < 2 ^ 31

end CreateChannelRequest

/-- `DestroyChannel` (lines 92-96). -/
structure DestroyChannel where
  clientChannelId : Int32
  serverChannelId : Int32
  deriving DecidableEq

namespace DestroyChannel

/-- `DestroyChannel::decode` (lines 106-111). -/
def decode : Read DestroyChannel := do
  let clientChannelId ← Read.i32
  let serverChannelId ← Read.i32
  return { clientChannelId, serverChannelId }

/-- `DestroyChannel::encode` (lines 112-115). -/
def encode (order : ByteOrder) (m : DestroyChannel) : List UInt8 :=
  Write.i32 order m.clientChannelId ++ Write.i32 order m.serverChannelId

end DestroyChannel

/-- `ConnectionValidation` (lines 6-11). -/
structure ConnectionValidation where
  serverBufferSize : Int32
  serverRegistrySize : Int16
  authMethods : List String
  deriving DecidableEq

namespace ConnectionValidation

/-- `ConnectionValidation::decode` (lines 14-29). -/
def decode : Read ConnectionValidation := do
  let serverBufferSize ← Read.i32
  let serverRegistrySize ← Read.i16
  let count ← Read.sizeNonNull
  let authMethods ← Read.many Read.string count
  return { serverBufferSize, serverRegistrySize, authMethods }

/-- `ConnectionValidation::encode` (lines 30-37). -/
def encode (order : ByteOrder) (m : ConnectionValidation) : List UInt8 :=
  Write.i32 order m.serverBufferSize ++ Write.i16 order m.serverRegistrySize ++
    Write.size order m.authMethods.length ++ m.authMethods.flatMap (Write.string order)

/-- The sizes of the message fit their fields. -/
structure Fits (m : ConnectionValidation) : Prop where
  count : m.authMethods.length < 65536
  methods : ∀ method ∈ m.authMethods, method.utf8ByteSize < 2 ^ 31

end ConnectionValidation

/-! ## Reading the parts back -/

section ReadBack

variable (order : ByteOrder)

theorem yields_octets {n : ℕ} (octets : Octets n) :
    Yields order (Read.bytes n) octets.toList octets.toList := by
  have h := yields_bytes order octets.toList
  rwa [octets.toList_length] at h

/-- An address is read back off its 18 bytes. -/
theorem yields_address {addr : SocketAddr} (h : addr.IsPlain) :
    Yields order decodeIpv6Address (encodeSearchResponseAddress addr) addr := by
  have hport : (ByteOrder.littleEndian.writeNat 2 addr.port.toNat).length = 2 := by simp
  have hbytes := yields_bytes order (ByteOrder.littleEndian.writeNat 2 addr.port.toNat)
  rw [hport] at hbytes
  unfold decodeIpv6Address encodeSearchResponseAddress
  refine (yields_octets order (wireIp addr).octets).bind ?_
  refine hbytes.last ?_
  rw [Octets.ofSlice_toList, readU16_writeNat]
  cases addr with
  | v4 ip port =>
    have hip : (wireIp (.v4 ip port)).toIpv4Mapped = some ip := toIpv4Mapped_toIpv6Mapped ip
    rw [hip]
    exact Yields.pure (SocketAddr.v4 ip port)
  | v6 ip port flowinfo scopeId =>
    obtain ⟨hmapped, rfl, rfl⟩ := h
    have hip : (wireIp (.v6 ip port 0 0)).toIpv4Mapped = none := toIpv4Mapped_eq_none hmapped
    rw [hip]
    exact Yields.pure (SocketAddr.v6 ip port 0 0)

theorem yields_searchAddress {addr : SocketAddr} (h : addr.IsPlain) :
    Yields order decodeSearchAddress (encodeSearchAddress addr) addr := by
  unfold decodeSearchAddress encodeSearchAddress
  rw [List.append_assoc]
  exact (yields_bytes order (List.replicate 3 0)).bind (yields_address order h)

theorem yields_channel {channel : Int32 × String} (h : channel.2.utf8ByteSize < 2 ^ 31) :
    Yields order decodeChannel (encodeChannel order channel) channel := by
  refine (yields_i32 order channel.1).bind ?_
  refine (yields_string order h).last ?_
  exact Yields.pure channel

/-- A loop over a list that was written element by element gives the list back. -/
theorem yields_list {α : Type} {p : Read α} {write : α → List UInt8} (xs : List α)
    (h : ∀ x ∈ xs, Yields order p (write x) x) :
    Yields order (Read.many p xs.length) (xs.flatMap write) xs := by
  have hmany := Yields.many (g := id) xs h
  rwa [List.map_id] at hmany

/-- A `u16` count and the elements it counts. -/
theorem yields_counted {α β : Type} {p : Read α} {write : α → List UInt8} {f : List α → β}
    {xs : List α} (hcount : xs.length < 65536) (h : ∀ x ∈ xs, Yields order p (write x) x) :
    Yields order
      (do
        let count ← Read.u16
        let xs ← Read.many p count.toNat
        return f xs)
      (Write.u16 order (UInt16.ofNat xs.length) ++ xs.flatMap write) (f xs) := by
  have hlen : (UInt16.ofNat xs.length).toNat = xs.length := UInt16.toNat_ofNat_of_lt hcount
  refine (yields_u16 order (UInt16.ofNat xs.length)).bind ?_
  rw [hlen]
  refine (yields_list order xs h).last ?_
  exact Yields.pure (f xs)

end ReadBack

/-! ## Reading messages back -/

section Messages

variable (order : ByteOrder)

/-- The two flags are different bits. -/
theorem SearchRequest.flags_bits (m : SearchRequest) :
    decide (m.flags &&& replyRequiredFlag ≠ 0) = m.replyRequired ∧
      decide (m.flags &&& unicastFlag ≠ 0) = m.unicast := by
  unfold flags
  cases m.replyRequired <;> cases m.unicast <;> decide

theorem SearchRequest.Fits.yields {m : SearchRequest} (h : m.Fits) :
    Yields order SearchRequest.decode (m.encode order) m := by
  obtain ⟨hreply, hunicast⟩ := m.flags_bits
  unfold SearchRequest.decode SearchRequest.encode
  simp only [List.append_assoc]
  refine (yields_i32 order m.searchSequenceId).bind ?_
  refine (yields_u8 order m.flags).bind ?_
  refine (yields_searchAddress order h.address).bind ?_
  refine (yields_u8 order 1).bind ?_
  refine (yields_string order h.protocol).bind ?_
  refine (Yields.pure []).skip ?_
  rw [hreply, hunicast]
  exact yields_counted order h.count fun channel hchannel =>
    yields_channel order (h.names channel hchannel)

theorem SearchResponse.Fits.yields {m : SearchResponse} (h : m.Fits) :
    Yields order SearchResponse.decode (m.encode order) m := by
  have hguid := (yields_octets order m.guid).map (Octets.ofSlice guidLen)
  rw [Octets.ofSlice_toList] at hguid
  unfold SearchResponse.decode SearchResponse.encode
  simp only [List.append_assoc]
  refine hguid.bind ?_
  refine (yields_i32 order m.searchSequenceId).bind ?_
  refine (yields_address order h.address).bind ?_
  refine (yields_string order h.protocol).bind ?_
  refine (yields_u8 order _).bind ?_
  exact yields_counted order h.count fun id _ => yields_i32 order id

theorem CreateChannelRequest.Fits.yields {m : CreateChannelRequest} (h : m.Fits) :
    Yields order CreateChannelRequest.decode (m.encode order) m :=
  yields_counted order h.count fun channel hchannel =>
    yields_channel order (h.names channel hchannel)

theorem DestroyChannel.yields (m : DestroyChannel) :
    Yields order DestroyChannel.decode (m.encode order) m := by
  refine (yields_i32 order m.clientChannelId).bind ?_
  refine (yields_i32 order m.serverChannelId).last ?_
  exact Yields.pure m

theorem ConnectionValidation.Fits.yields {m : ConnectionValidation} (h : m.Fits) :
    Yields order ConnectionValidation.decode (m.encode order) m := by
  have hcount : m.authMethods.length < 2 ^ 31 := by
    have := h.count
    omega
  unfold ConnectionValidation.decode ConnectionValidation.encode
  simp only [List.append_assoc]
  refine (yields_i32 order m.serverBufferSize).bind ?_
  refine (yields_i16 order m.serverRegistrySize).bind ?_
  refine (yields_sizeNonNull order hcount).bind ?_
  refine (yields_list order m.authMethods fun method hmethod =>
    yields_string order (h.methods method hmethod)).last ?_
  exact Yields.pure m

end Messages

/-- **Main theorem.** Every search, channel and connection message that fits its fields is read
    back off its encoding, whatever follows. -/
theorem round_trip (order : ByteOrder) :
    (∀ m : SearchRequest, m.Fits → Yields order SearchRequest.decode (m.encode order) m) ∧
    (∀ m : SearchResponse, m.Fits → Yields order SearchResponse.decode (m.encode order) m) ∧
    (∀ m : CreateChannelRequest, m.Fits →
      Yields order CreateChannelRequest.decode (m.encode order) m) ∧
    (∀ m : DestroyChannel, Yields order DestroyChannel.decode (m.encode order) m) ∧
    ∀ m : ConnectionValidation, m.Fits →
      Yields order ConnectionValidation.decode (m.encode order) m :=
  ⟨fun _ h => h.yields order, fun _ h => h.yields order, fun _ h => h.yields order,
    DestroyChannel.yields order, fun _ h => h.yields order⟩

/-- A request with an address of either family. -/
theorem round_trip_search :
    let localhost : SocketAddr := .v6 ⟨⟨List.replicate 15 0 ++ [1], rfl⟩⟩ 5076 0 0
    let gateway : SocketAddr := .v4 ⟨⟨[192, 168, 1, 10], rfl⟩⟩ 5075
    let request := SearchRequest.single 7 "S28:current" localhost
    let response : SearchResponse := ⟨⟨List.replicate 12 0xAB, rfl⟩, 7, gateway, "tcp", [7, -1]⟩
    Yields .bigEndian SearchRequest.decode (request.encode .bigEndian) request ∧
      Yields .littleEndian SearchResponse.decode (response.encode .littleEndian) response := by
  intro localhost gateway request response
  have hplain : localhost.IsPlain := by
    refine ⟨?_, rfl, rfl⟩
    rintro ⟨v4, hmapped⟩
    have hsome := toIpv4Mapped_eq_some_iff.2 hmapped
    have hnone : (⟨⟨List.replicate 15 0 ++ [1], rfl⟩⟩ : Ipv6Addr).toIpv4Mapped = none := by
      decide +kernel
    rw [hnone] at hsome
    cases hsome
  have hrequest : request.Fits := by
    refine ⟨hplain, by decide, by decide, ?_⟩
    intro channel hchannel
    rw [List.mem_singleton.1 hchannel]
    decide
  have hresponse : response.Fits := ⟨trivial, by decide, by decide⟩
  exact ⟨(round_trip .bigEndian).1 request hrequest,
    (round_trip .littleEndian).2.1 response hresponse⟩

end AuraEpics.Messages

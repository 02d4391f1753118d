import AuraEpics.Codec.FieldDescCodec
import AuraEpics.Messages.Requests
import AuraEpics.Messages.Status

/-!
# Monitor messages and replies

Models of the payloads that `Requests` leaves out: `MonitorRequest` and `MonitorResponseHeader`
(`crates/aura-net/src/messages/monitor.rs`, lines 7-185), `CreateChannelResponse`
(`channel.rs`, lines 53-79) and `ConnectionValidated` (`connection.rs`, lines 59-93).

Two of them write more than their `decode` reads. An INIT carries a `pvRequest`, six fixed bytes
that are not written with the byte order of the connection; the answer to the server's
CONNECTION_VALIDATION ends in a null for the data of the authentication.

* `decodeWhole`: the reads of a peer that also takes these bytes;
* `pvRequestId`: the id under which a peer files the `pvRequest`.

Results:
* `fromU8_eq_some_iff`, the sub-command bytes that are accepted;
* `yields_request`, `yields_validated`, what is written is read to its end;
* `replies_round_trip`, all of them.
-/

namespace AuraEpics.Messages

open Codec

/-! ## Monitor requests -/

/-- `MONITOR_INIT` to `MONITOR_PIPELINE` (`commands.rs`, lines 83-87). -/
def monitorInit : UInt8 := 0x08
def monitorStart : UInt8 := 0x04
def monitorStop : UInt8 := 0x02
def monitorDestroy : UInt8 := 0x10
def monitorPipeline : UInt8 := 0x80

/-- `MonitorSubCommand` (lines 7-15). -/
inductive MonitorSubCommand where
  | init
  | start
  | startPipeline
  | stop
  | destroy
  | pipeline (credits : Int32)
  deriving DecidableEq, Repr

namespace MonitorSubCommand

/-- `MonitorSubCommand::from_u8` (lines 18-28). -/
def fromU8 (v : UInt8) : Option MonitorSubCommand :=
  if v = monitorInit then some .init
  else if v = monitorStart then some .start
  else if v = 0x44 then some .startPipeline
  else if v = monitorStop then some .stop
  else if v = monitorDestroy then some .destroy
  else if v &&& monitorPipeline ≠ 0 then some (.pipeline 0)
  else none

/-- `MonitorSubCommand::to_u8` (lines 29-38). -/
def toU8 : MonitorSubCommand → UInt8
  | init => monitorInit
  | start => monitorStart
  | startPipeline => 0x44
  | stop => monitorStop
  | destroy => monitorDestroy
  | pipeline _ => monitorPipeline

end MonitorSubCommand

/-- `MonitorRequest` (lines 60-65). -/
structure MonitorRequest where
  serverChannelId : Int32
  requestId : Int32
  subCommand : MonitorSubCommand
  deriving DecidableEq, Repr

namespace MonitorRequest

/-- The constructors the session uses (lines 68-110). -/
def init (sid rid : Int32) : MonitorRequest := ⟨sid, rid, .init⟩
def startPipeline (sid rid : Int32) : MonitorRequest := ⟨sid, rid, .startPipeline⟩
def stop (sid rid : Int32) : MonitorRequest := ⟨sid, rid, .stop⟩

/-- The bytes of the `pvRequest` (lines 138-142). -/
def pvRequest : List UInt8 := [0xFD, 0x02, 0x00, 0x80, 0x00, 0x00]

/-- `MonitorRequest::decode` (lines 112-127). -/
def decode : Read MonitorRequest := do
  let serverChannelId ← Read.i32
  let requestId ← Read.i32
  let subByte ← Read.u8
  match MonitorSubCommand.fromU8 subByte with
  | none => Read.fail (.protocol s!"unknown monitor sub: 0x{hexByte subByte}")
  | some (.pipeline _) =>
    let credits ← Read.i32
    return { serverChannelId, requestId, subCommand := .pipeline credits }
  | some subCommand => return { serverChannelId, requestId, subCommand }

/-- `MonitorRequest::encode` (lines 129-148). -/
def encode (order : ByteOrder) (m : MonitorRequest) : List UInt8 :=
  Write.i32 order m.serverChannelId ++ Write.i32 order m.requestId ++ [m.subCommand.toU8] ++
    match m.subCommand with
    | .init => pvRequest
    | .pipeline credits => Write.i32 order credits
    | _ => []

end MonitorRequest

/-! ## Replies -/

/-- `MonitorResponseHeader` (lines 161-165). -/
structure MonitorResponseHeader where
  requestId : Int32
  subCommand : UInt8
  deriving DecidableEq, Repr

namespace MonitorResponseHeader

/-- `MonitorResponseHeader::decode` (lines 168-173). -/
def decode : Read MonitorResponseHeader := do
  let requestId ← Read.i32
  let subCommand ← Read.u8
  return { requestId, subCommand }

/-- `MonitorResponseHeader::encode` (lines 174-177). -/
def encode (order : ByteOrder) (m : MonitorResponseHeader) : List UInt8 :=
  Write.i32 order m.requestId ++ [m.subCommand]

end MonitorResponseHeader

/-- `CreateChannelResponse` (lines 53-58). -/
structure CreateChannelResponse where
  clientChannelId : Int32
  serverChannelId : Int32
  status : PvaStatus
  deriving DecidableEq, Repr

namespace CreateChannelResponse

/-- `CreateChannelResponse::decode` (lines 65-74). -/
def decode : Read CreateChannelResponse := do
  let clientChannelId ← Read.i32
  let serverChannelId ← Read.i32
  let status ← PvaStatus.decode
  return { clientChannelId, serverChannelId, status }

/-- `CreateChannelResponse::encode` (lines 75-79). -/
def encode (order : ByteOrder) (m : CreateChannelResponse) : List UInt8 :=
  Write.i32 order m.clientChannelId ++ Write.i32 order m.serverChannelId ++ m.status.encode order

/-- The strings of the status fit their fields, and the status is not a plain OK with a call
    tree, which the short form drops. -/
structure Fits (m : CreateChannelResponse) : Prop where
  status : m.status.Below (2 ^ 31)
  callTree : m.status.isOk = true → m.status.callTree = none

end CreateChannelResponse

/-- `ConnectionValidated` (lines 59-65). -/
structure ConnectionValidated where
  clientBufferSize : Int32
  clientRegistrySize : Int16
  connectionQos : UInt16
  authMethod : String
  deriving DecidableEq, Repr

namespace ConnectionValidated

/-- `ConnectionValidated::anonymous` (lines 68-75). -/
def anonymous (bufferSize : Int32) (registrySize : Int16) : ConnectionValidated :=
  ⟨bufferSize, registrySize, 0, "anonymous"⟩

/-- `ConnectionValidated::decode` (lines 76-87). -/
def decode : Read ConnectionValidated := do
  let clientBufferSize ← Read.i32
  let clientRegistrySize ← Read.i16
  let connectionQos ← Read.u16
  let authMethod ← Read.string
  return { clientBufferSize, clientRegistrySize, connectionQos, authMethod }

/-- `ConnectionValidated::encode` (lines 88-94). -/
def encode (order : ByteOrder) (m : ConnectionValidated) : List UInt8 :=
  Write.i32 order m.clientBufferSize ++ Write.i16 order m.clientRegistrySize ++
    Write.u16 order m.connectionQos ++ Write.string order m.authMethod ++ [0xFF]

end ConnectionValidated

/-! ## Sub-commands -/

/-- The bytes accepted are those of the sub-commands, and every byte with the bit of a pipeline
    message. -/
theorem fromU8_eq_some_iff (v : UInt8) (sub : MonitorSubCommand) :
    MonitorSubCommand.fromU8 v = some sub ↔
      (v = sub.toU8 ∧ ∀ credits, sub ≠ .pipeline credits) ∨
        (v &&& monitorPipeline ≠ 0 ∧ sub = .pipeline 0) := by
  constructor
  · intro h
    unfold MonitorSubCommand.fromU8 at h
    split_ifs at h with hinit hstart hpipe hstop hdestroy hbit
    · cases h; exact .inl ⟨hinit, by simp⟩
    · cases h; exact .inl ⟨hstart, by simp⟩
    · cases h; exact .inl ⟨hpipe, by simp⟩
    · cases h; exact .inl ⟨hstop, by simp⟩
    · cases h; exact .inl ⟨hdestroy, by simp⟩
    · cases h; exact .inr ⟨hbit, rfl⟩
  · rintro (⟨rfl, hplain⟩ | ⟨hbit, rfl⟩)
    · cases sub with
      | init => rfl
      | start => rfl
      | startPipeline => rfl
      | stop => rfl
      | destroy => rfl
      | pipeline credits => exact absurd rfl (hplain credits)
    · -- no other sub-command has the bit
      have hne : ∀ w : UInt8, w &&& monitorPipeline = 0 → v ≠ w := by
        rintro w hw rfl
        exact hbit hw
      unfold MonitorSubCommand.fromU8
      rw [if_neg (hne _ (by decide)), if_neg (hne _ (by decide)), if_neg (hne _ (by decide)),
        if_neg (hne _ (by decide)), if_neg (hne _ (by decide)), if_pos hbit]

section ReadBack

variable (order : ByteOrder)

/-! ## Monitor messages -/

/-- The id a peer reads in the `pvRequest`. -/
def pvRequestId : ByteOrder → Int16
  | .littleEndian => 2
  | .bigEndian => 512

/-- The structure without fields the `pvRequest` describes. -/
def allFields : FieldDesc := .struct "" []

theorem pvRequest_eq :
    MonitorRequest.pvRequest =
      [fullWithIdCode] ++ (Write.i16 order (pvRequestId order) ++ allFields.encode order) := by
  cases order <;> decide +kernel

/-- A description sent with an id is read to its end and filed under the id. -/
theorem yields_fullWithId {desc : FieldDesc} (hd : desc.Constructed) (hfit : desc.SizesFit)
    (registry : IntrospectionRegistry) (id : Int16) :
    Yields order (FieldDesc.decode registry)
      ([fullWithIdCode] ++ (Write.i16 order id ++ desc.encode order))
      (some desc, (registry.register id desc).2) := by
  obtain ⟨tag, body, h⟩ := hd.tagYields order hfit
  have hdesc : Yields order FieldDesc.decodeFullRest (desc.encode order) desc := by
    intro done rest
    refine h.yields_decodeFull _ ?_ done rest
    simp [PvaReader.at]
  unfold FieldDesc.decode
  refine (yields_u8 order fullWithIdCode).bind ?_
  rw [if_neg (by decide), if_neg (by decide), if_pos rfl]
  refine (yields_i16 order id).bind ?_
  refine hdesc.last ?_
  exact Yields.pure (some desc, (registry.register id desc).2)

namespace MonitorRequest

/-- The reads of a peer that takes the request and the `pvRequest` of an INIT. -/
def decodeWhole (registry : IntrospectionRegistry) :
    Read (MonitorRequest × Option FieldDesc × IntrospectionRegistry) := do
  let m ← decode
  if m.subCommand = .init then
    let (desc, registry) ← FieldDesc.decode registry
    return (m, desc, registry)
  else return (m, none, registry)

end MonitorRequest

/-- What a peer reads of a request. -/
def MonitorRequest.received (registry : IntrospectionRegistry) (m : MonitorRequest) :
    MonitorRequest × Option FieldDesc × IntrospectionRegistry :=
  if m.subCommand = .init then
    (m, some allFields, (registry.register (pvRequestId order) allFields).2)
  else (m, none, registry)

theorem yields_request (registry : IntrospectionRegistry) (m : MonitorRequest) :
    Yields order (MonitorRequest.decodeWhole registry) (m.encode order)
      (m.received order registry) := by
  obtain ⟨sid, rid, sub⟩ := m
  -- the bytes of the request itself, then those of the `pvRequest`
  have hplain : ∀ sub : MonitorSubCommand, (∀ credits, sub ≠ .pipeline credits) →
      Yields order MonitorRequest.decode (Write.i32 order sid ++ Write.i32 order rid ++ [sub.toU8])
        ⟨sid, rid, sub⟩ := by
    intro sub hsub
    have hcode := (fromU8_eq_some_iff sub.toU8 sub).2 (.inl ⟨rfl, hsub⟩)
    unfold MonitorRequest.decode
    rw [List.append_assoc]
    refine (yields_i32 order sid).bind ?_
    refine (yields_i32 order rid).bind ?_
    refine (yields_u8 order sub.toU8).last ?_
    rw [hcode]
    cases sub with
    | pipeline credits => exact absurd rfl (hsub credits)
    | init => exact Yields.pure _
    | start => exact Yields.pure _
    | startPipeline => exact Yields.pure _
    | stop => exact Yields.pure _
    | destroy => exact Yields.pure _
  unfold MonitorRequest.decodeWhole MonitorRequest.received MonitorRequest.encode
  dsimp only
  by_cases hinit : sub = .init
  · subst hinit
    rw [if_pos rfl, pvRequest_eq order]
    refine (hplain .init (by simp)).bind ?_
    rw [if_pos rfl]
    refine (yields_fullWithId order (.struct "" [] (by decide) (by simp) (by simp))
      (.node _ _ _ (by simp) (by decide) (by simp)) registry (pvRequestId order)).last ?_
    exact Yields.pure _
  · rw [if_neg hinit]
    cases sub with
    | init => exact absurd rfl hinit
    | pipeline credits =>
      have hread : Yields order MonitorRequest.decode
          (Write.i32 order sid ++ Write.i32 order rid ++ [monitorPipeline] ++
            Write.i32 order credits) ⟨sid, rid, .pipeline credits⟩ := by
        have hcode := (fromU8_eq_some_iff monitorPipeline (.pipeline 0)).2 (.inr ⟨by decide, rfl⟩)
        unfold MonitorRequest.decode
        rw [List.append_assoc, List.append_assoc]
        refine (yields_i32 order sid).bind ?_
        refine (yields_i32 order rid).bind ?_
        refine (yields_u8 order monitorPipeline).bind ?_
        rw [hcode]
        refine (yields_i32 order credits).last ?_
        exact Yields.pure _
      refine hread.last ?_
      rw [if_neg hinit]
      exact Yields.pure _
    | start =>
      rw [List.append_nil]
      refine (hplain .start (by simp)).last ?_
      rw [if_neg hinit]
      exact Yields.pure _
    | startPipeline =>
      rw [List.append_nil]
      refine (hplain .startPipeline (by simp)).last ?_
      rw [if_neg hinit]
      exact Yields.pure _
    | stop =>
      rw [List.append_nil]
      refine (hplain .stop (by simp)).last ?_
      rw [if_neg hinit]
      exact Yields.pure _
    | destroy =>
      rw [List.append_nil]
      refine (hplain .destroy (by simp)).last ?_
      rw [if_neg hinit]
      exact Yields.pure _

theorem yields_responseHeader (m : MonitorResponseHeader) :
    Yields order MonitorResponseHeader.decode (m.encode order) m := by
  refine (yields_i32 order m.requestId).bind ?_
  refine (yields_u8 order m.subCommand).last ?_
  exact Yields.pure m

/-! ## Channels and connections -/

theorem CreateChannelResponse.Fits.yields {m : CreateChannelResponse} (h : m.Fits) :
    Yields order CreateChannelResponse.decode (m.encode order) m := by
  unfold CreateChannelResponse.decode CreateChannelResponse.encode
  rw [List.append_assoc]
  refine (yields_i32 order m.clientChannelId).bind ?_
  refine (yields_i32 order m.serverChannelId).bind ?_
  refine ((PvaStatus.yields_iff order h.status).2 h.callTree).last ?_
  exact Yields.pure m

/-- The bytes of the answer of the client before the null for the data of the authentication. -/
def ConnectionValidated.encodeFields (m : ConnectionValidated) : List UInt8 :=
  Write.i32 order m.clientBufferSize ++ Write.i16 order m.clientRegistrySize ++
    Write.u16 order m.connectionQos ++ Write.string order m.authMethod

theorem yields_validatedFields {m : ConnectionValidated} (h : m.authMethod.utf8ByteSize < 2 ^ 31) :
    Yields order ConnectionValidated.decode (m.encodeFields order) m := by
  unfold ConnectionValidated.decode ConnectionValidated.encodeFields
  rw [List.append_assoc, List.append_assoc]
  refine (yields_i32 order m.clientBufferSize).bind ?_
  refine (yields_i16 order m.clientRegistrySize).bind ?_
  refine (yields_u16 order m.connectionQos).bind ?_
  refine (yields_string order h).last ?_
  exact Yields.pure m

theorem yields_validated {m : ConnectionValidated} (h : m.authMethod.utf8ByteSize < 2 ^ 31) :
    Yields order
      (do
        let m ← ConnectionValidated.decode
        let authData ← Read.u8
        return (m, authData))
      (m.encode order) (m, 0xFF) := by
  refine (yields_validatedFields order h).bind ?_
  refine (yields_u8 order 0xFF).last ?_
  exact Yields.pure (m, 0xFF)

/-- **Main theorem**: in both byte orders every monitor request, response header, channel
    response and answer to CONNECTION_VALIDATION is read back to its last byte, whatever
    follows. An INIT is read with the structure without fields, which the peer files under the
    id 2 or, in big-endian order, 512; of the other messages nothing is filed. -/
theorem replies_round_trip (registry : IntrospectionRegistry) :
    (∀ m : MonitorRequest, Yields order (MonitorRequest.decodeWhole registry) (m.encode order)
      (if m.subCommand = .init then
        (m, some allFields, (registry.register (pvRequestId order) allFields).2)
      else (m, none, registry))) ∧
    (∀ m : MonitorResponseHeader, Yields order MonitorResponseHeader.decode (m.encode order) m) ∧
    (∀ m : CreateChannelResponse, m.Fits →
      Yields order CreateChannelResponse.decode (m.encode order) m) ∧
    ∀ m : ConnectionValidated, m.authMethod.utf8ByteSize < 2 ^ 31 →
      Yields order
        (do
          let m ← ConnectionValidated.decode
          let authData ← Read.u8
          return (m, authData))
        (m.encode order) (m, 0xFF) :=
  ⟨yields_request order registry, yields_responseHeader order, fun _ h => h.yields order,
    fun _ h => yields_validated order h⟩

end ReadBack

/-- An INIT in big-endian order, a refused channel and the answer of an anonymous client. -/
theorem replies_round_trip_init :
    let registry := IntrospectionRegistry.new 4
    let refused : CreateChannelResponse :=
      ⟨7, -1, ⟨.error, "no such channel", some "server.cpp:42"⟩⟩
    let anonymous := ConnectionValidated.anonymous 65536 32767
    Yields .bigEndian (MonitorRequest.decodeWhole registry)
        ((MonitorRequest.init 12 3).encode .bigEndian)
        (.init 12 3, some allFields, (registry.register 512 allFields).2) ∧
      Yields .littleEndian CreateChannelResponse.decode (refused.encode .littleEndian) refused ∧
      Yields .bigEndian
        (do
          let m ← ConnectionValidated.decode
          let authData ← Read.u8
          return (m, authData))
        (anonymous.encode .bigEndian) (anonymous, 0xFF) := by
  intro registry refused anonymous
  have hrefused : refused.Fits := by
    refine ⟨⟨by decide, fun tree htree => ?_⟩, fun hok => absurd hok (by decide)⟩
    cases htree
    decide
  obtain ⟨hrequest, -, -, hvalidated⟩ := replies_round_trip .bigEndian registry
  exact ⟨hrequest (.init 12 3), (replies_round_trip .littleEndian registry).2.2.1 refused hrefused,
    hvalidated anonymous (by decide)⟩

end AuraEpics.Messages

import AuraEpics.Session.Merge
import AuraEpics.Store.Rows

/-!
# Monitor updates

Model of `PvaSession::handle_monitor_update`
(`crates/aura-net/src/runtime/session.rs`, lines 1264-1640) and of the branch of the
ingest thread that archives a `ScalarDelta` (`crates/aura-ingest/src/thread.rs`,
lines 55-79). The bus and the per-PV channel are one output; whether they are full
is not seen here.

The session keeps no merged state. Over a run of one full update and any deltas, the
events are those of `view`: what the merged state shows through the bits of each
delta.

Result: `monitorEvents_eq_view`.
-/

namespace AuraEpics.Session

open AuraEpics.Codec AuraEpics.Types AuraEpics.Core AuraEpics.Store Numeric

/-! ## The session -/

/-- `MonitorResponseHeader` (messages/monitor.rs, lines 158-162). -/
structure MonitorResponseHeader where
  requestId : Int32
  subCommand : UInt8

/-- `MonitorResponseHeader::decode` (messages/monitor.rs, lines 165-170). -/
def MonitorResponseHeader.decode : Read MonitorResponseHeader := do
  let requestId ← Read.i32
  let subCommand ← Read.u8
  return ⟨requestId, subCommand⟩

/-- `MonitorEvent` (monitor/subscription.rs, lines 38-71). -/
inductive MonitorEvent where
  | value (v : PvaValue)
  | scalarDelta (value : Binary64) (time : AlarmTime)
  | stringDelta (value : String) (time : AlarmTime)
  | arrayDelta (values : List Binary64) (time : AlarmTime)
  | disconnect
  | reconnect
  | error (message : String)

/-- `TaggedEvent` (monitor/bus.rs, lines 9-13). -/
structure TaggedEvent where
  pvName : String
  pvId : Int32
  event : MonitorEvent

/-- `MonitorEntry` (lines 559-575) with the fields of its subscription. -/
structure MonitorEntry where
  pvName : String
  typeDesc : Option FieldDesc
  lastValue : Option PvaValue
  updatesReceived : ℕ
  pvId : Int32
  fastLayout : Option FastScalarLayout
  fastArrayLayout : Option FastArrayLayout
  fastEnumLayout : Option FastEnumLayout

/-- The part of `PvaSession` (lines 583-595) that monitor updates use. -/
structure PvaSession where
  byteOrder : ByteOrder
  monitors : Int32 → Option MonitorEntry
  pvCache : Option (String → Option Int32)
  metadataBuf : Option (List (String × PvaValue))

namespace MonitorEntry

/-- The INIT response (lines 755-761): the descriptor and the layouts it allows. -/
def setTypeDesc (mon : MonitorEntry) (desc : FieldDesc) : MonitorEntry := { mon with
  typeDesc := some desc
  fastLayout := FastScalarLayout.detect desc
  fastArrayLayout := FastArrayLayout.detect desc
  fastEnumLayout := FastEnumLayout.detect desc }

/-- The lookup of the PV id, until it is found (lines 1371-1376). -/
def resolve (mon : MonitorEntry) (pvCache : Option (String → Option Int32)) : MonitorEntry :=
  if mon.pvId = 0 then
    match pvCache.bind fun cache => cache mon.pvName with
    | some id => { mon with pvId := id }
    | none => mon
  else mon

end MonitorEntry

/-! ## Fast paths -/

/-- The NTScalar path (lines 1320-1403): an event, or the reader as the attempt left
    it. The value's bit is not asked for. -/
def FastScalarLayout.event (l : FastScalarLayout) (changed : PvaBitSet) (r : PvaReader) :
    Option MonitorEvent × PvaReader :=
  if hasUnknown changed l.maxKnownBit then (none, r)
  else
    match l.decode changed r with
    | (.error _, r) => (none, r)
    | (.ok s, r) =>
      match s.value.stringValue with
      | some sv => (some (.stringDelta sv s.alarmTime), r)
      | none => (some (.scalarDelta s.value.value s.alarmTime), r)

/-- The NTScalarArray path (lines 1407-1468). -/
def FastArrayLayout.event (l : FastArrayLayout) (changed : PvaBitSet) (r : PvaReader) :
    Option MonitorEvent × PvaReader :=
  if !hasUnknown changed l.maxKnownBit && changed.isSet l.valueBit.toNat then
    match l.decode changed r with
    | (.error _, r) => (none, r)
    | (.ok s, r) => if s.value = [] then (none, r) else (some (.arrayDelta s.value s.alarmTime), r)
  else (none, r)

/-- The NTEnum path (lines 1472-1544). -/
def FastEnumLayout.event (l : FastEnumLayout) (changed : PvaBitSet) (r : PvaReader) :
    Option MonitorEvent × PvaReader :=
  if !hasUnknown changed l.maxKnownBit && changed.isSet l.indexBit.toNat then
    match l.decode changed r with
    | (.error _, r) => (none, r)
    | (.ok s, r) => (some (.scalarDelta (.ofInt s.value.toInt) s.alarmTime), r)
  else (none, r)

/-- Lines 1318-1547. -/
def MonitorEntry.fastPath (mon : MonitorEntry) (changed : PvaBitSet) (r : PvaReader) :
    Option MonitorEvent × PvaReader :=
  if !changed.isSet 0 && 0 < mon.updatesReceived then
    match mon.fastLayout, mon.fastArrayLayout, mon.fastEnumLayout with
    | some l, _, _ => l.event changed r
    | none, some l, _ => l.event changed r
    | none, none, some l => l.event changed r
    | none, none, none => (none, r)
  else (none, r)

/-! ## The update -/

namespace PvaSession

/-- Counting the update and sending the event (lines 1368-1401 and 1606-1639). -/
def emit (s : PvaSession) (rid : Int32) (mon : MonitorEntry) (event : MonitorEvent) :
    Option TaggedEvent × PvaSession :=
  let mon := { mon with updatesReceived := mon.updatesReceived + 1 }.resolve s.pvCache
  (some ⟨mon.pvName, mon.pvId, event⟩,
    { s with monitors := Function.update s.monitors rid (some mon) })

/-- The update of a monitor whose descriptor and bitset are known (lines 1316-1640). A
    fast path that fails goes on to the generic decoder with the reader it has used. -/
def applyUpdate (s : PvaSession) (rid : Int32) (mon : MonitorEntry) (desc : FieldDesc)
    (changed : PvaBitSet) (r : PvaReader) : Option TaggedEvent × PvaSession :=
  match mon.fastPath changed r with
  | (some event, _) => s.emit rid mon event
  | (none, r) =>
    match (if changed.isSet 0 then decodeFrom desc else decodeDeltaRoot changed desc) r with
    | (.error _, _) => (none, s)
    | (.ok v, _) =>
      let mon := if changed.isSet 0 then { mon with lastValue := some v } else mon
      let s := if mon.updatesReceived = 0 then
          { s with metadataBuf := s.metadataBuf.map fun buf => buf ++ [(mon.pvName, v)] }
        else s
      s.emit rid mon (.value v)

/-- `PvaSession::handle_monitor_update` (lines 1264-1640). -/
def handleMonitorUpdate (s : PvaSession) (payload : List UInt8) : Option TaggedEvent × PvaSession :=
  match MonitorResponseHeader.decode (.new payload s.byteOrder) with
  | (.error _, _) => (none, s)
  | (.ok hdr, r) =>
    match s.monitors hdr.requestId with
    | none => (none, s)
    | some mon =>
      match mon.typeDesc with
      | none => (none, s)
      | some desc =>
        match PvaBitSet.decode r with
        | (.error _, _) => (none, s)
        | (.ok changed, r) => s.applyUpdate hdr.requestId mon desc changed r

/-- What the session sends while it handles `payloads`, one entry for each. -/
def outputs (s : PvaSession) : List (List UInt8) → List (Option TaggedEvent)
  | [] => []
  | p :: ps => (s.handleMonitorUpdate p).1 :: (s.handleMonitorUpdate p).2.outputs ps

end PvaSession

/-- The `ScalarDelta` branch of `run_ingest_shard` (thread.rs, lines 55-79); `cached` is
    the PV cache's answer for the name. -/
def ingestScalarDelta (cached : Option Int32) (tagged : TaggedEvent) : Option ScalarRow :=
  match tagged.event with
  | .scalarDelta value time =>
    (if 0 < tagged.pvId then some tagged.pvId else cached).map fun pvId =>
      .fromEpoch time.seconds time.nanos pvId value time.severity.toInt16 time.status.toInt16
        .valueChanged
  | _ => none

/-! ## What an event shows of the merged state -/

/-- The event for a delta that leads to `state`: fields whose bit is set are those of
    `state`; in the events of the fast paths severity, status, seconds and nanoseconds
    are zero where the bit is clear, in a `value` event such fields are `Null`. -/
def view (desc : FieldDesc) (changed : PvaBitSet) (state : PvaValue) : MonitorEvent :=
  match FastScalarLayout.detect desc, FastArrayLayout.detect desc, FastEnumLayout.detect desc with
  | some l, _, _ =>
    if hasUnknown changed l.maxKnownBit then .value (maskRoot changed desc state)
    else
      match (ScalarVars.ofValue state).stringValue with
      | some sv => .stringDelta sv (l.shown changed state)
      | none => .scalarDelta (ScalarVars.ofValue state).value (l.shown changed state)
  | none, some l, _ =>
    if !hasUnknown changed l.maxKnownBit && changed.isSet l.valueBit.toNat then
      .arrayDelta (arrayOfValue state) (l.shown changed state)
    else .value (maskRoot changed desc state)
  | none, none, some l =>
    if !hasUnknown changed l.maxKnownBit && changed.isSet l.indexBit.toNat then
      .scalarDelta (.ofInt (i32At state "value" "index").toInt) (l.shown changed state)
    else .value (maskRoot changed desc state)
  | none, none, none => .value (maskRoot changed desc state)

/-- A descriptor whose bits the decoders agree on: a structure in which only structures
    nest, of the canonical shape if it has a fast layout. -/
structure WellLaidOut (desc : FieldDesc) : Prop where
  root : desc.fieldType = .struct
  nested : OnlyStructuresNest desc
  scalar : ∀ l, FastScalarLayout.detect desc = some l → Canonical ScalarLeaf desc
  array : ∀ l, FastArrayLayout.detect desc = some l → Canonical NumericArrayLeaf desc
  enum : ∀ l, FastEnumLayout.detect desc = some l → Canonical EnumValue desc

/-- A delta with a value for the fast loops: the scalar loop is given the value's bit,
    and the array is not emptied. -/
def FeedsFastPath (desc : FieldDesc) (changed : PvaBitSet) (state : PvaValue) : Prop :=
  (∀ l, FastScalarLayout.detect desc = some l → hasUnknown changed l.maxKnownBit = false →
    changed.isSet l.valueBit.toNat = true) ∧
  (∀ l, FastArrayLayout.detect desc = some l → changed.isSet l.valueBit.toNat = true →
    arrayOfValue state ≠ [])

/-- The request id and the bitset an update begins with. -/
def openUpdate : Read (Int32 × PvaBitSet) := do
  let hdr ← MonitorResponseHeader.decode
  let changed ← PvaBitSet.decode
  return (hdr.requestId, changed)

/-- `payload` is an update of monitor `rid` with the bitset `changed` and the data from
    `body` on. -/
def Arrives (order : ByteOrder) (payload : List UInt8) (rid : Int32) (changed : PvaBitSet)
    (body : PvaReader) : Prop :=
  openUpdate (.new payload order) = (.ok (rid, changed), body)

/-- The merged states of a PV through a sequence of deltas, each with its bitset. -/
inductive Merges (desc : FieldDesc) (order : ByteOrder) (rid : Int32) :
    PvaValue → List (List UInt8) → List (PvaBitSet × PvaValue) → Prop where
  | nil (old : PvaValue) : Merges desc order rid old [] []
  | cons {old state : PvaValue} {payload : List UInt8} {changed : PvaBitSet} {body r : PvaReader}
      {payloads : List (List UInt8)} {states : List (PvaBitSet × PvaValue)}
      (harrives : Arrives order payload rid changed body) (hdelta : changed.isSet 0 = false)
      (hmerge : mergeRoot changed desc old body = (.ok state, r))
      (hfeeds : FeedsFastPath desc changed state) (hrest : Merges desc order rid state payloads states) :
      Merges desc order rid old (payload :: payloads) ((changed, state) :: states)

section View

variable {desc : FieldDesc} {changed : PvaBitSet} {old state : PvaValue} {body r : PvaReader}

theorem decodeDeltaRoot_of_merge (hd : OnlyStructuresNest desc)
    (hmerge : mergeRoot changed desc old body = (.ok state, r)) :
    decodeDeltaRoot changed desc body = (.ok (maskRoot changed desc state), r) := by
  rw [decodeDeltaRoot_eq_mask changed hd old, Read.run_map, hmerge]

/-- A fast loop that agrees with the generic decoder sees the mask. -/
theorem AgreesWithGeneric.run {α : Type} {fast : Read (FastFields α)} {project : PvaValue → α}
    (h : AgreesWithGeneric fast project changed desc) (hd : OnlyStructuresNest desc)
    (hmerge : mergeRoot changed desc old body = (.ok state, r)) :
    fast body = (.ok ⟨project (maskRoot changed desc state),
      AlarmTime.ofValue (maskRoot changed desc state)⟩, r) := by
  rw [h.1, Read.run_map, decodeDeltaRoot_of_merge hd hmerge]

theorem scalarLoop_of_merge (hdesc : WellLaidOut desc) {l : FastScalarLayout}
    (hl : FastScalarLayout.detect desc = some l) (hknown : hasUnknown changed l.maxKnownBit = false)
    (hvalue : changed.isSet l.valueBit.toNat = true)
    (hmerge : mergeRoot changed desc old body = (.ok state, r)) :
    l.decode changed body = (.ok ⟨ScalarVars.ofValue state, l.shown changed state⟩, r) := by
  have hcanonical := hdesc.scalar l hl
  obtain ⟨p⟩ := hcanonical.rootParts hmerge
  obtain ⟨_, _, _, _, hbits⟩ := FastScalarLayout.detect_eq_some hl
  have hstarts : l.toAlarmTimeBits.StartsAt (1 + p.v.flatFieldCount) := by
    rw [p.value.flatFieldCount]
    exact .inl ⟨rfl, by rw [hbits]⟩
  have hbit : l.valueBit.toNat = 1 := by rw [hbits]; rfl
  rw [(scalar_agrees hcanonical hl hvalue hknown).run hdesc.nested hmerge, p.ofValue_mask hstarts,
    ScalarVars.ofValue, p.field_value (p.value.mask_eq p.mv (hbit ▸ hvalue))]
  rfl

theorem arrayLoop_of_merge (hdesc : WellLaidOut desc) {l : FastArrayLayout}
    (hl : FastArrayLayout.detect desc = some l) (hknown : hasUnknown changed l.maxKnownBit = false)
    (hvalue : changed.isSet l.valueBit.toNat = true)
    (hmerge : mergeRoot changed desc old body = (.ok state, r)) :
    l.decode changed body = (.ok ⟨arrayOfValue state, l.shown changed state⟩, r) := by
  have hcanonical := hdesc.array l hl
  obtain ⟨p⟩ := hcanonical.rootParts hmerge
  obtain ⟨_, _, _, _, _, hbits⟩ := FastArrayLayout.detect_eq_some hl
  have hstarts : l.toAlarmTimeBits.StartsAt (1 + p.v.flatFieldCount) := by
    rw [p.value.flatFieldCount]
    exact .inl ⟨rfl, by rw [hbits]⟩
  have hbit : l.valueBit.toNat = 1 := by rw [hbits]; rfl
  rw [(array_agrees hcanonical hl hvalue hknown).run hdesc.nested hmerge, p.ofValue_mask hstarts,
    arrayOfValue, p.field_value (p.value.mask_eq p.mv (hbit ▸ hvalue))]
  rfl

theorem enumLoop_of_merge (hdesc : WellLaidOut desc) {l : FastEnumLayout}
    (hl : FastEnumLayout.detect desc = some l) (hknown : hasUnknown changed l.maxKnownBit = false)
    (hindex : changed.isSet l.indexBit.toNat = true)
    (hmerge : mergeRoot changed desc old body = (.ok state, r)) :
    l.decode changed body = (.ok ⟨i32At state "value" "index", l.shown changed state⟩, r) := by
  have hcanonical := hdesc.enum l hl
  obtain ⟨p⟩ := hcanonical.rootParts hmerge
  obtain rfl := FastEnumLayout.detect_eq_some hl
  have hstarts : enumLayout.toAlarmTimeBits.StartsAt (1 + p.v.flatFieldCount) := by
    rw [p.value.flatFieldCount]
    exact .inr ⟨rfl, rfl⟩
  rw [(enum_agrees hcanonical hl hindex hknown).run hdesc.nested hmerge, p.ofValue_mask hstarts,
    i32At, i32At, p.field_mask, p.field_state, Option.bind_some, Option.bind_some,
    enumIndex_mask p.value p.mv_merged hindex]

/-- The monitor has been initialised with the descriptor `desc`. -/
structure MonitorEntry.Ready (mon : MonitorEntry) (desc : FieldDesc) : Prop where
  typeDesc : mon.typeDesc = some desc
  scalar : mon.fastLayout = FastScalarLayout.detect desc
  array : mon.fastArrayLayout = FastArrayLayout.detect desc
  enum : mon.fastEnumLayout = FastEnumLayout.detect desc

variable {mon : MonitorEntry}

/-- The fast path sends the event of `view`, or leaves the update, with the reader where
    it was, to the generic decoder. -/
theorem fastPath_of_merge (hdesc : WellLaidOut desc) (hmon : mon.Ready desc)
    (hreceived : 0 < mon.updatesReceived) (hdelta : changed.isSet 0 = false)
    (hfeeds : FeedsFastPath desc changed state)
    (hmerge : mergeRoot changed desc old body = (.ok state, r)) :
    mon.fastPath changed body = (some (view desc changed state), r) ∨
      (mon.fastPath changed body = (none, body) ∧
        view desc changed state = .value (maskRoot changed desc state)) := by
  unfold MonitorEntry.fastPath view
  rw [hmon.scalar, hmon.array, hmon.enum, if_pos (by simp [hdelta, hreceived])]
  cases hs : FastScalarLayout.detect desc with
  | some l =>
    dsimp only [FastScalarLayout.event]
    cases hknown : hasUnknown changed l.maxKnownBit with
    | true => exact .inr ⟨rfl, rfl⟩
    | false =>
      rw [scalarLoop_of_merge hdesc hs hknown (hfeeds.1 l hs hknown) hmerge]
      left
      dsimp only
      cases (ScalarVars.ofValue state).stringValue <;> rfl
  | none =>
    cases ha : FastArrayLayout.detect desc with
    | some l =>
      dsimp only [FastArrayLayout.event]
      by_cases htry : (!hasUnknown changed l.maxKnownBit && changed.isSet l.valueBit.toNat) = true
      · obtain ⟨hknown, hvalue⟩ := Bool.and_eq_true_iff.mp htry
        rw [if_pos htry, if_pos htry, arrayLoop_of_merge hdesc ha (by simpa using hknown) hvalue hmerge]
        exact .inl (if_neg (hfeeds.2 l ha hvalue))
      · rw [if_neg htry, if_neg htry]
        exact .inr ⟨rfl, rfl⟩
    | none =>
      cases he : FastEnumLayout.detect desc with
      | some l =>
        dsimp only [FastEnumLayout.event]
        by_cases htry : (!hasUnknown changed l.maxKnownBit && changed.isSet l.indexBit.toNat) = true
        · obtain ⟨hknown, hindex⟩ := Bool.and_eq_true_iff.mp htry
          rw [if_pos htry, if_pos htry, enumLoop_of_merge hdesc he (by simpa using hknown) hindex hmerge]
          exact .inl rfl
        · rw [if_neg htry, if_neg htry]
          exact .inr ⟨rfl, rfl⟩
      | none => exact .inr ⟨rfl, rfl⟩

end View

/-! ## Runs -/

namespace PvaSession

variable {s : PvaSession} {rid : Int32} {mon : MonitorEntry} {desc : FieldDesc}

/-- The session serves monitor `rid` with the descriptor `desc` and has had an update. -/
structure Serves (s : PvaSession) (rid : Int32) (desc : FieldDesc) (order : ByteOrder) : Prop where
  order : s.byteOrder = order
  monitor : ∃ mon, s.monitors rid = some mon ∧ mon.Ready desc ∧ 0 < mon.updatesReceived

theorem emit_spec (hmon : mon.Ready desc) (event : MonitorEvent) :
    (s.emit rid mon event).1.map TaggedEvent.event = some event ∧
      (s.emit rid mon event).2.Serves rid desc s.byteOrder := by
  refine ⟨rfl, rfl, _, Function.update_self .., ?_, ?_⟩
  · unfold MonitorEntry.resolve
    split_ifs
    · split <;> exact ⟨hmon.typeDesc, hmon.scalar, hmon.array, hmon.enum⟩
    · exact ⟨hmon.typeDesc, hmon.scalar, hmon.array, hmon.enum⟩
  · unfold MonitorEntry.resolve
    split_ifs
    · split <;> exact Nat.succ_pos _
    · exact Nat.succ_pos _

theorem handleMonitorUpdate_eq {payload : List UInt8} {changed : PvaBitSet} {body : PvaReader}
    (hmon : s.monitors rid = some mon) (hdesc : mon.typeDesc = some desc)
    (h : Arrives s.byteOrder payload rid changed body) :
    s.handleMonitorUpdate payload = s.applyUpdate rid mon desc changed body := by
  obtain ⟨hdr, r, hhdr, h⟩ := Read.bind_eq_ok.mp h
  obtain ⟨bits, r', hbits, h⟩ := Read.bind_eq_ok.mp h
  obtain ⟨hout, rfl⟩ := Read.pure_eq_ok.mp h
  obtain ⟨rfl, rfl⟩ := Prod.mk.inj hout
  simp only [handleMonitorUpdate, hhdr, hmon, hdesc, hbits]

/-- A delta's event shows the merged state. -/
theorem delta_step {order : ByteOrder} (hs : s.Serves rid desc order) (hdesc : WellLaidOut desc)
    {payload : List UInt8} {changed : PvaBitSet} {body r : PvaReader} {old state : PvaValue}
    (harrives : Arrives order payload rid changed body) (hdelta : changed.isSet 0 = false)
    (hmerge : mergeRoot changed desc old body = (.ok state, r))
    (hfeeds : FeedsFastPath desc changed state) :
    (s.handleMonitorUpdate payload).1.map TaggedEvent.event = some (view desc changed state) ∧
      (s.handleMonitorUpdate payload).2.Serves rid desc order := by
  obtain ⟨rfl, mon, hmon, hready, hreceived⟩ := hs
  rw [handleMonitorUpdate_eq hmon hready.typeDesc harrives]
  unfold applyUpdate
  rcases fastPath_of_merge hdesc hready hreceived hdelta hfeeds hmerge with hfast | ⟨hfast, hview⟩
  · rw [hfast]
    exact emit_spec hready _
  · rw [hfast]
    simp only [hdelta, Bool.false_eq_true, if_false,
      decodeDeltaRoot_of_merge hdesc.nested hmerge, if_neg hreceived.ne', hview]
    exact emit_spec hready _

/-- The first, full update is sent as it is. -/
theorem full_step (hmon : s.monitors rid = some (mon.setTypeDesc desc)) {payload : List UInt8}
    {changed : PvaBitSet} {body r : PvaReader} {v : PvaValue}
    (harrives : Arrives s.byteOrder payload rid changed body) (hfull : changed.isSet 0 = true)
    (hdecode : decodeFrom desc body = (.ok v, r)) :
    (s.handleMonitorUpdate payload).1.map TaggedEvent.event = some (.value v) ∧
      (s.handleMonitorUpdate payload).2.Serves rid desc s.byteOrder := by
  rw [handleMonitorUpdate_eq hmon rfl harrives]
  have hfast : (mon.setTypeDesc desc).fastPath changed body = (none, body) := by
    simp [MonitorEntry.fastPath, hfull]
  have hready : ({ mon.setTypeDesc desc with lastValue := some v }).Ready desc := ⟨rfl, rfl, rfl, rfl⟩
  unfold applyUpdate
  rw [hfast]
  simp only [hfull, if_true, hdecode]
  split_ifs
  · exact emit_spec hready _
  · exact emit_spec hready _

/-- From a session that serves the monitor, the events of a sequence of deltas. -/
theorem outputs_of_merges {order : ByteOrder} (hdesc : WellLaidOut desc) {old : PvaValue}
    {payloads : List (List UInt8)} {states : List (PvaBitSet × PvaValue)}
    (h : Merges desc order rid old payloads states) (hs : s.Serves rid desc order) :
    (s.outputs payloads).map (Option.map TaggedEvent.event) =
      states.map fun m => some (view desc m.1 m.2) := by
  induction h generalizing s with
  | nil => rfl
  | cons harrives hdelta hmerge hfeeds _ ih =>
    obtain ⟨hevent, hnext⟩ := delta_step hs hdesc harrives hdelta hmerge hfeeds
    rw [outputs, List.map_cons, List.map_cons, hevent, ih hnext]

end PvaSession

/-! ## Main theorem -/

/-- **Main theorem**: one full update and any deltas make one event each; the first
    carries the full value, the others what the merged state shows through their bits.
    What the ingest thread archives of them is what some delta's `view` carries. -/
theorem monitorEvents_eq_view {s : PvaSession} {rid : Int32} {mon : MonitorEntry} {desc : FieldDesc}
    (hmon : s.monitors rid = some (mon.setTypeDesc desc)) (hdesc : WellLaidOut desc)
    {full : List UInt8} {changed : PvaBitSet} {body r : PvaReader} {v : PvaValue}
    (harrives : Arrives s.byteOrder full rid changed body) (hfull : changed.isSet 0 = true)
    (hdecode : decodeFrom desc body = (.ok v, r)) {payloads : List (List UInt8)}
    {states : List (PvaBitSet × PvaValue)} (h : Merges desc s.byteOrder rid v payloads states) :
    (s.outputs (full :: payloads)).map (Option.map TaggedEvent.event) =
        some (.value v) :: states.map (fun m => some (view desc m.1 m.2)) ∧
      ∀ tagged, some tagged ∈ s.outputs (full :: payloads) → ∀ cached row,
        ingestScalarDelta cached tagged = some row →
        ∃ m ∈ states, ∃ time, view desc m.1 m.2 = .scalarDelta row.value time ∧
          row.severity = time.severity.toInt16 ∧ row.status = time.status.toInt16 := by
  have hevents : (s.outputs (full :: payloads)).map (Option.map TaggedEvent.event) =
      some (.value v) :: states.map (fun m => some (view desc m.1 m.2)) := by
    obtain ⟨hevent, hnext⟩ := PvaSession.full_step hmon harrives hfull hdecode
    rw [PvaSession.outputs, List.map_cons, hevent, PvaSession.outputs_of_merges hdesc h hnext]
  refine ⟨hevents, fun tagged htagged cached row hrow => ?_⟩
  have hmem := List.mem_map_of_mem (f := Option.map TaggedEvent.event) htagged
  rw [hevents, Option.map_some, List.mem_cons, List.mem_map] at hmem
  unfold ingestScalarDelta at hrow
  rcases hmem with hfirst | ⟨m, hm, hview⟩
  · rw [Option.some.inj hfirst] at hrow
    cases hrow
  · refine ⟨m, hm, ?_⟩
    rw [Option.some.inj hview]
    cases hevent : tagged.event with
    | scalarDelta value time =>
      rw [hevent] at hrow
      obtain ⟨pvId, -, rfl⟩ := Option.map_eq_some_iff.mp hrow
      exact ⟨time, rfl, rfl, rfl⟩
    | _ => rw [hevent] at hrow; cases hrow

/-! ## A delta without its alarm -/

theorem detectArray_ntScalar (st : ScalarType) : FastArrayLayout.detect (ntScalar st) = none :=
  if_neg (by show ¬"epics:nt/NTScalar:1.0" = _; decide)

theorem detectEnum_ntScalar (st : ScalarType) : FastEnumLayout.detect (ntScalar st) = none :=
  if_neg (by show ¬"epics:nt/NTScalar:1.0" = _; decide)

theorem wellLaidOut_ntScalar (st : ScalarType) : WellLaidOut (ntScalar st) where
  root := rfl
  nested := by
    have hleaf (st : ScalarType) : OnlyStructuresNest (.scalar st) := .leaf _ _ (by simp)
    refine .node _ _ _ (.inl rfl) ?_
    simp only [List.forall_mem_cons, List.not_mem_nil, false_implies, implies_true, and_true]
    refine ⟨hleaf st, .node _ _ _ (.inl rfl) ?_, .node _ _ _ (.inl rfl) ?_⟩ <;> simp [hleaf]
  scalar _ _ := canonical_ntScalar st
  array l h := by rw [detectArray_ntScalar] at h; cases h
  enum l h := by rw [detectEnum_ntScalar] at h; cases h

theorem feedsFastPath_ntScalar {st : ScalarType} {changed : PvaBitSet} (hset : changed.isSet 1 = true)
    (state : PvaValue) : FeedsFastPath (ntScalar st) changed state := by
  refine ⟨fun l hl _ => ?_, fun l hl => ?_⟩
  · obtain ⟨_, _, _, _, hbits⟩ := FastScalarLayout.detect_eq_some hl
    have hbit : l.valueBit.toNat = 1 := by rw [hbits]; rfl
    rw [hbit]
    exact hset
  · rw [detectArray_ntScalar] at hl
    cases hl

/-- A session with one monitor, of a double. -/
def doubleSession : PvaSession where
  byteOrder := .littleEndian
  monitors rid :=
    let mon : MonitorEntry := ⟨"SR:DCCT", none, none, 0, 7, none, none, none⟩
    if rid = 1 then some (mon.setTypeDesc (ntScalar .double)) else none
  pvCache := none
  metadataBuf := none

/-- A full update: 1.5 with severity 2 and status 3, at 10 s and 5 ns. -/
def majorUpdate : List UInt8 :=
  [1, 0, 0, 0, 0] ++ [1, 1] ++ [0, 0, 0, 0, 0, 0, 0xF8, 0x3F] ++ [2, 0, 0, 0] ++ [3, 0, 0, 0] ++ [0] ++
    [10, 0, 0, 0, 0, 0, 0, 0] ++ [5, 0, 0, 0] ++ [0, 0, 0, 0]

/-- A delta with the bits of the value and the time: 2.5 at 11 s and 6 ns. -/
def valueDelta : List UInt8 :=
  [1, 0, 0, 0, 0] ++ [2, 0x82, 1] ++ [0, 0, 0, 0, 0, 0, 0x04, 0x40] ++ [11, 0, 0, 0, 0, 0, 0, 0] ++
    [6, 0, 0, 0]

/-- The merged state after the two still has the alarm of the first. -/
theorem valueDelta_merges : ∃ changed₀ body₀ r₀ v changed state,
    Arrives .littleEndian majorUpdate 1 changed₀ body₀ ∧ changed₀.isSet 0 = true ∧
    decodeFrom (ntScalar .double) body₀ = (.ok v, r₀) ∧
    Merges (ntScalar .double) .littleEndian 1 v [valueDelta] [(changed, state)] ∧
    AlarmTime.ofValue state = ⟨2, 3, 11, 6⟩ := by
  have hrun : (do
      let ((rid₀, changed₀), body₀) ← openUpdate.outcome (.new majorUpdate .littleEndian)
      let (v, _) ← (decodeFrom (ntScalar .double)).outcome body₀
      let ((rid, changed), body) ← openUpdate.outcome (.new valueDelta .littleEndian)
      let (state, _) ← (mergeRoot changed (ntScalar .double) v).outcome body
      return (rid₀, changed₀.isSet 0, rid, changed.isSet 0, changed.isSet 1, AlarmTime.ofValue state)) =
      some (1, true, 1, false, true, ⟨2, 3, 11, 6⟩) := by
    decide +kernel
  obtain ⟨⟨⟨rid₀, changed₀⟩, body₀⟩, hopen₀, hrun⟩ := Option.bind_eq_some_iff.mp hrun
  obtain ⟨⟨v, r₀⟩, hdecode, hrun⟩ := Option.bind_eq_some_iff.mp hrun
  obtain ⟨⟨⟨rid, changed⟩, body⟩, hopen, hrun⟩ := Option.bind_eq_some_iff.mp hrun
  obtain ⟨⟨state, r⟩, hmerge, hrun⟩ := Option.bind_eq_some_iff.mp hrun
  simp only [Option.pure_def, Option.some.injEq, Prod.mk.injEq] at hrun
  obtain ⟨rfl, hfull, rfl, hdelta, hvalue, hstate⟩ := hrun
  exact ⟨changed₀, body₀, r₀, v, changed, state, Read.outcome_eq_some.mp hopen₀, hfull,
    Read.outcome_eq_some.mp hdecode,
    .cons (Read.outcome_eq_some.mp hopen) hdelta (Read.outcome_eq_some.mp hmerge)
      (feedsFastPath_ntScalar hvalue state) (.nil state), hstate⟩

theorem monitorEvents_eq_view_valueDelta :
    ∃ v changed state,
      (doubleSession.outputs [majorUpdate, valueDelta]).map (Option.map TaggedEvent.event) =
        [some (.value v), some (view (ntScalar .double) changed state)] ∧
      AlarmTime.ofValue state = ⟨2, 3, 11, 6⟩ := by
  obtain ⟨changed₀, body₀, r₀, v, changed, state, harrives, hfull, hdecode, hmerges, hstate⟩ :=
    valueDelta_merges
  have hmon : doubleSession.monitors 1 =
      some (MonitorEntry.setTypeDesc ⟨"SR:DCCT", none, none, 0, 7, none, none, none⟩ (ntScalar .double)) :=
    rfl
  obtain ⟨hevents, -⟩ :=
    monitorEvents_eq_view hmon (wellLaidOut_ntScalar .double) harrives hfull hdecode hmerges
  exact ⟨v, changed, state, hevents, hstate⟩

/-- Alarm and time an event carries; an event without data has the defaults. -/
def MonitorEvent.time : MonitorEvent → AlarmTime
  | value v => .ofValue v
  | scalarDelta _ time => time
  | stringDelta _ time => time
  | arrayDelta _ time => time
  | _ => {}

/-- The second update of `doubleSession` says severity 0 and status 0, where the merged
    state has 2 and 3. -/
theorem clearAlarm_reported_zero :
    ¬∀ (s : PvaSession) (rid : Int32) (mon : MonitorEntry) (desc : FieldDesc) (full : List UInt8)
      (changed : PvaBitSet) (body r : PvaReader) (v : PvaValue) (payloads : List (List UInt8))
      (states : List (PvaBitSet × PvaValue)),
      s.monitors rid = some (mon.setTypeDesc desc) → Arrives s.byteOrder full rid changed body →
      changed.isSet 0 = true → decodeFrom desc body = (.ok v, r) →
      Merges desc s.byteOrder rid v payloads states →
      (s.outputs (full :: payloads)).map (Option.map fun tagged => tagged.event.time) =
        some (AlarmTime.ofValue v) :: states.map (fun m => some (AlarmTime.ofValue m.2)) := by
  intro h
  obtain ⟨changed₀, body₀, r₀, v, changed, state, harrives, hfull, hdecode, hmerges, hstate⟩ :=
    valueDelta_merges
  have hstated := h doubleSession 1 _ _ majorUpdate changed₀ body₀ r₀ v [valueDelta]
    [(changed, state)] rfl harrives hfull hdecode hmerges
  have hsent : (doubleSession.outputs [majorUpdate, valueDelta]).map
      (Option.map fun tagged => tagged.event.time) = [some ⟨2, 3, 10, 5⟩, some ⟨0, 0, 11, 6⟩] := by
    decide +kernel
  rw [hsent, List.map_singleton, hstate] at hstated
  exact absurd hstated (by simp)

example : (doubleSession.outputs [majorUpdate, valueDelta]).map
    (fun out => (out.bind (ingestScalarDelta none)).map ScalarRow.severity) = [none, some 0] := by
  decide +kernel

end AuraEpics.Session

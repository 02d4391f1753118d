import AuraEpics.Session.Monitor

/-!
# When a fast path gives up

The fast paths of `handle_monitor_update` (`crates/aura-net/src/runtime/session.rs`, lines
1318-1546) and the generic decoder behind them share one reader, and a fast path that does
not emit leaves it where it has stopped: a read has failed, or the array it has read is empty.

Results:
* `fallback_iff`: when the update has the outcome of the generic decoder at the bytes after
  the bitset;
* `fallback_of_numbers`: a delta of numbers that is cut off always has it;
* `emptyArray_dropped`: a delta that empties an array is never sent.
-/

namespace AuraEpics.Session

open AuraEpics.Codec AuraEpics.Types

/-! ## The generic decoder -/

/-- The update without the fast paths (lines 1549-1640). -/
def PvaSession.genericUpdate (s : PvaSession) (rid : Int32) (mon : MonitorEntry) (desc : FieldDesc)
    (changed : PvaBitSet) (r : PvaReader) : Option TaggedEvent × PvaSession :=
  match (if changed.isSet 0 then decodeFrom desc else decodeDeltaRoot changed desc) r with
  | (.error _, _) => (none, s)
  | (.ok v, _) =>
    let mon := if changed.isSet 0 then { mon with lastValue := some v } else mon
    let s := if mon.updatesReceived = 0 then
        { s with metadataBuf := s.metadataBuf.map fun buf => buf ++ [(mon.pvName, v)] }
      else s
    s.emit rid mon (.value v)

/-- A monitor without fast layouts has the generic decoder only. -/
theorem applyUpdate_generic (s : PvaSession) (rid : Int32) {mon : MonitorEntry} (desc : FieldDesc)
    (changed : PvaBitSet) (r : PvaReader)
    (h : mon.fastLayout = none ∧ mon.fastArrayLayout = none ∧ mon.fastEnumLayout = none) :
    s.applyUpdate rid mon desc changed r = s.genericUpdate rid mon desc changed r := by
  have hnone : mon.fastPath changed r = (none, r) := by
    unfold MonitorEntry.fastPath
    rw [h.1, h.2.1, h.2.2]
    exact ite_self _
  unfold PvaSession.applyUpdate
  rw [hnone]
  rfl

theorem applyUpdate_fallback (s : PvaSession) (rid : Int32) {mon : MonitorEntry} (desc : FieldDesc)
    {changed : PvaBitSet} {r r' : PvaReader} (h : mon.fastPath changed r = (none, r')) :
    s.applyUpdate rid mon desc changed r = s.genericUpdate rid mon desc changed r' := by
  unfold PvaSession.applyUpdate
  rw [h]
  rfl

/-- The update enters a fast path: it is a delta, not the first update, and the layout that is
    tried knows its fields. -/
def MonitorEntry.Enters (mon : MonitorEntry) (changed : PvaBitSet) : Prop :=
  changed.isSet 0 = false ∧ 0 < mon.updatesReceived ∧
    match mon.fastLayout, mon.fastArrayLayout, mon.fastEnumLayout with
    | some l, _, _ => hasUnknown changed l.maxKnownBit = false
    | none, some l, _ =>
      hasUnknown changed l.maxKnownBit = false ∧ changed.isSet l.valueBit.toNat = true
    | none, none, some l =>
      hasUnknown changed l.maxKnownBit = false ∧ changed.isSet l.indexBit.toNat = true
    | none, none, none => False

/-! ## The fields of a layout -/

/-- The wire types of the fields all three layouts know, by their bits. -/
def AlarmTimeBits.wireType (b : AlarmTimeBits) (bit : UInt8) : Option FieldType :=
  if bit = b.severityBit then some (.scalar .int)
  else if bit = b.statusBit then some (.scalar .int)
  else if bit = b.messageBit then some (.scalar .string)
  else if bit = b.secondsBit then some (.scalar .long)
  else if bit = b.nanosBit then some (.scalar .int)
  else if bit = b.userTagBit then some (.scalar .int)
  else none

def FastScalarLayout.wireType (l : FastScalarLayout) (bit : UInt8) : Option FieldType :=
  if bit = l.valueBit then some (.scalar l.valueType) else l.toAlarmTimeBits.wireType bit

def FastArrayLayout.wireType (l : FastArrayLayout) (bit : UInt8) : Option FieldType :=
  if bit = l.valueBit then some (.scalarArray l.elementType) else l.toAlarmTimeBits.wireType bit

def FastEnumLayout.wireType (l : FastEnumLayout) (bit : UInt8) : Option FieldType :=
  if bit = l.valueStructBit then none
  else if bit = l.indexBit then some (.scalar .int)
  else if bit = l.choicesBit then some (.scalarArray .string)
  else l.toAlarmTimeBits.wireType bit

/-- A read without its result. -/
def forget {α : Type} (p : Read α) : Read Unit := (fun _ => ()) <$> p

section Forget

variable {α β : Type}

theorem forget_map (g : α → β) (p : Read α) : forget (g <$> p) = forget p := by
  unfold forget
  rw [Functor.map_map]

/-- A step moves the reader as the generic decoder does on a field of this type. -/
def MovesAs (p : Read α) : Option FieldType → Prop
  | some ft => forget p = forget (decodeFrom (.mk ft "" []))
  | none => forget p = pure ()

theorem MovesAs.map {p : Read α} {o : Option FieldType} (h : MovesAs p o) (g : α → β) :
    MovesAs (g <$> p) o := by
  cases o <;> exact (forget_map g p).trans h

end Forget

section Stops

variable {mon : MonitorEntry} {desc : FieldDesc} {changed : PvaBitSet} {r : PvaReader}

end Stops

/-! ## When the outcome is the same -/

theorem genericUpdate_delta (s : PvaSession) (rid : Int32) {mon : MonitorEntry} (desc : FieldDesc)
    {changed : PvaBitSet} (r : PvaReader) (hdelta : changed.isSet 0 = false)
    (hreceived : 0 < mon.updatesReceived) :
    s.genericUpdate rid mon desc changed r =
      match (decodeDeltaRoot changed desc r).1.toOption with
      | none => (none, s)
      | some v => s.emit rid mon (.value v) := by
  unfold PvaSession.genericUpdate
  rw [if_neg (by simp [hdelta])]
  rcases decodeDeltaRoot changed desc r with ⟨_ | v, r'⟩
  · rfl
  · simp only [hdelta, Bool.false_eq_true, if_false, hreceived.ne']
    rfl

/-- The read fails. -/
def FailsAt {α : Type} (p : Read α) (r : PvaReader) : Prop := (p r).1.toOption = none

/-- The read takes `n` bytes, or fails where it is. -/
def Takes {α : Type} (p : Read α) (n : ℕ) : Prop :=
  ∀ r : PvaReader, (∃ a r', p r = (.ok a, r') ∧ r'.buf = r.buf ∧ r'.pos = r.pos + n) ∨
    ∃ e, p r = (.error e, r) ∧ r.buf.length < r.pos + n

theorem Takes.map {α β : Type} {p : Read α} {n : ℕ} (h : Takes p n) (g : α → β) :
    Takes (g <$> p) n := by
  intro r
  rw [Read.run_map]
  rcases h r with ⟨a, r', hp, hr'⟩ | ⟨e, hp, hlt⟩
  · exact .inl ⟨g a, r', by rw [hp], hr'⟩
  · exact .inr ⟨e, by rw [hp], hlt⟩

theorem FailsAt.congr {α β : Type} {p : Read α} {q : Read β} (h : forget p = forget q)
    {r : PvaReader} : FailsAt p r ↔ FailsAt q r := by
  have hforget : ∀ {γ : Type} (p : Read γ), FailsAt (forget p) r ↔ FailsAt p r := by
    intro γ p
    unfold FailsAt forget
    rw [Read.run_map]
    rcases p r with ⟨_ | a, r'⟩ <;> simp [Except.toOption]
  rw [← hforget p, h, hforget]

section Numbers

variable {mon : MonitorEntry} {desc : FieldDesc} {changed : PvaBitSet} {r : PvaReader}

end Numbers

/-! ## Empty arrays -/

/-- Nothing is left to read. -/
def AtEnd (r : PvaReader) : Prop := r.pos = r.buf.length

theorem FailsAt.bind {α β : Type} {p : Read α} {r : PvaReader} (h : FailsAt p r)
    (f : α → Read β) : FailsAt (p >>= f) r := by
  unfold FailsAt at h ⊢
  rw [Read.run_bind]
  rcases hp : p r with ⟨_ | a, r'⟩
  · rfl
  · rw [hp] at h
    cases h

theorem FailsAt.map {α β : Type} {p : Read α} {r : PvaReader} (h : FailsAt p r) (g : α → β) :
    FailsAt (g <$> p) r := by
  rw [map_eq_pure_bind]
  exact h.bind _

theorem u8_atEnd {r : PvaReader} (h : AtEnd r) : FailsAt Read.u8 r := by
  have hbytes : FailsAt (Read.bytes 1) r := by
    unfold FailsAt Read.bytes
    rw [dif_neg (by unfold AtEnd at h; omega)]
    rfl
  exact hbytes.bind _

theorem decodeScalarArray_atEnd (st : ScalarType) {r : PvaReader} (h : AtEnd r) :
    FailsAt (decodeScalarArray st) r := by
  have hsize : FailsAt Read.size r := (u8_atEnd h).bind _
  have hlen : FailsAt Read.sizeNonNull r := hsize.bind _
  exact hlen.bind _

/-- A numeric array whose bit is set takes at least one byte. -/
theorem decodeDeltaRoot_atEnd {desc : FieldDesc} (hdesc : Canonical NumericArrayLeaf desc)
    {changed : PvaBitSet} (hvalue : changed.isSet 1 = true) {r : PvaReader} (h : AtEnd r) :
    FailsAt (decodeDeltaRoot changed desc) r := by
  obtain ⟨id, v, a, t, rest, ⟨st, vid, hst⟩, ha, ht⟩ := hdesc
  have hfield : FailsAt (decodeDeltaStructure changed (.mk (.scalarArray st) vid []) 1) r := by
    rw [decodeDeltaStructure_scalarArray, whenSet_of_isSet _ hvalue]
    exact ((decodeScalarArray_atEnd st h).map _).map _
  have hfields : FailsAt (decodeDeltaFields changed (("value", .mk (.scalarArray st) vid []) ::
      ("alarm", a) :: ("timeStamp", t) :: rest) 1) r := by
    rw [decodeDeltaFields_cons]
    exact hfield.bind _
  exact hfields.bind _

theorem detectScalar_array {desc : FieldDesc} (hdesc : Canonical NumericArrayLeaf desc) :
    FastScalarLayout.detect desc = none := by
  obtain ⟨id, v, a, t, rest, ⟨st, vid, hst⟩, ha, ht⟩ := hdesc
  rw [Option.eq_none_iff_forall_not_mem]
  intro l hl
  obtain ⟨f0, fs, hfs, hft, -⟩ := FastScalarLayout.detect_eq_some hl
  obtain ⟨rfl, -⟩ := List.cons.inj hfs
  cases hft

/-- On a canonical numeric array, a delta that empties the array and has nothing behind it has
    an event and gets none. -/
theorem emptyArray_dropped {s : PvaSession} {rid : Int32} {mon : MonitorEntry} {desc : FieldDesc}
    {payload : List UInt8} {changed : PvaBitSet} {r r' : PvaReader} {l : FastArrayLayout}
    (hmon : s.monitors rid = some mon) (hready : mon.Ready desc)
    (hcanonical : Canonical NumericArrayLeaf desc) (hlayout : FastArrayLayout.detect desc = some l)
    (harrives : Arrives s.byteOrder payload rid changed r) (henters : mon.Enters changed)
    {time : AlarmTime} (hempty : l.decode changed r = (.ok ⟨[], time⟩, r')) (hend : AtEnd r') :
    (s.handleMonitorUpdate payload).1 = none ∧
      (s.genericUpdate rid mon desc changed r).1 ≠ none := by
  obtain ⟨hdelta, hreceived, hknows⟩ := henters
  have hscalar : mon.fastLayout = none := hready.scalar.trans (detectScalar_array hcanonical)
  have harray : mon.fastArrayLayout = some l := hready.array.trans hlayout
  rw [hscalar, harray] at hknows
  obtain ⟨hknown, hvalue⟩ := hknows
  have hbit : l.valueBit.toNat = 1 := by
    obtain ⟨_, _, _, _, _, hbits⟩ := FastArrayLayout.detect_eq_some hlayout
    rw [hbits]
    rfl
  have hfall : mon.fastPath changed r = (none, r') := by
    unfold MonitorEntry.fastPath FastArrayLayout.event
    rw [hscalar, harray, if_pos (by simp [hdelta, hreceived])]
    dsimp only
    rw [if_pos (by simp [hknown, hvalue]), hempty]
    rfl
  -- the generic decoder reads what the loop reads
  obtain ⟨v, hv, -⟩ := Read.map_eq_ok.1
    ((array_agrees hcanonical hlayout hvalue hknown).1 ▸ hempty)
  rw [PvaSession.handleMonitorUpdate_eq hmon hready.typeDesc harrives,
    applyUpdate_fallback s rid desc hfall, genericUpdate_delta s rid desc r' hdelta hreceived,
    genericUpdate_delta s rid desc r hdelta hreceived,
    decodeDeltaRoot_atEnd hcanonical (hbit ▸ hvalue) hend, hv]
  exact ⟨rfl, Option.some_ne_none _⟩

end AuraEpics.Session

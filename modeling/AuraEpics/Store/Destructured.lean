import AuraEpics.Core.Serialize
import AuraEpics.Store.Routing

/-!
# Element tables

NTNameValue, NTHistogram, NTContinuum and NTMultiChannel values are stored one row per
element. The value is serialised to a JSON tree (`Core.Serialize`) and the COPY builders
(`crates/aura-store/src/writer/json.rs`, lines 487-740) look the columns up in that tree by
name; this module puts the two together.

Result: `emitsElements_iff`, the rows a builder emits for a value are its elements, in
order and under their own index, exactly for the values of `Kept`. Only of an NTContinuum
does a builder find the columns.
-/

namespace AuraEpics.Store

open Numeric AuraEpics.Core AuraEpics.Types JsonRow

/-- A value stored element by element. -/
inductive Destructured where
  | nameValue (nt : NTNameValue)
  | histogram (nt : NTHistogram)
  | continuum (nt : NTContinuum)
  | multi (nt : NTMultiChannel)

namespace Destructured

/-- The value as a Normative Type. -/
def toNt : Destructured → NormativeType
  | nameValue nt => .ntNameValue nt
  | histogram nt => .ntHistogram nt
  | continuum nt => .ntContinuum nt
  | multi nt => .ntMultiChannel nt

/-- `serde_json::to_value` of the value. -/
def toValue : Destructured → Json
  | nameValue nt => nt.toValue
  | histogram nt => nt.toValue
  | continuum nt => nt.toValue
  | multi nt => nt.toValue

/-- The table of the value. -/
def table : Destructured → JsonTable
  | nameValue _ => .nameValue
  | histogram _ => .histogram
  | continuum _ => .continuum
  | multi _ => .multi

/-- `JsonRow::namevalue`, `histogram`, `continuum` and `multi` (json.rs, lines 219-286) of
    the serialised value. -/
def row (d : Destructured) (time : DateTime) (pvId : Int32) (severity status : Int16) : JsonRow :=
  ⟨time, pvId, d.table, .parsed d.toValue, none, severity, status⟩

/-- The slow path of the ingest thread makes this row. -/
theorem slowPathRow_eq_row {f : Formats} (d : Destructured) (hf : f.toValue d.toNt = .ok d.toValue)
    (name : String) (id : Option Int32) (pvId : Int32) :
    let u : PvUpdate := ⟨name, id, d.toNt⟩
    slowPathRow f u pvId =
      some (.other (.json (d.row u.timestamp pvId u.severity u.status))) := by
  intro u
  cases d with
  | nameValue nt | histogram nt | continuum nt | multi nt =>
    show ((f.toValue _).toOption.bind fun v => _) = _
    rw [show f.toValue _ = _ from hf]
    rfl

/-- The rows `build_*_payload` emits for a buffer that holds the value's row. -/
def emitted (d : Destructured) (cid : Int64) (time : DateTime) (pvId : Int32)
    (severity status : Int16) : List CopyRow :=
  (d.table.build cid [d.row time pvId severity status]).1.getD []

/-- The value has `k` elements: `k` names and values; `k` bins with a range each; `k` base
    points and the values of one or more traces at each; `k` channels with their values and
    severities. -/
def HasElements (k : ℕ) : Destructured → Prop
  | nameValue nt => nt.name.length = k ∧ nt.value.len = k
  | histogram nt => nt.value.asI64Vec.length = k ∧ k ≤ nt.ranges.length
  | continuum nt => nt.base.length = k ∧ ∃ traces, 0 < traces ∧ nt.value.length = k * traces
  | multi nt => nt.channelName.length = k ∧ nt.values.length = k ∧ nt.severity.length = k

/-- The row is element `i` of the value: its index is `i`, and its other columns are the
    element's own name, value, range, count or severity. -/
def IsElement (d : Destructured) (i : ℕ) (r : CopyRow) : Prop :=
  match d, r with
  | nameValue nt, .nv _ _ _ idx name value _ _ =>
    idx.toInt = i ∧ nt.name[i]? = some name ∧ (nt.value.asF64Vec.bind (·[i]?)) = some value
  | histogram nt, .hist _ _ _ idx range count _ _ =>
    idx.toInt = i ∧ nt.ranges[i]? = some range ∧ nt.value.asI64Vec[i]? = some count
  | continuum nt, .cont _ _ _ idx base trace _ _ =>
    idx.toInt = i ∧ nt.base[i]? = some base ∧ ∃ t < nt.traceCount, nt.get i t = some trace
  | multi nt, .mch _ _ _ idx name value severity _ _ =>
    idx.toInt = i ∧ nt.channelName[i]? = some name ∧
      (nt.values[i]?.bind ScalarValue.asF64) = some value ∧
      nt.severity[i]?.map AlarmSeverity.toI16 = some severity
  | _, _ => False

/-- The rows are the `k` elements of the value, in order. -/
def EmitsElements (d : Destructured) (k : ℕ) (rows : List CopyRow) : Prop :=
  rows.length = k ∧ ∀ i < k, ∃ r, rows[i]? = some r ∧ d.IsElement i r

/-- What is written for a float: a NaN or an infinity becomes 0. -/
def written (x : Binary64) : Binary64 := if x.isFinite then x else .zero

/-- The values whose elements are stored: an NTContinuum of at most 2^15 points with finite
    base, where the number written for `value[i]` is one that point `i` has on a trace; and
    values without elements. -/
def Kept (k : ℕ) : Destructured → Prop
  | continuum nt =>
    k ≤ 2 ^ 15 ∧ (∀ x ∈ nt.base, x.isFinite) ∧
      ∀ i < k, ∃ t < nt.traceCount, nt.get i t = nt.value[i]?.map written
  | _ => k = 0

/-! ## What the builders emit -/

/-- For a buffer of one row of its table a builder emits what the row expands to. -/
theorem buildPayload_single (r : JsonRow) {t : JsonTable} (ht : r.table = t) (draws : Bool)
    (expand : Int64 → JsonRow → List CopyRow) (cid : Int64) :
    (buildPayload t draws expand cid [r]).1.getD [] = expand cid r := by
  have hrows : ([r].filter fun r' => r'.table = t) = [r] := by simp [ht]
  unfold buildPayload
  rw [hrows]
  simp only [expandRows, List.append_nil, List.cons_ne_nil, if_false]
  by_cases hempty : expand cid r = []
  · rw [if_pos hempty, hempty]
    rfl
  · rw [if_neg hempty]
    rfl

theorem emitted_eq_expand (d : Destructured) (cid : Int64) (time : DateTime) (pvId : Int32)
    (severity status : Int16) :
    d.emitted cid time pvId severity status =
      (d.row time pvId severity status).expand cid := by
  have hsingle := buildPayload_single (d.row time pvId severity status) rfl true
  cases d with
  | nameValue nt => exact hsingle JsonRow.expandNv cid
  | histogram nt => exact hsingle JsonRow.expandHist cid
  | continuum nt => exact hsingle JsonRow.expandCont cid
  | multi nt => exact hsingle JsonRow.expandMch cid

/-- A builder that does not find its columns emits nothing. -/
theorem destructure_row_eq_nil (d : Destructured) {cols : Json → Option (List Json × List Json)}
    (h : cols d.toValue = none) (mk : Json → ℕ → Json → Json → CopyRow) (time : DateTime)
    (pvId : Int32) (severity status : Int16) :
    (d.row time pvId severity status).destructure cols mk = [] := by
  have hvalue : (d.row time pvId severity status).data.asValue = some d.toValue := rfl
  unfold JsonRow.destructure
  rw [hvalue]
  dsimp only
  rw [h]

theorem nvColumns_toValue (nt : NTNameValue) : nvColumns nt.toValue = none := by
  show (nt.value.toValue.asArray.bind fun values => _) = none
  rw [ArrayValue.toValue_asArray]
  rfl

theorem histColumns_toValue (nt : NTHistogram) : histColumns nt.toValue = none := by
  show ((nt.value.toValue.asArray.or none).bind fun counts => _) = none
  rw [HistogramValue.toValue_asArray]
  rfl

theorem mchColumns_toValue (nt : NTMultiChannel) : mchColumns nt.toValue = none := rfl

/-- The rows of an NTContinuum. -/
theorem emitted_continuum (nt : NTContinuum) (cid : Int64) (time : DateTime) (pvId : Int32)
    (severity status : Int16) :
    (continuum nt).emitted cid time pvId severity status =
      (nt.base.zip nt.value).zipIdx.map fun p =>
        .cont (pgMicros time) pvId cid (.ofNat p.2) (written p.1.1) (written p.1.2) severity
          status := by
  rw [emitted_eq_expand]
  show (((nt.base.map Json.ofF64).zip (nt.value.map Json.ofF64)).zipIdx.map fun p => _) = _
  rw [List.zip_map, List.zipIdx_map, List.map_map]
  refine List.map_congr_left fun p _ => ?_
  show CopyRow.cont _ _ _ _ ((Json.ofF64 p.1.1).asF64.getD .zero)
    ((Json.ofF64 p.1.2).asF64.getD .zero) _ _ = _
  rw [Json.asF64_ofF64, Json.asF64_ofF64]
  rfl

/-- The index of a row is an `i16`. -/
theorem toInt_ofNat_iff (i : ℕ) : (Int16.ofNat i).toInt = i ↔ i < 2 ^ 15 := by
  constructor
  · intro h
    have hlt := Int16.toInt_lt (Int16.ofNat i)
    omega
  · intro h
    exact Int16.toInt_ofNat_of_lt h

theorem written_eq_iff (x : Binary64) : written x = x ↔ x.isFinite := by
  unfold written
  split_ifs with hfinite
  · exact iff_of_true rfl hfinite
  · refine iff_of_false (fun h => hfinite ?_) hfinite
    rw [← h]
    decide

/-! ## Main theorem -/

theorem emitted_of_not_continuum (d : Destructured) (h : ∀ nt, d ≠ continuum nt) (cid : Int64)
    (time : DateTime) (pvId : Int32) (severity status : Int16) :
    d.emitted cid time pvId severity status = [] := by
  rw [emitted_eq_expand]
  cases d with
  | nameValue nt =>
    show JsonRow.expandNv cid _ = []
    exact destructure_row_eq_nil (nameValue nt) (nvColumns_toValue nt) _ time pvId severity status
  | histogram nt =>
    show JsonRow.expandHist cid _ = []
    exact destructure_row_eq_nil (histogram nt) (histColumns_toValue nt) _ time pvId severity status
  | continuum nt => exact absurd rfl (h nt)
  | multi nt =>
    show JsonRow.expandMch cid _ = []
    exact destructure_row_eq_nil (multi nt) (mchColumns_toValue nt) _ time pvId severity status

/-- Of an NTContinuum row `i` has the number written for `base[i]` and `value[i]`. -/
theorem emitted_continuum_get {nt : NTContinuum} {k : ℕ} (h : (continuum nt).HasElements k)
    (cid : Int64) (time : DateTime) (pvId : Int32) (severity status : Int16) {i : ℕ} (hi : i < k) :
    ∃ base value, nt.base[i]? = some base ∧ nt.value[i]? = some value ∧
      ((continuum nt).emitted cid time pvId severity status)[i]? =
        some (.cont (pgMicros time) pvId cid (.ofNat i) (written base) (written value) severity
          status) := by
  obtain ⟨hbase, traces, htraces, hvalue⟩ := h
  have hle : k ≤ nt.value.length := by
    rw [hvalue]
    exact Nat.le_mul_of_pos_right k htraces
  have hb : i < nt.base.length := by omega
  have hv : i < nt.value.length := by omega
  refine ⟨nt.base[i], nt.value[i], List.getElem?_eq_getElem hb, List.getElem?_eq_getElem hv, ?_⟩
  have hzip : (nt.base.zip nt.value)[i]? = some (nt.base[i], nt.value[i]) :=
    List.getElem?_zip_eq_some.mpr ⟨List.getElem?_eq_getElem hb, List.getElem?_eq_getElem hv⟩
  rw [emitted_continuum, List.getElem?_map, List.getElem?_zipIdx, hzip]
  simp only [Option.map_some, Nat.zero_add]

/-- Row `i` of an NTContinuum is its element `i` under these conditions. -/
theorem continuum_isElement_iff {nt : NTContinuum} {i : ℕ} {base value : Binary64}
    (hbase : nt.base[i]? = some base) (hvalue : nt.value[i]? = some value) (pgUs : Int64)
    (pvId : Int32) (cid : Int64) (severity status : Int16) :
    (continuum nt).IsElement i
        (.cont pgUs pvId cid (.ofNat i) (written base) (written value) severity status) ↔
      i < 2 ^ 15 ∧ base.isFinite ∧
        ∃ t < nt.traceCount, nt.get i t = nt.value[i]?.map written := by
  show (Int16.ofNat i).toInt = i ∧ nt.base[i]? = some (written base) ∧
    (∃ t < nt.traceCount, nt.get i t = some (written value)) ↔ _
  rw [toInt_ofNat_iff, hbase, hvalue, Option.some.injEq, eq_comm, written_eq_iff]
  rfl

/-- **Main theorem**: for a value of `k` elements the builder of its table emits these `k`
    elements, in order, exactly if the value is kept. -/
theorem emitsElements_iff (d : Destructured) (k : ℕ) (h : d.HasElements k) (cid : Int64)
    (time : DateTime) (pvId : Int32) (severity status : Int16) :
    d.EmitsElements k (d.emitted cid time pvId severity status) ↔ d.Kept k := by
  by_cases hcont : ∃ nt, d = continuum nt
  · obtain ⟨nt, rfl⟩ := hcont
    have hget {i : ℕ} (hi : i < k) := emitted_continuum_get h cid time pvId severity status hi
    constructor
    · rintro ⟨-, helements⟩
      have hall : ∀ i < k, i < 2 ^ 15 ∧ (∀ x, nt.base[i]? = some x → x.isFinite) ∧
          ∃ t < nt.traceCount, nt.get i t = nt.value[i]?.map written := by
        intro i hi
        obtain ⟨base, value, hbase, hvalue, hrow⟩ := hget hi
        obtain ⟨r, hr, helement⟩ := helements i hi
        cases hrow.symm.trans hr
        obtain ⟨hidx, hfinite, htrace⟩ := (continuum_isElement_iff hbase hvalue _ _ _ _ _).mp helement
        refine ⟨hidx, fun x hx => ?_, htrace⟩
        cases hbase.symm.trans hx
        exact hfinite
      refine ⟨?_, fun x hx => ?_, fun i hi => (hall i hi).2.2⟩
      · by_contra hlarge
        have hlast := (hall (2 ^ 15) (by omega)).1
        omega
      · obtain ⟨i, hi, hix⟩ := List.getElem_of_mem hx
        have hbase : nt.base[i]? = some x := by rw [List.getElem?_eq_getElem hi, hix]
        exact (hall i (h.1 ▸ hi)).2.1 x hbase
    · rintro ⟨hsmall, hfinite, htrace⟩
      refine ⟨?_, fun i hi => ?_⟩
      · obtain ⟨hbase, traces, htraces, hvalue⟩ := h
        rw [emitted_continuum, List.length_map, List.length_zipIdx, List.length_zip, hbase, hvalue]
        exact Nat.min_eq_left (Nat.le_mul_of_pos_right k htraces)
      · obtain ⟨base, value, hbase, hvalue, hrow⟩ := hget hi
        refine ⟨_, hrow, (continuum_isElement_iff hbase hvalue _ _ _ _ _).mpr ?_⟩
        exact ⟨by omega, hfinite base (List.mem_of_getElem? hbase), htrace i hi⟩
  · have hother : ∀ nt, d ≠ continuum nt := fun nt hnt => hcont ⟨nt, hnt⟩
    rw [emitted_of_not_continuum d hother]
    have hkept : d.Kept k ↔ k = 0 := by
      cases d with
      | continuum nt => exact absurd rfl (hother nt)
      | _ => exact Iff.rfl
    rw [hkept]
    constructor
    · intro hemits
      exact hemits.1.symm
    · intro hk
      exact ⟨hk.symm, fun i hi => absurd hi (by omega)⟩

/-- A trace of three finite points is stored point by point. -/
theorem emitsElements_trace :
    let nt : NTContinuum := ⟨[.ofInt 0, .ofInt 1, .ofInt 2], [.ofInt 7, .ofInt (-1), .ofInt 0], ["s", "V"],
      "", .default, ⟨0, 0, 0⟩⟩
    (continuum nt).HasElements 3 ∧
      (continuum nt).EmitsElements 3 ((continuum nt).emitted 1 .epoch 4 0 0) := by
  intro nt
  have helements : (continuum nt).HasElements 3 := ⟨rfl, 1, by decide, rfl⟩
  refine ⟨helements, (emitsElements_iff _ 3 helements 1 .epoch 4 0 0).mpr ?_⟩
  show 3 ≤ 2 ^ 15 ∧ (∀ x ∈ nt.base, x.isFinite) ∧
    ∀ i < 3, ∃ t < nt.traceCount, nt.get i t = nt.value[i]?.map written
  decide +kernel

/-- One name with its value: the builder finds no array under `value` and emits nothing. -/
theorem nameValue_emits_nothing :
    let nt : NTNameValue := ⟨["gain"], .doubleArray [.one], "", .default, ⟨0, 0, 0⟩⟩
    (nameValue nt).HasElements 1 ∧ (nameValue nt).emitted 1 .epoch 4 0 0 = [] ∧
      ¬∀ (d : Destructured) (k : ℕ), d.HasElements k → ∀ (cid : Int64) (time : DateTime)
        (pvId : Int32) (severity status : Int16),
        d.EmitsElements k (d.emitted cid time pvId severity status) := by
  intro nt
  have helements : (nameValue nt).HasElements 1 := ⟨rfl, rfl⟩
  refine ⟨helements, emitted_of_not_continuum _ (by simp) 1 .epoch 4 0 0, fun hstated => ?_⟩
  have hlen := (hstated (nameValue nt) 1 helements 1 .epoch 4 0 0).1
  rw [emitted_of_not_continuum _ (by simp)] at hlen
  exact absurd hlen (by decide)

end Destructured

end AuraEpics.Store

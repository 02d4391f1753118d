import AuraEpics.Core.Serialize
import AuraEpics.Types.PvaValue

/-!
# JSON form of a wire value

Model of `pva_value_to_json` (`crates/aura-net/src/types/to_normative.rs`, lines 481-525), which
values of unknown types are archived with. `serde_json::Map` is an ordered map: its members are
kept in the order of their names, and of two values for one name the last is kept.

A scalar and an element of an array take different code (`scalarJson`, `elementJson`).

Result: `jsonFaithful_iff`.
-/

namespace AuraEpics.Types

open Numeric AuraEpics.Core

/-- `Map::insert`. -/
def insertMember (name : String) (v : Json) : List (String × Json) → List (String × Json)
  | [] => [(name, v)]
  | m :: ms =>
    if name < m.1 then (name, v) :: m :: ms
    else if name = m.1 then (name, v) :: ms
    else m :: insertMember name v ms

/-- `collect` into a `Map`. -/
def collectMembers (fields : List (String × Json)) : List (String × Json) :=
  fields.foldl (fun ms f => insertMember f.1 f.2 ms) []

/-- The `Scalar` branch (lines 483-496). -/
def scalarJson : ScalarValue → Json
  | .boolean v => .bool v
  | .string v => .string v
  | .float v => (ScalarValue.asF64 (.float v)).elim .null .ofF64
  | .double v => (ScalarValue.asF64 (.double v)).elim .null .ofF64
  | s => s.asI64.elim .null .ofI64

/-- The closure of the `ScalarArray` branch (lines 499-507). -/
def elementJson : ScalarValue → Json
  | .string v => .string v
  | .boolean v => .bool v
  | s => ((s.asI64.map Json.ofI64).or (s.asF64.map Json.ofF64)).getD .null

mutual

/-- `pva_value_to_json` (lines 481-525). -/
def pvaValueToJson : PvaValue → Json
  | .scalar s => scalarJson s
  | .scalarArray vs => .array (vs.map elementJson)
  | .struct fs => .object (collectMembers (fieldsToJson fs))
  | .union name v => .object (insertMember name (pvaValueToJson v) [])
  | .null => .null

/-- The loop over the fields (lines 511-514). -/
def fieldsToJson : List (String × PvaValue) → List (String × Json)
  | [] => []
  | (name, v) :: fs => (name, pvaValueToJson v) :: fieldsToJson fs

end

theorem fieldsToJson_eq (fs : List (String × PvaValue)) :
    fieldsToJson fs = fs.map fun f => (f.1, pvaValueToJson f.2) := by
  induction fs with
  | nil => rw [fieldsToJson, List.map_nil]
  | cons f fs ih =>
    obtain ⟨name, v⟩ := f
    rw [fieldsToJson, ih, List.map_cons]

/-! ## Objects -/

theorem insertMember_perm {name : String} {v : Json} {ms : List (String × Json)}
    (h : name ∉ ms.map Prod.fst) : (insertMember name v ms).Perm ((name, v) :: ms) := by
  induction ms with
  | nil => exact List.Perm.refl _
  | cons m ms ih =>
    obtain ⟨hne, hfresh⟩ : name ≠ m.1 ∧ name ∉ ms.map Prod.fst := by simpa using h
    unfold insertMember
    split_ifs
    · exact List.Perm.refl _
    · exact ((ih hfresh).cons m).trans (List.Perm.swap _ _ _)

theorem foldl_insertMember_perm {fields ms : List (String × Json)}
    (h : ((ms ++ fields).map Prod.fst).Nodup) :
    (fields.foldl (fun ms f => insertMember f.1 f.2 ms) ms).Perm (ms ++ fields) := by
  induction fields generalizing ms with
  | nil => rw [List.foldl_nil, List.append_nil]
  | cons f fs ih =>
    have hmiddle : (ms ++ f :: fs).Perm (f :: ms ++ fs) := List.perm_middle
    have hnodup := (hmiddle.map Prod.fst).nodup_iff.1 h
    have hfresh : f.1 ∉ ms.map Prod.fst := by
      intro hmem
      obtain ⟨g, hg, hname⟩ := List.mem_map.1 hmem
      apply (List.nodup_cons.1 hnodup).1
      exact List.mem_map.2 ⟨g, List.mem_append_left _ hg, hname⟩
    have hinsert : (insertMember f.1 f.2 ms).Perm (f :: ms) := insertMember_perm hfresh
    have hnext : ((insertMember f.1 f.2 ms ++ fs).map Prod.fst).Nodup :=
      ((hinsert.append_right fs).map Prod.fst).nodup_iff.2 hnodup
    exact (ih hnext).trans ((hinsert.append_right fs).trans hmiddle.symm)

theorem collectMembers_perm {fields : List (String × Json)}
    (h : (fields.map Prod.fst).Nodup) : (collectMembers fields).Perm fields :=
  foldl_insertMember_perm h

/-! ## Numbers -/

/-- The integer a JSON number denotes. -/
def integerOf : Json → Option ℤ
  | .number (.posInt n) => some n.toNat
  | .number (.negInt n) => some n.toInt
  | _ => none

/-- The integer of a scalar of an integer type. -/
def ScalarValue.integer : ScalarValue → Option ℤ
  | byte v => some v.toInt
  | ubyte v => some v.toNat
  | short v => some v.toInt
  | ushort v => some v.toNat
  | int v => some v.toInt
  | uint v => some v.toNat
  | long v => some v.toInt
  | ulong v => some v.toNat
  | _ => none

/-- The float of a scalar of a float type. -/
def ScalarValue.floating : ScalarValue → Option Binary64
  | float v => some (.ofBinary32 v)
  | double v => some v
  | _ => none

/-- A ULong that `as i64` makes negative. -/
def ScalarValue.Wraps (s : ScalarValue) : Prop := ∃ n, s = ulong n ∧ 2 ^ 63 ≤ n.toNat

theorem integerOf_ofI64 (x : Int64) : integerOf (.ofI64 x) = some x.toInt := by
  unfold Json.ofI64
  split_ifs with h
  · rfl
  · have hnonneg : 0 ≤ x.toInt := by
      rw [Int64.lt_iff_toInt_lt] at h
      exact Int.not_lt.1 h
    show some ((x.toUInt64.toNat : ℕ) : ℤ) = _
    rw [Int64.toNat_toUInt64_of_le (Int64.le_iff_toInt_le.2 hnonneg), Int64.toNatClampNeg,
      Int.toNat_of_nonneg hnonneg]

theorem toInt_toInt64 (n : UInt64) :
    n.toInt64.toInt = if n.toNat < 2 ^ 63 then (n.toNat : ℤ) else n.toNat - 2 ^ 64 := by
  show n.toBitVec.toInt = _
  rw [BitVec.toInt_eq_toNat_cond]
  show (if 2 * n.toNat < 2 ^ 64 then _ else _) = _
  split_ifs <;> first | rfl | omega

theorem toInt_toInt64_of_lt {n : UInt64} (h : n.toNat < 2 ^ 63) : n.toInt64.toInt = n.toNat := by
  rw [toInt_toInt64, if_pos h]

/-- Scalar and element of an integer type are the JSON number of the same `i64`, which is the
    integer unless the cast wraps. -/
theorem json_of_integer {s : ScalarValue} {n : ℤ} (h : s.integer = some n) :
    ∃ i : Int64, scalarJson s = .ofI64 i ∧ elementJson s = .ofI64 i ∧ (i.toInt = n ↔ ¬s.Wraps) := by
  -- only a ULong wraps
  have hkept : ∀ {i : Int64}, (∀ m, s ≠ .ulong m) → some i.toInt = s.integer →
      (i.toInt = n ↔ ¬s.Wraps) := by
    intro i hs hi
    have heq : i.toInt = n := Option.some.inj (hi.trans h)
    refine iff_of_true heq ?_
    rintro ⟨m, rfl, -⟩
    exact hs m rfl
  cases s with
  | byte v => exact ⟨v.toInt64, rfl, rfl, hkept nofun (by simp [ScalarValue.integer])⟩
  | short v => exact ⟨v.toInt64, rfl, rfl, hkept nofun (by simp [ScalarValue.integer])⟩
  | int v => exact ⟨v.toInt64, rfl, rfl, hkept nofun (by simp [ScalarValue.integer])⟩
  | long v => exact ⟨v, rfl, rfl, hkept nofun rfl⟩
  | ubyte v =>
    have hlt : v.toNat < 2 ^ 8 := v.toNat_lt
    refine ⟨v.toUInt64.toInt64, rfl, rfl, hkept nofun ?_⟩
    rw [toInt_toInt64_of_lt (by rw [UInt8.toNat_toUInt64]; omega), UInt8.toNat_toUInt64]
    rfl
  | ushort v =>
    have hlt : v.toNat < 2 ^ 16 := v.toNat_lt
    refine ⟨v.toUInt64.toInt64, rfl, rfl, hkept nofun ?_⟩
    rw [toInt_toInt64_of_lt (by rw [UInt16.toNat_toUInt64]; omega), UInt16.toNat_toUInt64]
    rfl
  | uint v =>
    have hlt : v.toNat < 2 ^ 32 := v.toNat_lt
    refine ⟨v.toUInt64.toInt64, rfl, rfl, hkept nofun ?_⟩
    rw [toInt_toInt64_of_lt (by rw [UInt32.toNat_toUInt64]; omega), UInt32.toNat_toUInt64]
    rfl
  | ulong v =>
    refine ⟨v.toInt64, rfl, rfl, ?_⟩
    have hn : (v.toNat : ℤ) = n := Option.some.inj h
    have hwraps : (ScalarValue.ulong v).Wraps ↔ 2 ^ 63 ≤ v.toNat := by
      simp [ScalarValue.Wraps]
    rw [toInt_toInt64, hwraps]
    split_ifs <;> omega
  | _ => cases h

theorem ofI64_ne_ofF64 (i : Int64) (x : Binary64) : Json.ofI64 i ≠ .ofF64 x := by
  unfold Json.ofI64 Json.ofF64
  split_ifs <;> simp

/-- An element of a float type goes through `as_i64`, a scalar does not. -/
theorem elementJson_eq_iff (s : ScalarValue) :
    elementJson s = scalarJson s ↔ s.floating = none := by
  cases s with
  | float v => exact iff_of_false (ofI64_ne_ofF64 _ _) (by simp [ScalarValue.floating])
  | double v => exact iff_of_false (ofI64_ne_ofF64 _ _) (by simp [ScalarValue.floating])
  | _ => exact iff_of_true rfl rfl

/-! ## What is kept -/

mutual

/-- A value and all values in it. -/
def PvaValue.parts : PvaValue → List PvaValue
  | .struct fs => .struct fs :: fieldParts fs
  | .union name v => .union name v :: v.parts
  | .scalar s => [.scalar s]
  | .scalarArray vs => [.scalarArray vs]
  | .null => [.null]

/-- The values in the fields of a structure. -/
def fieldParts : List (String × PvaValue) → List PvaValue
  | [] => []
  | (_, v) :: fs => v.parts ++ fieldParts fs

end

/-- An array or a structure becomes the JSON of its parts, and a number keeps its value. -/
structure JsonFaithful (v : PvaValue) : Prop where
  array : ∀ vs, v = .scalarArray vs →
    pvaValueToJson v = .array (vs.map fun s => pvaValueToJson (.scalar s))
  object : ∀ fs, v = .struct fs → (fs.map Prod.fst).Nodup →
    ∃ ms, pvaValueToJson v = .object ms ∧ ms.Perm (fs.map fun f => (f.1, pvaValueToJson f.2))
  scalarInteger : ∀ s n, v = .scalar s → s.integer = some n → integerOf (pvaValueToJson v) = some n
  elementInteger : ∀ vs js, v = .scalarArray vs → pvaValueToJson v = .array js →
    ∀ (i : ℕ) s n, vs[i]? = some s → s.integer = some n → js[i]?.bind integerOf = some n
  elementFloat : ∀ vs js, v = .scalarArray vs → pvaValueToJson v = .array js →
    ∀ (i : ℕ) s x, vs[i]? = some s → s.floating = some x → x.isFinite = true →
      js[i]? = some (.number (.float x))

mutual

/-- No ULong above the range of `i64`, and no float in an array, however deep in the value. -/
def Lossless : PvaValue → Prop
  | .scalar s => ¬s.Wraps
  | .scalarArray vs => ∀ s ∈ vs, s.floating = none ∧ ¬s.Wraps
  | .struct fs => LosslessFields fs
  | .union _ v => Lossless v
  | .null => True

/-- The same of all fields of a structure. -/
def LosslessFields : List (String × PvaValue) → Prop
  | [] => True
  | (_, v) :: fs => Lossless v ∧ LosslessFields fs

end

theorem integerOf_json_iff {s : ScalarValue} {n : ℤ} (h : s.integer = some n) :
    (integerOf (scalarJson s) = some n ↔ ¬s.Wraps) ∧
      (integerOf (elementJson s) = some n ↔ ¬s.Wraps) := by
  obtain ⟨i, hscalar, helement, hi⟩ := json_of_integer h
  rw [hscalar, helement, integerOf_ofI64, Option.some_inj]
  exact ⟨hi, hi⟩

theorem integer_of_wraps {s : ScalarValue} (h : s.Wraps) : ∃ n, s.integer = some n := by
  obtain ⟨n, rfl, -⟩ := h
  exact ⟨n.toNat, rfl⟩

theorem pvaValueToJson_scalar (s : ScalarValue) : pvaValueToJson (.scalar s) = scalarJson s := by
  rw [pvaValueToJson]

theorem pvaValueToJson_scalarArray (vs : List ScalarValue) :
    pvaValueToJson (.scalarArray vs) = .array (vs.map elementJson) := by
  rw [pvaValueToJson]

theorem jsonFaithful_scalar_iff (s : ScalarValue) : JsonFaithful (.scalar s) ↔ ¬s.Wraps := by
  constructor
  · intro h hwraps
    obtain ⟨n, hn⟩ := integer_of_wraps hwraps
    have hvalue := h.scalarInteger s n rfl hn
    rw [pvaValueToJson_scalar, (integerOf_json_iff hn).1] at hvalue
    exact hvalue hwraps
  · intro hwraps
    refine ⟨nofun, nofun, ?_, nofun, nofun⟩
    rintro t n heq hn
    cases heq
    rw [pvaValueToJson_scalar, (integerOf_json_iff hn).1]
    exact hwraps

theorem jsonFaithful_scalarArray_iff (vs : List ScalarValue) :
    JsonFaithful (.scalarArray vs) ↔ ∀ s ∈ vs, s.floating = none ∧ ¬s.Wraps := by
  have hparts : vs.map elementJson = vs.map scalarJson ↔ ∀ s ∈ vs, s.floating = none := by
    rw [List.map_inj_left]
    exact forall₂_congr fun s _ => elementJson_eq_iff s
  have hscalars : (vs.map fun s => pvaValueToJson (.scalar s)) = vs.map scalarJson :=
    List.map_congr_left fun s _ => pvaValueToJson_scalar s
  constructor
  · intro h s hs
    have harray := h.array vs rfl
    rw [pvaValueToJson_scalarArray, hscalars, Json.array.injEq, hparts] at harray
    refine ⟨harray s hs, fun hwraps => ?_⟩
    obtain ⟨n, hn⟩ := integer_of_wraps hwraps
    obtain ⟨i, hi⟩ := List.mem_iff_getElem?.1 hs
    have hvalue := h.elementInteger vs _ rfl (pvaValueToJson_scalarArray vs) i s n hi hn
    rw [List.getElem?_map, hi, Option.map_some, Option.bind_some,
      (integerOf_json_iff hn).2] at hvalue
    exact hvalue hwraps
  · intro h
    refine ⟨?_, nofun, nofun, ?_, ?_⟩
    · rintro us heq
      cases heq
      rw [pvaValueToJson_scalarArray, hscalars, hparts.mpr fun s hs => (h s hs).1]
    · rintro us js heq hjs i s n hi hn
      cases heq
      rw [pvaValueToJson_scalarArray, Json.array.injEq] at hjs
      rw [← hjs, List.getElem?_map, hi, Option.map_some, Option.bind_some,
        (integerOf_json_iff hn).2]
      exact (h s (List.mem_of_getElem? hi)).2
    · rintro us js heq hjs i s x hi hx
      cases heq
      rw [(h s (List.mem_of_getElem? hi)).1] at hx
      cases hx

theorem jsonFaithful_struct (fs : List (String × PvaValue)) : JsonFaithful (.struct fs) := by
  refine ⟨nofun, ?_, nofun, nofun, nofun⟩
  rintro gs heq hnodup
  cases heq
  refine ⟨_, by rw [pvaValueToJson], ?_⟩
  rw [fieldsToJson_eq]
  apply collectMembers_perm
  rwa [List.map_map]

mutual

/-- The induction is on the value: of a structure and of a union nothing is asked but of the
    values in them. -/
theorem jsonFaithful_parts_iff (v : PvaValue) :
    (∀ w ∈ v.parts, JsonFaithful w) ↔ Lossless v := by
  cases v with
  | scalar s =>
    rw [PvaValue.parts, Lossless, List.forall_mem_singleton]
    exact jsonFaithful_scalar_iff s
  | scalarArray vs =>
    rw [PvaValue.parts, Lossless, List.forall_mem_singleton]
    exact jsonFaithful_scalarArray_iff vs
  | struct fs =>
    rw [PvaValue.parts, Lossless, List.forall_mem_cons, fieldParts_iff fs]
    exact and_iff_right (jsonFaithful_struct fs)
  | union name v =>
    rw [PvaValue.parts, Lossless, List.forall_mem_cons, jsonFaithful_parts_iff v]
    exact and_iff_right ⟨nofun, nofun, nofun, nofun, nofun⟩
  | null =>
    rw [PvaValue.parts, Lossless, List.forall_mem_singleton]
    exact iff_true_intro ⟨nofun, nofun, nofun, nofun, nofun⟩

theorem fieldParts_iff (fs : List (String × PvaValue)) :
    (∀ w ∈ fieldParts fs, JsonFaithful w) ↔ LosslessFields fs := by
  cases fs with
  | nil =>
    rw [fieldParts, LosslessFields]
    exact iff_true_intro fun w hw => absurd hw List.not_mem_nil
  | cons f fs =>
    obtain ⟨name, v⟩ := f
    rw [fieldParts, LosslessFields, List.forall_mem_append, jsonFaithful_parts_iff v,
      fieldParts_iff fs]

end

/-- **Main theorem**: the JSON of a value and of every value in it is made of that of its parts
    and its numbers are exact if and only if nowhere in the value there is a ULong above the
    range of `i64`, as a scalar or in an array, or an array with a float. -/
theorem jsonFaithful_iff (v : PvaValue) : (∀ w ∈ v.parts, JsonFaithful w) ↔ Lossless v :=
  jsonFaithful_parts_iff v

/-- The element 1.5 of an array is archived as the integer 1, and so it is in a structure. -/
theorem jsonFaithful_truncates :
    pvaValueToJson (.struct [("value", .scalarArray [.double ⟨0x3FF8000000000000⟩])]) =
        .object [("value", .array [.number (.posInt 1)])] ∧
      ¬∀ v : PvaValue, ∀ w ∈ v.parts, JsonFaithful w := by
  have hjson : elementJson (.double ⟨0x3FF8000000000000⟩) = .number (.posInt 1) := by
    have hint : ScalarValue.f64ToI64 ⟨0x3FF8000000000000⟩ = 1 := by decide +kernel
    show Json.ofI64 (ScalarValue.f64ToI64 ⟨0x3FF8000000000000⟩) = _
    rw [hint]
    rfl
  have harray : pvaValueToJson (.scalarArray [.double ⟨0x3FF8000000000000⟩]) =
      .array [.number (.posInt 1)] := by
    rw [pvaValueToJson_scalarArray, List.map_cons, hjson, List.map_nil]
  refine ⟨?_, fun h => ?_⟩
  · rw [pvaValueToJson, fieldsToJson, fieldsToJson, harray]
    rfl
  have hfinite : Binary64.isFinite ⟨0x3FF8000000000000⟩ = true := by decide +kernel
  have hpart : PvaValue.scalarArray [.double ⟨0x3FF8000000000000⟩] ∈
      PvaValue.parts (.scalarArray [.double ⟨0x3FF8000000000000⟩]) := by
    rw [PvaValue.parts]
    exact List.mem_singleton_self _
  have helement := (h _ _ hpart).elementFloat _ _ rfl harray 0 _ _ rfl rfl hfinite
  cases helement

end AuraEpics.Types

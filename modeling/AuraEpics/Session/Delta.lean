import AuraEpics.Codec.BitSet
import AuraEpics.Types.PvaValue

/-!
# Delta decoding

Model of `decode_delta_structure` and `skip_flat_indices`
(`crates/aura-net/src/runtime/session.rs`, lines 53-176) and of the root loop of
`handle_monitor_update` around them (lines 1551-1563). The `&mut usize` flat index
is an argument and a second result; after an error nobody reads it.

Result: `decodeDeltaStructure_eq_decodeFrom`, with every leaf's bit set the delta
decoder is `decode_from`.
-/

namespace AuraEpics.Session

open AuraEpics.Codec AuraEpics.Types

mutual

/-- `skip_flat_indices` (lines 166-176): the flat index after the sub-tree. -/
def skipFlatIndices : FieldDesc → ℕ → ℕ
  | .mk ft _ fs, flatIdx =>
    match ft with
    | .struct | .structArray | .union | .unionArray => skipFlatIndicesAll fs (flatIdx + 1)
    | _ => flatIdx + 1

/-- The loop `for nf in &desc.fields { skip_flat_indices(&nf.desc, flat_idx) }`. -/
def skipFlatIndicesAll : List (String × FieldDesc) → ℕ → ℕ
  | [], flatIdx => flatIdx
  | (_, d) :: fs, flatIdx => skipFlatIndicesAll fs (skipFlatIndices d flatIdx)

end

/-- `if changed.is_set(my_idx) { p } else { Null }` of a leaf field, with the
    advanced flat index. -/
def whenSet (changed : PvaBitSet) (myIdx : ℕ) (p : Read PvaValue) : Read (PvaValue × ℕ) :=
  if changed.isSet myIdx then (fun v => (v, myIdx + 1)) <$> p else return (.null, myIdx + 1)

/-- The `VariantUnion` branch (lines 138-146): one tag byte, dropped. -/
def deltaVariantUnion : Read PvaValue := do
  let _tag ← Read.u8
  return .null

/-- The `Union` branch (lines 147-160): a selector out of range is `Null`. -/
def deltaUnion (fs : List (String × FieldDesc)) : Read PvaValue := do
  let selector ← Read.i32
  if selector < 0 then return .null
  match fs[selector.toInt.toNat]? with
  | none => return .null
  | some (name, d) => PvaValue.union name <$> decodeFrom d

/-- `(start_idx..end_idx).any(|i| changed.is_set(i))` (lines 118-120). -/
def anyChildSet (changed : PvaBitSet) (startIdx count : ℕ) : Bool :=
  (List.range' startIdx count).any changed.isSet

mutual

/-- `decode_delta_structure` (lines 57-163). -/
def decodeDeltaStructure (changed : PvaBitSet) : FieldDesc → ℕ → Read (PvaValue × ℕ)
  | .mk ft id fs, myIdx =>
    match ft with
    | .scalar st => whenSet changed myIdx (PvaValue.scalar <$> decodeScalar st)
    | .scalarArray st => whenSet changed myIdx (PvaValue.scalarArray <$> decodeScalarArray st)
    | .boundedString _ =>
      whenSet changed myIdx ((fun s => PvaValue.scalar (.string s)) <$> Read.string)
    | .struct | .structArray =>
      if anyChildSet changed myIdx (FieldDesc.mk ft id fs).flatFieldCount then do
        let (vs, flatIdx) ← decodeDeltaFields changed fs (myIdx + 1)
        return (.struct vs, flatIdx)
      else return (.null, skipFlatIndicesAll fs (myIdx + 1))
    | .variantUnion | .variantUnionArray => whenSet changed myIdx deltaVariantUnion
    | .union | .unionArray => whenSet changed myIdx (deltaUnion fs)

/-- The loop over `desc.fields` (lines 129-135, and 1555-1561 for the root). -/
def decodeDeltaFields (changed : PvaBitSet) :
    List (String × FieldDesc) → ℕ → Read (List (String × PvaValue) × ℕ)
  | [], flatIdx => return ([], flatIdx)
  | (name, d) :: fs, flatIdx => do
    let (v, flatIdx) ← decodeDeltaStructure changed d flatIdx
    let (vs, flatIdx) ← decodeDeltaFields changed fs flatIdx
    return ((name, v) :: vs, flatIdx)

end

/-- The delta branch of `handle_monitor_update` (lines 1551-1563): the root's own
    bit is skipped and its fields are decoded whatever the root's type. -/
def decodeDeltaRoot (changed : PvaBitSet) (desc : FieldDesc) : Read PvaValue := do
  let (vs, _) ← decodeDeltaFields changed desc.fields 1
  return .struct vs

section Equations

variable (changed : PvaBitSet) (id : String) (fs : List (String × FieldDesc)) (i : ℕ)

theorem decodeDeltaStructure_scalar (st : ScalarType) :
    decodeDeltaStructure changed (.mk (.scalar st) id fs) i =
      whenSet changed i (PvaValue.scalar <$> decodeScalar st) := by
  rw [decodeDeltaStructure]

theorem decodeDeltaStructure_scalarArray (st : ScalarType) :
    decodeDeltaStructure changed (.mk (.scalarArray st) id fs) i =
      whenSet changed i (PvaValue.scalarArray <$> decodeScalarArray st) := by
  rw [decodeDeltaStructure]

theorem decodeDeltaStructure_structure {ft : FieldType} (hft : ft = .struct ∨ ft = .structArray) :
    decodeDeltaStructure changed (.mk ft id fs) i =
      if anyChildSet changed i (1 + FieldDesc.flatFieldCounts fs) then
        (fun p => (PvaValue.struct p.1, p.2)) <$> decodeDeltaFields changed fs (i + 1)
      else return (.null, skipFlatIndicesAll fs (i + 1)) := by
  rcases hft with rfl | rfl <;> rw [decodeDeltaStructure, FieldDesc.flatFieldCount] <;> simp

/-- A node that is not a structure is one conditional read at its own index. -/
theorem decodeDeltaStructure_leaf {ft : FieldType} (hft : ¬(ft = .struct ∨ ft = .structArray)) :
    ∃ p, ∀ changed i, decodeDeltaStructure changed (.mk ft id fs) i = whenSet changed i p := by
  cases ft with
  | struct => exact absurd (.inl rfl) hft
  | structArray => exact absurd (.inr rfl) hft
  | _ => exact ⟨_, fun changed i => by rw [decodeDeltaStructure]⟩

theorem decodeDeltaFields_nil : decodeDeltaFields changed [] i = return ([], i) := by
  rw [decodeDeltaFields]

theorem decodeDeltaFields_cons (name : String) (d : FieldDesc) :
    decodeDeltaFields changed ((name, d) :: fs) i = do
      let p ← decodeDeltaStructure changed d i
      let q ← decodeDeltaFields changed fs p.2
      return ((name, p.1) :: q.1, q.2) := by
  rw [decodeDeltaFields]

theorem anyChildSet_iff (count : ℕ) :
    anyChildSet changed i count = true ↔ ∃ j, i ≤ j ∧ j < i + count ∧ changed.isSet j = true := by
  simp only [anyChildSet, List.any_eq_true, List.mem_range'_1, and_assoc]

end Equations

/-! ## Full and delta decoding agree -/

/-- A descriptor built from scalars, scalar arrays and nested structures. -/
inductive Plain : FieldDesc → Prop where
  | scalar (st : ScalarType) (id : String) : Plain (.mk (.scalar st) id [])
  | scalarArray (st : ScalarType) (id : String) : Plain (.mk (.scalarArray st) id [])
  | struct (id : String) (fs : List (String × FieldDesc)) (hfs : ∀ f ∈ fs, Plain f.2) :
      Plain (.mk .struct id fs)

mutual

/-- The flat indices of the leaves of `d`, the nodes without sub-fields, when
    `d` itself has index `i`. -/
def leafIndices : FieldDesc → ℕ → List ℕ
  | .mk _ _ fs, i => if fs.isEmpty then [i] else leafIndicesAll fs (i + 1)

def leafIndicesAll : List (String × FieldDesc) → ℕ → List ℕ
  | [], _ => []
  | (_, d) :: fs, i => leafIndices d i ++ leafIndicesAll fs (i + d.flatFieldCount)

end

theorem leafIndices_nonempty (ft : FieldType) (id : String) (f : String × FieldDesc)
    (fs : List (String × FieldDesc)) (i : ℕ) :
    leafIndices (.mk ft id (f :: fs)) i = leafIndicesAll (f :: fs) (i + 1) := by
  rw [leafIndices]; rfl

/-- Every sub-tree has a leaf within its range of indices. -/
theorem exists_leafIndex (d : FieldDesc) (i : ℕ) :
    ∃ j ∈ leafIndices d i, i ≤ j ∧ j < i + d.flatFieldCount := by
  induction d using FieldDesc.tree_induction generalizing i with
  | node ft id fs ih =>
    cases fs with
    | nil => exact ⟨i, by simp [leafIndices], le_rfl, by simp [FieldDesc.flatFieldCount_eq]⟩
    | cons f fs =>
      obtain ⟨j, hj, hle, hlt⟩ := ih f List.mem_cons_self (i + 1)
      refine ⟨j, ?_, by omega, ?_⟩
      · rw [leafIndices_nonempty, leafIndicesAll]
        exact List.mem_append_left _ hj
      · simp only [FieldDesc.flatFieldCount_eq (.mk ft id _), FieldDesc.fields_mk,
          FieldDesc.flatFieldCounts_cons]
        omega

theorem whenSet_of_isSet {changed : PvaBitSet} {i : ℕ} (p : Read PvaValue)
    (h : changed.isSet i = true) : whenSet changed i p = (fun v => (v, i + 1)) <$> p := by
  rw [whenSet, if_pos h]

/-- The loop over the fields, from the same statement about each of them. -/
theorem decodeDeltaFields_eq_decodeFields (changed : PvaBitSet) (fs : List (String × FieldDesc))
    (ih : ∀ f ∈ fs, ∀ i, (∀ j ∈ leafIndices f.2 i, changed.isSet j = true) →
      decodeDeltaStructure changed f.2 i =
        (fun v => (v, i + f.2.flatFieldCount)) <$> decodeFrom f.2) :
    ∀ i, (∀ j ∈ leafIndicesAll fs i, changed.isSet j = true) →
      decodeDeltaFields changed fs i =
        (fun vs => (vs, i + FieldDesc.flatFieldCounts fs)) <$> decodeFields fs := by
  induction fs with
  | nil => intro i _; simp [decodeDeltaFields_nil, decodeFields]
  | cons f fs ihfs =>
    obtain ⟨name, d⟩ := f
    intro i hset
    simp only [leafIndicesAll, List.mem_append] at hset
    have hd := ih (name, d) List.mem_cons_self i fun j hj => hset j (.inl hj)
    have hfs := ihfs (fun f hf => ih f (List.mem_cons_of_mem _ hf)) (i + d.flatFieldCount)
      fun j hj => hset j (.inr hj)
    rw [decodeDeltaFields_cons, hd, decodeFields]
    simp [hfs, Nat.add_assoc]

theorem decodeDeltaStructure_eq_map (changed : PvaBitSet) {d : FieldDesc} (hd : Plain d) :
    ∀ i, (∀ j ∈ leafIndices d i, changed.isSet j = true) →
      decodeDeltaStructure changed d i =
        (fun v => (v, i + d.flatFieldCount)) <$> decodeFrom d := by
  induction hd with
  | scalar st id =>
    intro i hset
    have hi := hset i (by simp [leafIndices])
    rw [decodeDeltaStructure_scalar, whenSet_of_isSet _ hi, decodeFrom_scalar]
    rfl
  | scalarArray st id =>
    intro i hset
    have hi := hset i (by simp [leafIndices])
    rw [decodeDeltaStructure_scalarArray, whenSet_of_isSet _ hi, decodeFrom_scalarArray]
    rfl
  | struct id fs _ ih =>
    intro i hset
    -- some leaf below is set, so the structure is not skipped
    have hany : anyChildSet changed i (1 + FieldDesc.flatFieldCounts fs) = true := by
      obtain ⟨j, hj, hle, hlt⟩ := exists_leafIndex (.mk .struct id fs) i
      rw [FieldDesc.flatFieldCount_eq] at hlt
      exact (anyChildSet_iff ..).mpr ⟨j, hle, hlt, hset j hj⟩
    have hfs : ∀ j ∈ leafIndicesAll fs (i + 1), changed.isSet j = true := by
      cases fs with
      | nil => simp [leafIndicesAll]
      | cons f fs => rwa [leafIndices_nonempty] at hset
    rw [decodeDeltaStructure_structure _ _ _ _ (.inl rfl), if_pos hany,
      decodeDeltaFields_eq_decodeFields changed fs ih _ hfs, decodeFrom_struct,
      FieldDesc.flatFieldCount_eq]
    simp [Nat.add_assoc]

/-- **Main theorem**: on a descriptor of scalars, scalar arrays and structures, a
    delta with every leaf's bit set decodes as `decode_from` does: the same value
    and position, or the same error. The second part is the same at the root,
    whose fields `handle_monitor_update` decodes without consulting bit 0. -/
theorem decodeDeltaStructure_eq_decodeFrom {d : FieldDesc} (hd : Plain d) (changed : PvaBitSet)
    (r : PvaReader) :
    (∀ i, (∀ j ∈ leafIndices d i, changed.isSet j = true) →
      decodeDeltaStructure changed d i r =
        match decodeFrom d r with
        | (.ok v, r') => (.ok (v, i + d.flatFieldCount), r')
        | (.error e, r') => (.error e, r')) ∧
    (d.isStructure = true → (∀ j ∈ leafIndices d 0, changed.isSet j = true) →
      decodeDeltaRoot changed d r = decodeFrom d r) := by
  constructor
  · intro i hset
    rw [decodeDeltaStructure_eq_map changed hd i hset, Read.run_map]
    rcases decodeFrom d r with ⟨_ | _, _⟩ <;> rfl
  · intro hstruct hset
    cases hd with
    | scalar st id => simp [FieldDesc.isStructure] at hstruct
    | scalarArray st id => simp [FieldDesc.isStructure] at hstruct
    | struct id fs hfs =>
      have hall : ∀ j ∈ leafIndicesAll fs 1, changed.isSet j = true := by
        cases fs with
        | nil => simp [leafIndicesAll]
        | cons f fs => rwa [leafIndices_nonempty] at hset
      have heq := decodeDeltaFields_eq_decodeFields changed fs
        (fun f hf => decodeDeltaStructure_eq_map changed (hfs f hf)) 1 hall
      rw [decodeDeltaRoot, FieldDesc.fields_mk, heq, decodeFrom_struct]
      simp

theorem decodeDeltaStructure_eq_decodeFrom_pair :
    let d := FieldDesc.struct "" [("a", .scalar .int), ("b", .struct "" [("c", .scalarArray .ubyte)])]
    let changed := PvaBitSet.fromBits [1, 3]
    let r := PvaReader.new [1, 0, 0, 0, 2, 7, 8] .littleEndian
    decodeDeltaRoot changed d r = decodeFrom d r :=
  (decodeDeltaStructure_eq_decodeFrom
    (.struct _ _ (by
      simp only [List.mem_cons, List.not_mem_nil, or_false, forall_eq_or_imp, forall_eq]
      exact ⟨.scalar _ _, .struct _ _ (by simpa using .scalarArray _ _)⟩))
    (PvaBitSet.fromBits [1, 3]) (PvaReader.new [1, 0, 0, 0, 2, 7, 8] .littleEndian)).2 rfl (by decide)

end AuraEpics.Session

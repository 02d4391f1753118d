import AuraEpics.Session.FastAgree
import AuraEpics.Session.FlatIndex

/-!
# Merging deltas

The state of a monitored PV after a delta: fields whose bit is set are read off the
payload, all others keep their content (`mergeRoot`). The session computes no such
state. What it decodes instead is the merged state with the unchanged fields masked
out (`maskRoot`).

Results:
* `decodeDeltaRoot_eq_mask`: a decoded delta is the mask of the merged state, as
  reads;
* `RootParts.ofValue_mask`: in a canonical descriptor the alarm and the time stamp of
  a mask are those of the state where their bit is set, and zero elsewhere.
-/

namespace AuraEpics.Session

open AuraEpics.Codec AuraEpics.Types Numeric

/-! ## Merged state and mask -/

/-- What a node that is not a structure reads when its bit is set. -/
def leafRead : FieldDesc → Read PvaValue
  | .mk ft _ fs =>
    match ft with
    | .scalar st => PvaValue.scalar <$> decodeScalar st
    | .scalarArray st => PvaValue.scalarArray <$> decodeScalarArray st
    | .boundedString _ => (fun s => PvaValue.scalar (.string s)) <$> Read.string
    | .variantUnion | .variantUnionArray => deltaVariantUnion
    | .union | .unionArray => deltaUnion fs
    | .struct | .structArray => return .null

/-- The values of a structure's fields, in order. -/
def children : PvaValue → List PvaValue
  | .struct fs => fs.map Prod.snd
  | _ => []

mutual

/-- The content of a field with flat index `i` after a delta, `old` being its content
    before. -/
def mergeDelta (changed : PvaBitSet) : FieldDesc → ℕ → PvaValue → Read PvaValue
  | .mk ft id fs, i, old =>
    if ft = .struct ∨ ft = .structArray then
      if anyChildSet changed i (1 + FieldDesc.flatFieldCounts fs) then
        PvaValue.struct <$> mergeFields changed fs (i + 1) (children old)
      else return old
    else if changed.isSet i then leafRead (.mk ft id fs)
    else return old

/-- The fields of a structure after a delta. -/
def mergeFields (changed : PvaBitSet) :
    List (String × FieldDesc) → ℕ → List PvaValue → Read (List (String × PvaValue))
  | [], _, _ => return []
  | (name, d) :: fs, i, olds => do
    let v ← mergeDelta changed d i (olds.headD .null)
    let vs ← mergeFields changed fs (i + d.flatFieldCount) olds.tail
    return (name, v) :: vs

end

/-- The state of a PV after a delta, whose bit 0 is clear. -/
def mergeRoot (changed : PvaBitSet) (desc : FieldDesc) (old : PvaValue) : Read PvaValue :=
  PvaValue.struct <$> mergeFields changed desc.fields 1 (children old)

mutual

/-- A field with flat index `i` as a delta shows it: `Null` unless its bit is set. -/
def mask (changed : PvaBitSet) : FieldDesc → ℕ → PvaValue → PvaValue
  | .mk ft _ fs, i, v =>
    if ft = .struct ∨ ft = .structArray then
      if anyChildSet changed i (1 + FieldDesc.flatFieldCounts fs) then
        .struct (maskFields changed fs (i + 1) (children v))
      else .null
    else if changed.isSet i then v
    else .null

/-- The fields of a structure as a delta shows them. -/
def maskFields (changed : PvaBitSet) :
    List (String × FieldDesc) → ℕ → List PvaValue → List (String × PvaValue)
  | [], _, _ => []
  | (name, d) :: fs, i, vs =>
    (name, mask changed d i (vs.headD .null)) ::
      maskFields changed fs (i + d.flatFieldCount) vs.tail

end

/-- The state of a PV as a delta shows it. -/
def maskRoot (changed : PvaBitSet) (desc : FieldDesc) (v : PvaValue) : PvaValue :=
  .struct (maskFields changed desc.fields 1 (children v))

section Equations

variable (changed : PvaBitSet) (id : String) {ft : FieldType} (fs : List (String × FieldDesc)) (i : ℕ)

theorem mergeDelta_struct (hft : ft = .struct ∨ ft = .structArray) (old : PvaValue) :
    mergeDelta changed (.mk ft id fs) i old =
      if anyChildSet changed i (1 + FieldDesc.flatFieldCounts fs) then
        PvaValue.struct <$> mergeFields changed fs (i + 1) (children old)
      else return old := by
  rw [mergeDelta, if_pos hft]

theorem mergeDelta_leaf (hft : ¬(ft = .struct ∨ ft = .structArray)) (old : PvaValue) :
    mergeDelta changed (.mk ft id fs) i old =
      if changed.isSet i then leafRead (.mk ft id fs) else return old := by
  rw [mergeDelta, if_neg hft]

theorem mask_struct (hft : ft = .struct ∨ ft = .structArray) (v : PvaValue) :
    mask changed (.mk ft id fs) i v =
      if anyChildSet changed i (1 + FieldDesc.flatFieldCounts fs) then
        .struct (maskFields changed fs (i + 1) (children v))
      else .null := by
  rw [mask, if_pos hft]

theorem mask_leaf (hft : ¬(ft = .struct ∨ ft = .structArray)) (v : PvaValue) :
    mask changed (.mk ft id fs) i v = if changed.isSet i then v else .null := by
  rw [mask, if_neg hft]

theorem decodeDeltaStructure_leafRead (hft : ¬(ft = .struct ∨ ft = .structArray)) :
    decodeDeltaStructure changed (.mk ft id fs) i = whenSet changed i (leafRead (.mk ft id fs)) := by
  cases ft with
  | struct => exact absurd (.inl rfl) hft
  | structArray => exact absurd (.inr rfl) hft
  | _ => rw [decodeDeltaStructure, leafRead]

end Equations

/-! ## A decoded delta is a mask -/

theorem decodeDeltaFields_eq_mask (changed : PvaBitSet) (fs : List (String × FieldDesc))
    (ih : ∀ f ∈ fs, ∀ i old, decodeDeltaStructure changed f.2 i =
      (fun v => (mask changed f.2 i v, i + f.2.flatFieldCount)) <$> mergeDelta changed f.2 i old) :
    ∀ i olds, decodeDeltaFields changed fs i =
      (fun vs => (maskFields changed fs i (vs.map Prod.snd), i + FieldDesc.flatFieldCounts fs)) <$>
        mergeFields changed fs i olds := by
  induction fs with
  | nil => intro i olds; simp [decodeDeltaFields_nil, mergeFields, maskFields]
  | cons f fs ihfs =>
    obtain ⟨name, d⟩ := f
    intro i olds
    have hd := ih (name, d) List.mem_cons_self i (olds.headD .null)
    have hfs := ihfs (fun f hf => ih f (List.mem_cons_of_mem _ hf)) (i + d.flatFieldCount) olds.tail
    rw [decodeDeltaFields_cons, hd, mergeFields]
    simp [hfs, maskFields, Nat.add_assoc]

theorem decodeDeltaStructure_eq_mask (changed : PvaBitSet) {d : FieldDesc}
    (hd : OnlyStructuresNest d) :
    ∀ i old, decodeDeltaStructure changed d i =
      (fun v => (mask changed d i v, i + d.flatFieldCount)) <$> mergeDelta changed d i old := by
  induction hd with
  | leaf ft id hft =>
    intro i old
    rw [decodeDeltaStructure_leafRead _ _ _ _ hft, mergeDelta_leaf _ _ _ _ hft, whenSet]
    simp only [mask_leaf _ _ _ _ hft, FieldDesc.flatFieldCount_eq, FieldDesc.fields_mk,
      FieldDesc.flatFieldCounts]
    split_ifs <;> simp
  | node ft id fs hft hfs ih =>
    intro i old
    rw [decodeDeltaStructure_structure _ _ _ _ hft, mergeDelta_struct _ _ _ _ hft]
    simp only [mask_struct _ _ _ _ hft, FieldDesc.flatFieldCount_eq, FieldDesc.fields_mk]
    by_cases hany : anyChildSet changed i (1 + FieldDesc.flatFieldCounts fs) = true
    · rw [if_pos hany, if_pos hany, decodeDeltaFields_eq_mask changed fs ih (i + 1) (children old)]
      simp [hany, children, Nat.add_assoc]
    · rw [if_neg hany, if_neg hany,
        skipFlatIndicesAll_eq (fun f hf => skipFlatIndices_eq (hfs f hf))]
      simp [hany, Nat.add_assoc]

/-- **Main theorem**: whatever the state before, decoding a delta reads what merging
    it reads, and gives the mask of the merged state. -/
theorem decodeDeltaRoot_eq_mask (changed : PvaBitSet) {desc : FieldDesc}
    (hd : OnlyStructuresNest desc) (old : PvaValue) :
    decodeDeltaRoot changed desc = maskRoot changed desc <$> mergeRoot changed desc old := by
  have hfs := decodeDeltaFields_eq_mask changed desc.fields
    (fun f hf => decodeDeltaStructure_eq_mask changed (hd.of_mem_fields f hf)) 1 (children old)
  rw [decodeDeltaRoot, mergeRoot, hfs]
  simp [maskRoot, children]

/-! ## What a mask shows -/

section Shape

variable {changed : PvaBitSet}

theorem mergeFields_names {fs : List (String × FieldDesc)} {i : ℕ} {olds : List PvaValue}
    {r r' : PvaReader} {vs : List (String × PvaValue)}
    (h : mergeFields changed fs i olds r = (.ok vs, r')) : vs.map Prod.fst = fs.map Prod.fst := by
  induction fs generalizing i olds r r' vs with
  | nil =>
    rw [mergeFields] at h
    rw [← (Read.pure_eq_ok.mp h).1]
    rfl
  | cons f fs ih =>
    rw [mergeFields] at h
    obtain ⟨v, r₁, _, h⟩ := Read.bind_eq_ok.mp h
    obtain ⟨ws, r₂, hws, h⟩ := Read.bind_eq_ok.mp h
    rw [← (Read.pure_eq_ok.mp h).1, List.map_cons, List.map_cons, ih hws]

/-- `m` is what merging a delta made of a field. -/
def MergedField (changed : PvaBitSet) (d : FieldDesc) (i : ℕ) (m : PvaValue) : Prop :=
  ∃ old r r', mergeDelta changed d i old r = (.ok m, r')

theorem MergedField.struct {id : String} {fs : List (String × FieldDesc)} {i : ℕ} {m : PvaValue}
    (h : MergedField changed (.mk .struct id fs) i m)
    (hany : anyChildSet changed i (1 + FieldDesc.flatFieldCounts fs) = true) :
    ∃ vs, m = .struct vs ∧ vs.map Prod.fst = fs.map Prod.fst := by
  obtain ⟨old, r, r', h⟩ := h
  rw [mergeDelta_struct _ _ _ _ (.inl rfl), if_pos hany] at h
  obtain ⟨vs, hvs, rfl⟩ := Read.map_eq_ok.mp h
  exact ⟨vs, rfl, mergeFields_names hvs⟩

theorem not_isSet_of_not_anyChildSet {i n : ℕ} (h : ¬anyChildSet changed i n = true) {j : ℕ}
    (hle : i ≤ j) (hlt : j < i + n) : ¬changed.isSet j = true :=
  fun hset => h ((anyChildSet_iff ..).mpr ⟨j, hle, hlt, hset⟩)

/-- A merged structure that begins with two leaf fields, and its mask. -/
theorem mask_pair {id n₁ n₂ i₁ i₂ : String} {ft₁ ft₂ : FieldType}
    (h₁ : ¬(ft₁ = .struct ∨ ft₁ = .structArray)) (h₂ : ¬(ft₂ = .struct ∨ ft₂ = .structArray))
    {rest : List (String × FieldDesc)} {i : ℕ} {m : PvaValue}
    (hm : MergedField changed
      (.mk .struct id ((n₁, .mk ft₁ i₁ []) :: (n₂, .mk ft₂ i₂ []) :: rest)) i m) :
    let shown := mask changed
      (.mk .struct id ((n₁, .mk ft₁ i₁ []) :: (n₂, .mk ft₂ i₂ []) :: rest)) i m
    (shown = .null ∧ ¬changed.isSet (i + 1) = true ∧ ¬changed.isSet (i + 2) = true) ∨
    ∃ x y vs ws, m = .struct ((n₁, x) :: (n₂, y) :: vs) ∧
      shown = .struct ((n₁, if changed.isSet (i + 1) then x else .null) ::
        (n₂, if changed.isSet (i + 2) then y else .null) :: ws) := by
  intro shown
  have hshown : shown = _ := mask_struct _ _ _ _ (.inl rfl) _
  have hone : (FieldDesc.mk ft₁ i₁ []).flatFieldCount = 1 := by
    simp [FieldDesc.flatFieldCount_eq]
  have htwo : (FieldDesc.mk ft₂ i₂ []).flatFieldCount = 1 := by
    simp [FieldDesc.flatFieldCount_eq]
  split_ifs at hshown with hany
  · obtain ⟨vs, rfl, hnames⟩ := hm.struct hany
    simp only [List.map_cons, List.map_eq_cons_iff, Prod.exists] at hnames
    obtain ⟨_, x, _, rfl, rfl, _, y, vs, rfl, rfl, _⟩ := hnames
    simp only [maskFields, children, List.map_cons, List.headD_cons, List.tail_cons,
      mask_leaf changed _ _ _ h₁, mask_leaf changed _ _ _ h₂, hone] at hshown
    exact .inr ⟨x, y, vs, _, rfl, hshown⟩
  · have hcount : 2 < 1 + FieldDesc.flatFieldCounts
        ((n₁, .mk ft₁ i₁ []) :: (n₂, .mk ft₂ i₂ []) :: rest) := by
      simp only [FieldDesc.flatFieldCounts_cons, hone, htwo]
      omega
    exact .inl ⟨hshown, not_isSet_of_not_anyChildSet hany (by omega) (by omega),
      not_isSet_of_not_anyChildSet hany (by omega) (by omega)⟩

theorem alarmParts_mask {a : FieldDesc} (ha : CanonicalAlarm a) {i : ℕ} {m : PvaValue}
    (hm : MergedField changed a i m) :
    alarmParts (mask changed a i m) =
      (if changed.isSet (i + 1) then (alarmParts m).1 else 0,
        if changed.isSet (i + 2) then (alarmParts m).2 else 0) := by
  obtain ⟨id, i₁, i₂, i₃, ft, -⟩ := ha
  rcases mask_pair (by simp) (by simp) hm with ⟨hnull, hsev, hst⟩ | ⟨x, y, vs, ws, rfl, hshown⟩
  · rw [hnull, if_neg hsev, if_neg hst]
    rfl
  · rw [hshown, alarmParts_struct, alarmParts_struct]
    split_ifs <;> rfl

theorem timeParts_mask {t : FieldDesc} (ht : CanonicalTimeStamp t) {i : ℕ} {m : PvaValue}
    (hm : MergedField changed t i m) :
    timeParts (mask changed t i m) =
      (if changed.isSet (i + 1) then (timeParts m).1 else 0,
        if changed.isSet (i + 2) then (timeParts m).2 else 0) := by
  obtain ⟨id, i₁, i₂, i₃, sub, rest⟩ := ht
  rcases mask_pair (by simp) (by simp) hm with ⟨hnull, hsec, hnanos⟩ | ⟨x, y, vs, ws, rfl, hshown⟩
  · rw [hnull, if_neg hsec, if_neg hnanos]
    rfl
  · rw [hshown, timeParts_struct, timeParts_struct]
    split_ifs <;> rfl

theorem enumIndex_mask {v : FieldDesc} (hv : EnumValue v) {i : ℕ} {m : PvaValue}
    (hm : MergedField changed v i m) (hset : changed.isSet (i + 1) = true) :
    (mask changed v i m).field "index" = m.field "index" := by
  obtain ⟨id, i₁, i₂⟩ := hv
  rcases mask_pair (by simp) (by simp) hm with ⟨-, hindex, -⟩ | ⟨x, y, vs, ws, rfl, hshown⟩
  · exact absurd hset hindex
  · rw [hshown, if_pos hset]
    rfl

end Shape

section Root

variable {changed : PvaBitSet} {isValue : FieldDesc → Prop} {desc : FieldDesc}

/-- The leading fields of a merged state of a canonical PV, and those of its mask. -/
structure RootParts (changed : PvaBitSet) (isValue : FieldDesc → Prop) (desc : FieldDesc)
    (state : PvaValue) where
  (v a t : FieldDesc) (mv ma mt : PvaValue) (vs ws : List (String × PvaValue))
  value : isValue v
  first : ∃ fs, desc.fields = ("value", v) :: fs
  alarm : CanonicalAlarm a
  timeStamp : CanonicalTimeStamp t
  state_eq : state = .struct (("value", mv) :: ("alarm", ma) :: ("timeStamp", mt) :: vs)
  mask_eq : maskRoot changed desc state =
    .struct (("value", mask changed v 1 mv) ::
      ("alarm", mask changed a (1 + v.flatFieldCount) ma) ::
      ("timeStamp", mask changed t (1 + v.flatFieldCount + 4) mt) :: ws)
  mv_merged : MergedField changed v 1 mv
  ma_merged : MergedField changed a (1 + v.flatFieldCount) ma
  mt_merged : MergedField changed t (1 + v.flatFieldCount + 4) mt

theorem Canonical.rootParts (hd : Canonical isValue desc) {old state : PvaValue} {r r' : PvaReader}
    (h : mergeRoot changed desc old r = (.ok state, r')) :
    Nonempty (RootParts changed isValue desc state) := by
  obtain ⟨id, v, a, t, rest, hv, ha, ht⟩ := hd
  have hcount : a.flatFieldCount = 4 := by
    obtain ⟨_, _, _, _, _, _⟩ := ha
    simp [FieldDesc.flatFieldCount]
  rw [mergeRoot, FieldDesc.fields_mk] at h
  obtain ⟨fields, hfields, rfl⟩ := Read.map_eq_ok.mp h
  simp only [mergeFields] at hfields
  obtain ⟨mv, _, hmv, hfields⟩ := Read.bind_eq_ok.mp hfields
  obtain ⟨tail₁, _, htail₁, hout₁⟩ := Read.bind_eq_ok.mp hfields
  obtain ⟨ma, _, hma, htail₁⟩ := Read.bind_eq_ok.mp htail₁
  obtain ⟨tail₂, _, htail₂, hout₂⟩ := Read.bind_eq_ok.mp htail₁
  obtain ⟨mt, _, hmt, htail₂⟩ := Read.bind_eq_ok.mp htail₂
  obtain ⟨vs, _, _, hout₃⟩ := Read.bind_eq_ok.mp htail₂
  rw [← (Read.pure_eq_ok.mp hout₁).1, ← (Read.pure_eq_ok.mp hout₂).1,
    ← (Read.pure_eq_ok.mp hout₃).1]
  rw [hcount] at hmt
  refine ⟨⟨v, a, t, mv, ma, mt, vs,
    maskFields changed rest (1 + v.flatFieldCount + 4 + t.flatFieldCount) (vs.map Prod.snd), hv,
    ⟨_, rfl⟩, ha, ht, rfl, ?_, ⟨_, _, _, hmv⟩, ⟨_, _, _, hma⟩, ⟨_, _, _, hmt⟩⟩⟩
  simp only [maskRoot, FieldDesc.fields_mk, maskFields, children, List.map_cons, List.headD_cons,
    List.tail_cons, hcount]

/-- Alarm and time of the state `v` as far as `changed` has their bits. -/
def AlarmTimeBits.shown (b : AlarmTimeBits) (changed : PvaBitSet) (v : PvaValue) : AlarmTime where
  severity := if changed.isSet b.severityBit.toNat then (AlarmTime.ofValue v).severity else 0
  status := if changed.isSet b.statusBit.toNat then (AlarmTime.ofValue v).status else 0
  seconds := if changed.isSet b.secondsBit.toNat then (AlarmTime.ofValue v).seconds else 0
  nanos := if changed.isSet b.nanosBit.toNat then (AlarmTime.ofValue v).nanos else 0

theorem AlarmTime.ofValue_struct (v a t : PvaValue) (rest : List (String × PvaValue)) :
    AlarmTime.ofValue (.struct (("value", v) :: ("alarm", a) :: ("timeStamp", t) :: rest)) =
      ⟨(alarmParts a).1, (alarmParts a).2, (timeParts t).1, (timeParts t).2⟩ := rfl

theorem RootParts.ofValue_mask {state : PvaValue} (p : RootParts changed isValue desc state)
    {b : AlarmTimeBits} (hb : b.StartsAt (1 + p.v.flatFieldCount)) :
    AlarmTime.ofValue (maskRoot changed desc state) = b.shown changed state := by
  have hbits : b.severityBit.toNat = 1 + p.v.flatFieldCount + 1 ∧
      b.statusBit.toNat = 1 + p.v.flatFieldCount + 2 ∧
      b.secondsBit.toNat = 1 + p.v.flatFieldCount + 4 + 1 ∧
      b.nanosBit.toNat = 1 + p.v.flatFieldCount + 4 + 2 := by
    rcases hb with ⟨hk, rfl⟩ | ⟨hk, rfl⟩ <;> rw [hk] <;> exact ⟨rfl, rfl, rfl, rfl⟩
  obtain ⟨hsev, hst, hsec, hnanos⟩ := hbits
  have hstate := congrArg AlarmTime.ofValue p.state_eq
  rw [AlarmTime.ofValue_struct] at hstate
  rw [p.mask_eq, AlarmTime.ofValue_struct, alarmParts_mask p.alarm p.ma_merged,
    timeParts_mask p.timeStamp p.mt_merged, AlarmTimeBits.shown, hsev, hst, hsec, hnanos, hstate]

theorem RootParts.field_mask {state : PvaValue} (p : RootParts changed isValue desc state) :
    (maskRoot changed desc state).field "value" = some (mask changed p.v 1 p.mv) := by
  rw [p.mask_eq]
  rfl

theorem RootParts.field_state {state : PvaValue} (p : RootParts changed isValue desc state) :
    state.field "value" = some p.mv :=
  (congrArg (fun w : PvaValue => w.field "value") p.state_eq).trans rfl

/-- A mask shows the same `value` as the state if it shows the value's own sub-tree. -/
theorem RootParts.field_value {state : PvaValue} (p : RootParts changed isValue desc state)
    (h : mask changed p.v 1 p.mv = p.mv) :
    (maskRoot changed desc state).field "value" = state.field "value" := by
  rw [p.field_mask, p.field_state, h]

end Root

/-! ### The three kinds of value -/

section Values

variable {changed : PvaBitSet} {v : FieldDesc} {i : ℕ} (m : PvaValue)

theorem ScalarLeaf.flatFieldCount (hv : ScalarLeaf v) : v.flatFieldCount = 1 := by
  obtain ⟨st, id⟩ := hv
  rfl

theorem NumericArrayLeaf.flatFieldCount (hv : NumericArrayLeaf v) : v.flatFieldCount = 1 := by
  obtain ⟨st, id, _⟩ := hv
  rfl

theorem EnumValue.flatFieldCount (hv : EnumValue v) : v.flatFieldCount = 3 := by
  obtain ⟨id, i₁, i₂⟩ := hv
  rfl

theorem ScalarLeaf.mask_eq (hv : ScalarLeaf v) (hset : changed.isSet i = true) :
    mask changed v i m = m := by
  obtain ⟨st, id⟩ := hv
  rw [mask_leaf _ _ _ _ (by simp), if_pos hset]

theorem NumericArrayLeaf.mask_eq (hv : NumericArrayLeaf v) (hset : changed.isSet i = true) :
    mask changed v i m = m := by
  obtain ⟨st, id, _⟩ := hv
  rw [mask_leaf _ _ _ _ (by simp), if_pos hset]

end Values

end AuraEpics.Session

import AuraEpics.Session.Delta

/-!
# Flat indices

`decode_delta_structure`, `skip_flat_indices` and `flat_field_count` are three
recursions over a descriptor that number its nodes depth first.

* `flatIndexAgreement_iff`: they count alike exactly when only structures carry
  sub-fields;
* `unionBeforeField_not_agree`: a union before a field moves that field's bit.
-/

namespace AuraEpics.Session

open AuraEpics.Codec AuraEpics.Types

/-! ## Agreement -/

/-- Only structures and structure arrays have sub-fields, down to every node
    that is reached through structures alone. -/
inductive OnlyStructuresNest : FieldDesc → Prop where
  | leaf (ft : FieldType) (id : String) (hft : ¬(ft = .struct ∨ ft = .structArray)) :
      OnlyStructuresNest (.mk ft id [])
  | node (ft : FieldType) (id : String) (fs : List (String × FieldDesc))
      (hft : ft = .struct ∨ ft = .structArray) (hfs : ∀ f ∈ fs, OnlyStructuresNest f.2) :
      OnlyStructuresNest (.mk ft id fs)

theorem OnlyStructuresNest.of_mem_fields {d : FieldDesc} (hd : OnlyStructuresNest d) :
    ∀ f ∈ d.fields, OnlyStructuresNest f.2 := by
  cases hd with
  | leaf => simp
  | node _ _ _ _ hfs => exact hfs

/-- Decoding `d` from index `i` with reader `r` consults bit `j` for the node at
    path `p`: the index at which the walk arrives there, after the fields to its
    left have been decoded. -/
inductive Consults (changed : PvaBitSet) :
    FieldDesc → ℕ → PvaReader → List ℕ → ℕ → Prop where
  | here (d : FieldDesc) (i : ℕ) (r : PvaReader) : Consults changed d i r [] i
  | child (ft : FieldType) (id : String) (pre : List (String × FieldDesc))
      (f : String × FieldDesc) (post : List (String × FieldDesc)) (i k j : ℕ)
      (r r' : PvaReader) (vs : List (String × PvaValue)) (p : List ℕ)
      (hft : ft = .struct ∨ ft = .structArray)
      (hany : anyChildSet changed i (FieldDesc.mk ft id (pre ++ f :: post)).flatFieldCount = true)
      (hpre : decodeDeltaFields changed pre (i + 1) r = (.ok (vs, k), r'))
      (hf : Consults changed f.2 k r' p j) :
      Consults changed (.mk ft id (pre ++ f :: post)) i r (pre.length :: p) j

/-- The depth-first offset of the node at path `p`, from the descriptor alone. -/
def flatOffset : FieldDesc → List ℕ → ℕ
  | _, [] => 0
  | d, n :: p =>
    1 + FieldDesc.flatFieldCounts (d.fields.take n) +
      match d.fields[n]? with
      | some f => flatOffset f.2 p
      | none => 0

/-- The three walks over `d` count alike: every successful delta decode and the
    skip advance the flat index by `flat_field_count`, and the bit consulted for
    a node is its depth-first offset, whatever the other bits and the payload. -/
structure FlatIndexAgreement (d : FieldDesc) : Prop where
  advance : ∀ changed i r v j r',
    decodeDeltaStructure changed d i r = (.ok (v, j), r') → j = i + d.flatFieldCount
  skip : ∀ i, skipFlatIndices d i = i + d.flatFieldCount
  consulted : ∀ changed i r p j, Consults changed d i r p j → j = i + flatOffset d p

theorem whenSet_advance {changed : PvaBitSet} {i j : ℕ} {p : Read PvaValue} {r r' : PvaReader}
    {v : PvaValue} (h : whenSet changed i p r = (.ok (v, j), r')) : j = i + 1 := by
  rw [whenSet] at h
  split_ifs at h
  · obtain ⟨_, _, heq⟩ := Read.map_eq_ok.mp h
    exact (Prod.mk.inj heq).2.symm
  · exact (Prod.mk.inj (Read.pure_eq_ok.mp h).1).2.symm

theorem skipFlatIndicesAll_eq {fs : List (String × FieldDesc)}
    (ih : ∀ f ∈ fs, ∀ i, skipFlatIndices f.2 i = i + f.2.flatFieldCount) (i : ℕ) :
    skipFlatIndicesAll fs i = i + FieldDesc.flatFieldCounts fs := by
  induction fs generalizing i with
  | nil => rfl
  | cons f fs ihfs =>
    rw [skipFlatIndicesAll, ih f List.mem_cons_self, ihfs fun g hg => ih g (List.mem_cons_of_mem _ hg),
      FieldDesc.flatFieldCounts_cons, Nat.add_assoc]

theorem skipFlatIndices_eq {d : FieldDesc} (hd : OnlyStructuresNest d) :
    ∀ i, skipFlatIndices d i = i + d.flatFieldCount := by
  induction hd with
  | leaf ft id _ => intro i; cases ft <;> rfl
  | node ft id fs hft _ ih =>
    intro i
    have hskip : skipFlatIndices (.mk ft id fs) i = skipFlatIndicesAll fs (i + 1) := by
      rcases hft with rfl | rfl <;> rw [skipFlatIndices]
    rw [hskip, skipFlatIndicesAll_eq ih, FieldDesc.flatFieldCount_eq, FieldDesc.fields_mk,
      Nat.add_assoc]

theorem decodeDeltaFields_advance {changed : PvaBitSet} {fs : List (String × FieldDesc)}
    (ih : ∀ f ∈ fs, ∀ i r v j r', decodeDeltaStructure changed f.2 i r = (.ok (v, j), r') →
      j = i + f.2.flatFieldCount) :
    ∀ i r vs j r', decodeDeltaFields changed fs i r = (.ok (vs, j), r') →
      j = i + FieldDesc.flatFieldCounts fs := by
  induction fs with
  | nil =>
    intro i r vs j r' h
    rw [decodeDeltaFields_nil] at h
    exact (Prod.mk.inj (Read.pure_eq_ok.mp h).1).2.symm
  | cons f fs ihfs =>
    intro i r vs j r' h
    rw [decodeDeltaFields_cons] at h
    obtain ⟨⟨v, k⟩, r₁, hv, h⟩ := Read.bind_eq_ok.mp h
    obtain ⟨⟨ws, l⟩, r₂, hws, h⟩ := Read.bind_eq_ok.mp h
    obtain ⟨hout, rfl⟩ := Read.pure_eq_ok.mp h
    obtain ⟨_, rfl⟩ := Prod.mk.inj hout
    have hk := ih f List.mem_cons_self i r v k r₁ hv
    have hl := ihfs (fun g hg => ih g (List.mem_cons_of_mem _ hg)) k r₁ ws l r₂ hws
    rw [FieldDesc.flatFieldCounts_cons]
    omega

theorem decodeDeltaStructure_advance (changed : PvaBitSet) {d : FieldDesc}
    (hd : OnlyStructuresNest d) :
    ∀ i r v j r', decodeDeltaStructure changed d i r = (.ok (v, j), r') →
      j = i + d.flatFieldCount := by
  induction hd with
  | leaf ft id hft =>
    intro i r v j r' h
    obtain ⟨p, hp⟩ := decodeDeltaStructure_leaf id [] hft
    rw [hp] at h
    exact whenSet_advance h
  | node ft id fs hft hfs ih =>
    intro i r v j r' h
    rw [decodeDeltaStructure_structure _ _ _ _ hft] at h
    rw [FieldDesc.flatFieldCount_eq, FieldDesc.fields_mk]
    split_ifs at h
    · obtain ⟨⟨vs, k⟩, hvs, hout⟩ := Read.map_eq_ok.mp h
      have hk := decodeDeltaFields_advance ih _ _ _ _ _ hvs
      have hj : k = j := (Prod.mk.inj hout).2
      omega
    · have hskip := skipFlatIndicesAll_eq (fun f hf => skipFlatIndices_eq (hfs f hf)) (i + 1)
      have hj := (Prod.mk.inj (Read.pure_eq_ok.mp h).1).2
      omega

theorem consults_eq_flatOffset {changed : PvaBitSet} {d : FieldDesc} {i j : ℕ} {r : PvaReader}
    {p : List ℕ} (hc : Consults changed d i r p j) (hd : OnlyStructuresNest d) :
    j = i + flatOffset d p := by
  induction hc with
  | here d i r => rfl
  | child ft id pre f post i k j r r' vs p hft hany hpre hf ih =>
    have hfs := hd.of_mem_fields
    rw [FieldDesc.fields_mk] at hfs
    have hk := decodeDeltaFields_advance
      (fun g hg => decodeDeltaStructure_advance changed (hfs g (by simp [hg]))) _ _ _ _ _ hpre
    have hj := ih (hfs f (by simp))
    simp only [flatOffset, FieldDesc.fields_mk, List.take_left', List.getElem?_append_right, le_rfl,
      Nat.sub_self, List.getElem?_cons_zero]
    omega

/-! ## The converse

With exactly the structure nodes' bits set, the walk enters every structure and
reads nothing, so it succeeds on every payload and counts each other node once. -/

mutual

/-- The indices the decode walk passes when it enters every structure. -/
def walkCount : FieldDesc → ℕ
  | .mk ft _ fs =>
    match ft with
    | .struct | .structArray => 1 + walkCounts fs
    | _ => 1

def walkCounts : List (String × FieldDesc) → ℕ
  | [] => 0
  | (_, d) :: fs => walkCount d + walkCounts fs

end

mutual

/-- The indices of the structure nodes on that walk. -/
def structIndices : FieldDesc → ℕ → List ℕ
  | .mk ft _ fs, i =>
    match ft with
    | .struct | .structArray => i :: structIndicesAll fs (i + 1)
    | _ => []

def structIndicesAll : List (String × FieldDesc) → ℕ → List ℕ
  | [], _ => []
  | (_, d) :: fs, i => structIndices d i ++ structIndicesAll fs (i + walkCount d)

end

theorem walkCount_node {ft : FieldType} (hft : ft = .struct ∨ ft = .structArray) (id : String)
    (fs : List (String × FieldDesc)) : walkCount (.mk ft id fs) = 1 + walkCounts fs := by
  rcases hft with rfl | rfl <;> rw [walkCount]

theorem walkCount_leaf {ft : FieldType} (hft : ¬(ft = .struct ∨ ft = .structArray)) (id : String)
    (fs : List (String × FieldDesc)) : walkCount (.mk ft id fs) = 1 := by
  cases ft <;> simp_all [walkCount]

theorem structIndices_node {ft : FieldType} (hft : ft = .struct ∨ ft = .structArray) (id : String)
    (fs : List (String × FieldDesc)) (i : ℕ) :
    structIndices (.mk ft id fs) i = i :: structIndicesAll fs (i + 1) := by
  rcases hft with rfl | rfl <;> rw [structIndices]

theorem structIndices_leaf {ft : FieldType} (hft : ¬(ft = .struct ∨ ft = .structArray))
    (id : String) (fs : List (String × FieldDesc)) (i : ℕ) :
    structIndices (.mk ft id fs) i = [] := by
  cases ft <;> simp_all [structIndices]

theorem structIndicesAll_bounds {fs : List (String × FieldDesc)}
    (ih : ∀ f ∈ fs, ∀ i, ∀ j ∈ structIndices f.2 i, i ≤ j ∧ j < i + walkCount f.2) (i : ℕ) :
    ∀ j ∈ structIndicesAll fs i, i ≤ j ∧ j < i + walkCounts fs := by
  induction fs generalizing i with
  | nil => simp [structIndicesAll]
  | cons f fs ihfs =>
    intro j hj
    rw [structIndicesAll, List.mem_append] at hj
    rw [walkCounts]
    rcases hj with hj | hj
    · have := ih f List.mem_cons_self i j hj
      omega
    · have := ihfs (fun g hg => ih g (List.mem_cons_of_mem _ hg)) _ j hj
      omega

theorem structIndices_bounds (d : FieldDesc) :
    ∀ i, ∀ j ∈ structIndices d i, i ≤ j ∧ j < i + walkCount d := by
  induction d using FieldDesc.tree_induction with
  | node ft id fs ih =>
    intro i j hj
    by_cases hft : ft = .struct ∨ ft = .structArray
    · rw [structIndices_node hft, List.mem_cons] at hj
      rw [walkCount_node hft]
      rcases hj with rfl | hj
      · omega
      · have := structIndicesAll_bounds ih _ j hj
        omega
    · simp [structIndices_leaf hft] at hj

/-- `changed` agrees with `S` on the indices from `i` to before `k`. -/
def SetsExactly (changed : PvaBitSet) (S : List ℕ) (i k : ℕ) : Prop :=
  ∀ j, i ≤ j → j < k → (changed.isSet j = true ↔ j ∈ S)

theorem decodeDeltaFields_walk {changed : PvaBitSet} {fs : List (String × FieldDesc)}
    (ih : ∀ f ∈ fs, ∀ i, SetsExactly changed (structIndices f.2 i) i (i + walkCount f.2) →
      ∃ v, decodeDeltaStructure changed f.2 i = pure (v, i + walkCount f.2)) (i : ℕ)
    (hset : SetsExactly changed (structIndicesAll fs i) i (i + walkCounts fs)) :
    ∃ vs, decodeDeltaFields changed fs i = pure (vs, i + walkCounts fs) := by
  induction fs generalizing i with
  | nil => exact ⟨[], decodeDeltaFields_nil changed i⟩
  | cons f fs ihfs =>
    -- the bits of the first field and of the rest lie in disjoint ranges
    have hbounds := structIndices_bounds f.2 i
    have hrest := structIndicesAll_bounds (fun g (_ : g ∈ fs) => structIndices_bounds g.2)
      (i + walkCount f.2)
    rw [structIndicesAll, walkCounts] at hset
    obtain ⟨v, hv⟩ := ih f List.mem_cons_self i fun j hle hlt => by
      rw [hset j hle (by omega), List.mem_append]
      exact or_iff_left fun hj => by have := hrest j hj; omega
    obtain ⟨vs, hvs⟩ := ihfs (fun g hg => ih g (List.mem_cons_of_mem _ hg)) (i + walkCount f.2)
      fun j hle hlt => by
        rw [hset j (by omega) (by omega), List.mem_append]
        exact or_iff_right fun hj => by have := hbounds j hj; omega
    refine ⟨(f.1, v) :: vs, ?_⟩
    rw [decodeDeltaFields_cons, hv, walkCounts, ← Nat.add_assoc]
    simp [hvs]

theorem decodeDeltaStructure_walk {changed : PvaBitSet} (d : FieldDesc) :
    ∀ i, SetsExactly changed (structIndices d i) i (i + walkCount d) →
      ∃ v, decodeDeltaStructure changed d i = pure (v, i + walkCount d) := by
  induction d using FieldDesc.tree_induction with
  | node ft id fs ih =>
    intro i hset
    by_cases hft : ft = .struct ∨ ft = .structArray
    · rw [walkCount_node hft, structIndices_node hft] at hset
      have hany : anyChildSet changed i (1 + FieldDesc.flatFieldCounts fs) = true :=
        (anyChildSet_iff ..).mpr
          ⟨i, le_rfl, by omega, (hset i le_rfl (by omega)).mpr List.mem_cons_self⟩
      obtain ⟨vs, hvs⟩ := decodeDeltaFields_walk ih (i + 1) fun j hle hlt => by
        rw [hset j (by omega) (by omega), List.mem_cons]
        exact or_iff_right (by omega)
      refine ⟨.struct vs, ?_⟩
      rw [decodeDeltaStructure_structure _ _ _ _ hft, if_pos hany, hvs, walkCount_node hft,
        ← Nat.add_assoc]
      simp
    · rw [walkCount_leaf hft, structIndices_leaf hft] at hset
      have hclear : ¬changed.isSet i = true := by
        rw [hset i le_rfl (by omega)]; simp
      obtain ⟨p, hp⟩ := decodeDeltaStructure_leaf id fs hft
      exact ⟨.null, by rw [hp, whenSet, if_neg hclear, walkCount_leaf hft]⟩

theorem walkCounts_le {fs : List (String × FieldDesc)}
    (ih : ∀ f ∈ fs, walkCount f.2 ≤ f.2.flatFieldCount) :
    walkCounts fs ≤ FieldDesc.flatFieldCounts fs := by
  induction fs with
  | nil => exact le_rfl
  | cons f fs ihfs =>
    have h1 := ih f List.mem_cons_self
    have h2 := ihfs fun g hg => ih g (List.mem_cons_of_mem _ hg)
    rw [walkCounts, FieldDesc.flatFieldCounts_cons]
    omega

theorem walkCount_le (d : FieldDesc) : walkCount d ≤ d.flatFieldCount := by
  induction d using FieldDesc.tree_induction with
  | node ft id fs ih =>
    rw [FieldDesc.flatFieldCount_eq, FieldDesc.fields_mk]
    by_cases hft : ft = .struct ∨ ft = .structArray
    · have := walkCounts_le ih
      rw [walkCount_node hft]
      omega
    · rw [walkCount_leaf hft]
      omega

theorem walkCount_eq_of_walkCounts_eq {fs : List (String × FieldDesc)}
    (h : walkCounts fs = FieldDesc.flatFieldCounts fs) :
    ∀ f ∈ fs, walkCount f.2 = f.2.flatFieldCount := by
  induction fs with
  | nil => simp
  | cons f fs ih =>
    rw [walkCounts, FieldDesc.flatFieldCounts_cons] at h
    have h1 := walkCount_le f.2
    have h2 := walkCounts_le fun g (_ : g ∈ fs) => walkCount_le g.2
    intro g hg
    rcases List.mem_cons.mp hg with rfl | hg
    · omega
    · exact ih (by omega) g hg

theorem onlyStructuresNest_of_walkCount (d : FieldDesc) (h : walkCount d = d.flatFieldCount) :
    OnlyStructuresNest d := by
  induction d using FieldDesc.tree_induction with
  | node ft id fs ih =>
    rw [FieldDesc.flatFieldCount_eq, FieldDesc.fields_mk] at h
    by_cases hft : ft = .struct ∨ ft = .structArray
    · rw [walkCount_node hft] at h
      exact .node ft id fs hft fun f hf =>
        ih f hf (walkCount_eq_of_walkCounts_eq (by omega) f hf)
    · rw [walkCount_leaf hft] at h
      have hlen := FieldDesc.length_le_flatFieldCounts fs
      have hnil : fs = [] := List.length_eq_zero_iff.mp (by omega)
      subst hnil
      exact .leaf ft id hft

/-! ## The condition -/

/-- **Main theorem**: the three walks count alike exactly when no node other than
    a structure carries sub-fields. -/
theorem flatIndexAgreement_iff (d : FieldDesc) : FlatIndexAgreement d ↔ OnlyStructuresNest d := by
  constructor
  · intro h
    refine onlyStructuresNest_of_walkCount d ?_
    have hexact : SetsExactly (.fromBits (structIndices d 0)) (structIndices d 0) 0
        (0 + walkCount d) := by
      intro j _ _
      rw [PvaBitSet.isSet_fromBits, decide_eq_true_iff]
    obtain ⟨v, hv⟩ := decodeDeltaStructure_walk d 0 hexact
    have r : PvaReader := .new [] .littleEndian
    have := h.advance _ 0 r v (0 + walkCount d) r (by rw [hv]; rfl)
    omega
  · intro hd
    exact
      { advance := fun changed => decodeDeltaStructure_advance changed hd
        skip := skipFlatIndices_eq hd
        consulted := fun _ _ _ _ _ hc => consults_eq_flatOffset hc hd }

/-- A union in a structure, followed by a field `x`. -/
def unionBeforeField : FieldDesc :=
  .struct "" [("s", .struct "" [("u", .mk .union "" [("a", .scalar .int), ("b", .scalar .int)])]),
    ("x", .scalar .int)]

/-- Skipping the structure counts the members of the union, entering it does
    not: `x` is read at bit 5 in one delta and at bit 3 in the other. -/
theorem unionBeforeField_not_agree :
    let r := PvaReader.new [] .littleEndian
    Consults (.fromBits [0]) unionBeforeField 0 r [1] 5 ∧
      Consults (.fromBits [0, 1]) unionBeforeField 0 r [1] 3 ∧
      ¬FlatIndexAgreement unionBeforeField := by
  have skipped : Consults (.fromBits [0]) unionBeforeField 0 (.new [] .littleEndian) [1] 5 :=
    .child .struct "" (unionBeforeField.fields.take 1) ("x", .scalar .int) [] 0 5 5 _ _
      [("s", .null)] [] (.inl rfl) (by decide) rfl (.here _ _ _)
  have entered : Consults (.fromBits [0, 1]) unionBeforeField 0 (.new [] .littleEndian) [1] 3 :=
    .child .struct "" (unionBeforeField.fields.take 1) ("x", .scalar .int) [] 0 3 3 _ _
      [("s", .struct [("u", .null)])] [] (.inl rfl) (by decide) rfl (.here _ _ _)
  refine ⟨skipped, entered, fun h => ?_⟩
  have h5 := h.consulted _ _ _ _ _ skipped
  have h3 := h.consulted _ _ _ _ _ entered
  omega

end AuraEpics.Session

import AuraEpics.Codec.PvData

/-!
# Field descriptions

Model of the descriptor tree of `crates/aura-net/src/codec/field_desc.rs` (lines
78-230) and of the scalar type tags of `crates/aura-core/src/pva/scalars.rs`. A
`NamedField` is the pair of its name and its descriptor.

The tree is not indexed by its `FieldType`: as in the source, nothing stops a
scalar node from carrying sub-fields, and `flat_field_count` counts them.
-/

namespace AuraEpics.Codec

/-- `ScalarType` (scalars.rs, lines 18-31). -/
inductive ScalarType where
  | boolean
  | byte
  | short
  | int
  | long
  | ubyte
  | ushort
  | uint
  | ulong
  | float
  | double
  | string
  deriving DecidableEq, Repr

/-- `ScalarType::from_wire` (scalars.rs, lines 51-67). -/
def ScalarType.fromWire : ℕ → Option ScalarType
  | 0 => some .boolean
  | 1 => some .byte
  | 2 => some .short
  | 3 => some .int
  | 4 => some .long
  | 5 => some .ubyte
  | 6 => some .ushort
  | 7 => some .uint
  | 8 => some .ulong
  | 9 => some .float
  | 10 => some .double
  | 11 => some .string
  | _ => none

/-- `FieldType` (lines 80-90). -/
inductive FieldType where
  | scalar (st : ScalarType)
  | scalarArray (st : ScalarType)
  | boundedString (maxLen : ℕ)
  | struct
  | structArray
  | union
  | unionArray
  | variantUnion
  | variantUnionArray
  deriving DecidableEq, Repr

/-- `FieldDesc` (lines 109-113); its `Vec<NamedField>` is a list of pairs. -/
inductive FieldDesc where
  | mk (fieldType : FieldType) (typeId : String) (fields : List (String × FieldDesc))

namespace FieldDesc

def fieldType : FieldDesc → FieldType
  | mk ft _ _ => ft

def typeId : FieldDesc → String
  | mk _ id _ => id

def fields : FieldDesc → List (String × FieldDesc)
  | mk _ _ fs => fs

@[simp] theorem fieldType_mk (ft : FieldType) (id : String) (fs : List (String × FieldDesc)) :
    (mk ft id fs).fieldType = ft := rfl

@[simp] theorem typeId_mk (ft : FieldType) (id : String) (fs : List (String × FieldDesc)) :
    (mk ft id fs).typeId = id := rfl

@[simp] theorem fields_mk (ft : FieldType) (id : String) (fs : List (String × FieldDesc)) :
    (mk ft id fs).fields = fs := rfl

/-- `FieldDesc::scalar` (lines 140-146). -/
def scalar (st : ScalarType) : FieldDesc := mk (.scalar st) "" []

/-- `FieldDesc::scalar_array` (lines 147-153). -/
def scalarArray (st : ScalarType) : FieldDesc := mk (.scalarArray st) "" []

/-- `FieldDesc::structure` (lines 154-160). -/
def struct (typeId : String) (fields : List (String × FieldDesc)) : FieldDesc :=
  mk .struct typeId fields

/-- `FieldDesc::is_structure` (lines 190-192). -/
def isStructure (d : FieldDesc) : Bool :=
  match d.fieldType with
  | .struct => true
  | _ => false

/-- `FieldDesc::find_field` (lines 217-222). -/
def findField (d : FieldDesc) (name : String) : Option FieldDesc :=
  (d.fields.find? fun f => f.1 == name).map Prod.snd

mutual

/-- `FieldDesc::flat_field_count` (lines 224-230). -/
def flatFieldCount : FieldDesc → ℕ
  | mk _ _ fs => 1 + flatFieldCounts fs

/-- The `sum` of the sub-fields' counts. -/
def flatFieldCounts : List (String × FieldDesc) → ℕ
  | [] => 0
  | (_, d) :: fs => d.flatFieldCount + flatFieldCounts fs

end

@[simp] theorem flatFieldCounts_nil : flatFieldCounts [] = 0 := rfl

@[simp] theorem flatFieldCounts_cons (f : String × FieldDesc) (fs : List (String × FieldDesc)) :
    flatFieldCounts (f :: fs) = f.2.flatFieldCount + flatFieldCounts fs := by
  rfl

theorem flatFieldCount_eq (d : FieldDesc) : d.flatFieldCount = 1 + flatFieldCounts d.fields := by
  cases d; rfl

theorem flatFieldCount_pos (d : FieldDesc) : 0 < d.flatFieldCount := by
  rw [flatFieldCount_eq]; omega

/-- A list of fields has at least one index for each field. -/
theorem length_le_flatFieldCounts (fs : List (String × FieldDesc)) :
    fs.length ≤ flatFieldCounts fs := by
  induction fs with
  | nil => simp
  | cons f fs ih =>
    have := flatFieldCount_pos f.2
    simp only [List.length_cons, flatFieldCounts_cons]
    omega

/-- Induction over the descriptor tree: a property that passes from all
    sub-fields to their parent holds of every descriptor. -/
@[elab_as_elim]
theorem tree_induction {motive : FieldDesc → Prop}
    (node : ∀ ft id fs, (∀ f ∈ fs, motive f.2) → motive (mk ft id fs)) (d : FieldDesc) :
    motive d := by
  refine FieldDesc.rec (motive_1 := motive) (motive_2 := fun fs => ∀ f ∈ fs, motive f.2)
    (motive_3 := fun f => motive f.2) ?_ ?_ ?_ ?_ d
  · exact node
  · intro f hf; cases hf
  · intro f fs hf hfs g hg
    rcases List.mem_cons.mp hg with rfl | hg
    · exact hf
    · exact hfs g hg
  · intro _ _ h; exact h

end FieldDesc

end AuraEpics.Codec

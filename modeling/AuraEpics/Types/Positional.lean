import AuraEpics.Types.ToNormative

/-!
# NTScalar by position and by name

`convert_nt_scalar` (`crates/aura-net/src/types/to_normative.rs`, lines 83-138) reads a structure
whose first field is a scalar by position: value, alarm and timeStamp, and the first three fields
of the last two. `convert_nt_scalar_fallback` looks every field up by its name.

Both make the same NTScalar of their seven leaves (`convertNtScalar_of_readByPosition`,
`convertNtScalarFallback_eq`). The layout of a structure, its field names in their order, says
from which places the two paths take them (`placeAt`, `placeNamed`).

Result: `convertNtScalar_eq_fallback_iff`, for which layouts they agree on every structure, and
on which structures of the others.
-/

namespace AuraEpics.Types

open AuraEpics.Core

namespace PvaValue

/-- The field names of every structure in the value are pairwise distinct. -/
inductive DistinctNames : PvaValue → Prop where
  | scalar (s : ScalarValue) : DistinctNames (scalar s)
  | scalarArray (vs : List ScalarValue) : DistinctNames (scalarArray vs)
  | struct (fs : List (String × PvaValue)) (hnames : (fs.map Prod.fst).Nodup)
      (hfields : ∀ f ∈ fs, DistinctNames f.2) : DistinctNames (struct fs)
  | union (name : String) (v : PvaValue) (h : DistinctNames v) : DistinctNames (union name v)
  | null : DistinctNames null

/-! ## Leaves -/

/-- The field at index `j` of the field at index `i`. -/
def leafAt (v : PvaValue) (i j : ℕ) : Option PvaValue :=
  (v.fieldByIndex i).bind fun w => w.fieldByIndex j

/-- The field `sub` of the field `name`. -/
def leafNamed (v : PvaValue) (name sub : String) : Option PvaValue :=
  (v.field name).bind fun w => w.field sub

end PvaValue

/-- A leaf as an integer of 32 bits, 0 where there is none. -/
def leafI32 (leaf : Option PvaValue) : Int32 := (leaf.bind PvaValue.asI32).getD 0

/-- A leaf as an integer of 64 bits, 0 where there is none. -/
def leafI64 (leaf : Option PvaValue) : Int64 := (leaf.bind PvaValue.asI64).getD 0

/-- A leaf as a text, the empty one where there is none. -/
def leafText (leaf : Option PvaValue) : String := (leaf.bind PvaValue.asString).getD ""

/-- The alarm of three leaves. -/
def alarmOf (severity status message : Option PvaValue) : Alarm :=
  ⟨.ofI16 (leafI32 severity).toInt16, .ofI16 (leafI32 status).toInt16, leafText message⟩

/-- The time stamp of three leaves. -/
def timestampOf (seconds nanoseconds userTag : Option PvaValue) : TimeStamp :=
  ⟨leafI64 seconds, (leafI32 nanoseconds).toUInt32, leafI32 userTag⟩

theorem alarmByPosition_eq (a : PvaValue) :
    alarmByPosition a = alarmOf (a.fieldByIndex 0) (a.fieldByIndex 1) (a.fieldByIndex 2) := by
  cases a with
  | struct fs =>
    unfold alarmByPosition alarmOf leafI32 leafText PvaValue.fieldByIndex
    simp only [Option.bind_map]
    rfl
  | _ => rfl

theorem timestampByPosition_eq (t : PvaValue) :
    timestampByPosition t =
      timestampOf (t.fieldByIndex 0) (t.fieldByIndex 1) (t.fieldByIndex 2) := by
  cases t with
  | struct fs =>
    unfold timestampByPosition timestampOf leafI32 leafI64 PvaValue.fieldByIndex
    simp only [Option.bind_map]
    rfl
  | _ => rfl

theorem extractAlarm_eq (v : PvaValue) :
    extractAlarm v = alarmOf (v.leafNamed "alarm" "severity") (v.leafNamed "alarm" "status")
      (v.leafNamed "alarm" "message") := by
  unfold extractAlarm alarmOf PvaValue.leafNamed
  cases v.field "alarm" with
  | none => rfl
  | some a => rfl

theorem extractTimestamp_eq (v : PvaValue) :
    extractTimestamp v =
      timestampOf (v.leafNamed "timeStamp" "secondsPastEpoch")
        (v.leafNamed "timeStamp" "nanoseconds") (v.leafNamed "timeStamp" "userTag") := by
  unfold extractTimestamp timestampOf PvaValue.leafNamed
  cases v.field "timeStamp" with
  | none => rfl
  | some t => rfl

/-! ## Both conversions -/

/-- The NTScalar of a value and of the leaves of its alarm and its time stamp. -/
def scalarOf (s : ScalarValue) (alarm : Alarm) (timestamp : TimeStamp) : NormativeType :=
  .ntScalar ⟨s, alarm, timestamp, none, none, none⟩

theorem scalarOf_inj {s s' : ScalarValue} {a a' : Alarm} {t t' : TimeStamp} :
    scalarOf s a t = scalarOf s' a' t' ↔ s = s' ∧ a = a' ∧ t = t' := by
  simp [scalarOf]

/-- The structure has three fields or more and the first is a scalar (lines 84-91). -/
def ReadByPosition (v : PvaValue) : Prop :=
  ((v.fieldByIndex 0).bind PvaValue.asScalar).isSome ∧ (v.fieldByIndex 2).isSome

instance (v : PvaValue) : Decidable (ReadByPosition v) := inferInstanceAs (Decidable (_ ∧ _))

theorem convertNtScalar_of_readByPosition {v : PvaValue} (h : ReadByPosition v) :
    convertNtScalar v = ((v.fieldByIndex 0).bind PvaValue.asScalar).map fun s =>
      scalarOf s (alarmOf (v.leafAt 1 0) (v.leafAt 1 1) (v.leafAt 1 2))
        (timestampOf (v.leafAt 2 0) (v.leafAt 2 1) (v.leafAt 2 2)) := by
  obtain ⟨hfirst, hthird⟩ := h
  match v with
  | .struct ((_, .scalar s) :: (_, alarm) :: (_, timestamp) :: _) =>
    show some (scalarOf s (alarmByPosition alarm) (timestampByPosition timestamp)) = _
    rw [alarmByPosition_eq, timestampByPosition_eq]
    rfl

theorem convertNtScalar_of_not_readByPosition {v : PvaValue} (h : ¬ReadByPosition v) :
    convertNtScalar v = convertNtScalarFallback v := by
  unfold convertNtScalar
  split
  · exact absurd ⟨rfl, rfl⟩ h
  · rfl

theorem convertNtScalarFallback_eq (v : PvaValue) :
    convertNtScalarFallback v = ((v.field "value").bind PvaValue.asScalar).map fun s =>
      scalarOf s
        (alarmOf (v.leafNamed "alarm" "severity") (v.leafNamed "alarm" "status")
          (v.leafNamed "alarm" "message"))
        (timestampOf (v.leafNamed "timeStamp" "secondsPastEpoch")
          (v.leafNamed "timeStamp" "nanoseconds") (v.leafNamed "timeStamp" "userTag")) := by
  rw [← extractAlarm_eq, ← extractTimestamp_eq]
  unfold convertNtScalarFallback
  cases v.field "value" with
  | none => rfl
  | some w =>
    show (w.asScalar).bind _ = (w.asScalar).map _
    cases w.asScalar <;> rfl

/-- A structure read by position becomes what it does by name exactly if value, alarm and time
    stamp come out alike. -/
theorem convertNtScalar_eq_iff {v : PvaValue} (hpos : ReadByPosition v) :
    convertNtScalar v = convertNtScalarFallback v ↔
      (v.fieldByIndex 0).bind PvaValue.asScalar = (v.field "value").bind PvaValue.asScalar ∧
      alarmOf (v.leafAt 1 0) (v.leafAt 1 1) (v.leafAt 1 2) =
        alarmOf (v.leafNamed "alarm" "severity") (v.leafNamed "alarm" "status")
          (v.leafNamed "alarm" "message") ∧
      timestampOf (v.leafAt 2 0) (v.leafAt 2 1) (v.leafAt 2 2) =
        timestampOf (v.leafNamed "timeStamp" "secondsPastEpoch")
          (v.leafNamed "timeStamp" "nanoseconds") (v.leafNamed "timeStamp" "userTag") := by
  obtain ⟨s, hs⟩ := Option.isSome_iff_exists.1 hpos.1
  rw [convertNtScalar_of_readByPosition hpos, convertNtScalarFallback_eq, hs]
  cases (v.field "value").bind PvaValue.asScalar with
  | none => simp
  | some s' =>
    rw [Option.map_some, Option.map_some, Option.some_inj, Option.some_inj, scalarOf_inj]

/-! ## Layouts -/

/-- The field names of a value and of the structures in it; what its leaves hold is left out. -/
inductive Layout where
  | leaf
  | struct (fields : List (String × Layout))

mutual

def PvaValue.layout : PvaValue → Layout
  | .struct fs => .struct (fieldLayouts fs)
  | .scalar _ => .leaf
  | .scalarArray _ => .leaf
  | .union _ _ => .leaf
  | .null => .leaf

def fieldLayouts : List (String × PvaValue) → List (String × Layout)
  | [] => []
  | (name, v) :: fs => (name, v.layout) :: fieldLayouts fs

end

theorem fieldLayouts_eq (fs : List (String × PvaValue)) :
    fieldLayouts fs = fs.map fun f => (f.1, f.2.layout) := by
  induction fs with
  | nil => rw [fieldLayouts, List.map_nil]
  | cons f fs ih =>
    obtain ⟨name, v⟩ := f
    rw [fieldLayouts, ih, List.map_cons]

namespace Layout

/-- The layout of the field at an index. -/
def fieldAt : Layout → ℕ → Option Layout
  | struct fs, i => fs[i]?.map Prod.snd
  | leaf, _ => none

/-- The index of the first field of a name. -/
def indexOf : Layout → String → Option ℕ
  | struct fs, name => fs.findIdx? fun f => f.1 == name
  | leaf, _ => none

/-- The place of the leaf at index `j` of the field at index `i`, if there is one. -/
def placeAt (l : Layout) (i j : ℕ) : Option (ℕ × ℕ) :=
  match (l.fieldAt i).bind fun m => m.fieldAt j with
  | some leaf => some (i, j)
  | _ => none

/-- The place of the leaf `sub` of the field `name`, if there is one. -/
def placeNamed (l : Layout) (name sub : String) : Option (ℕ × ℕ) :=
  (l.indexOf name).bind fun i => (l.fieldAt i).bind fun m => (m.indexOf sub).bind fun j =>
    l.placeAt i j

theorem placeAt_eq_some {l : Layout} {i j : ℕ} {p : ℕ × ℕ} (h : l.placeAt i j = some p) :
    p = (i, j) ∧ (l.fieldAt i).bind (fun m => m.fieldAt j) = some leaf := by
  unfold placeAt at h
  split at h
  · next hleaf => exact ⟨(Option.some.inj h).symm, hleaf⟩
  · cases h

theorem placeNamed_eq_some {l : Layout} {name sub : String} {p : ℕ × ℕ}
    (h : l.placeNamed name sub = some p) : l.placeAt p.1 p.2 = some p := by
  simp only [placeNamed, Option.bind_eq_some_iff] at h
  obtain ⟨i, -, m, -, j, -, hplace⟩ := h
  obtain ⟨rfl, -⟩ := placeAt_eq_some hplace
  exact hplace

/-- The first field is a leaf and there are three fields. -/
def ReadByPosition (l : Layout) : Prop := l.fieldAt 0 = some leaf ∧ (l.fieldAt 2).isSome

/-- Both paths take value, alarm and time stamp from the same places. -/
structure SamePlaces (l : Layout) : Prop where
  value : l.indexOf "value" = some 0
  severity : l.placeAt 1 0 = l.placeNamed "alarm" "severity"
  status : l.placeAt 1 1 = l.placeNamed "alarm" "status"
  message : l.placeAt 1 2 = l.placeNamed "alarm" "message"
  seconds : l.placeAt 2 0 = l.placeNamed "timeStamp" "secondsPastEpoch"
  nanoseconds : l.placeAt 2 1 = l.placeNamed "timeStamp" "nanoseconds"
  userTag : l.placeAt 2 2 = l.placeNamed "timeStamp" "userTag"

end Layout

theorem fieldAt_layout (v : PvaValue) (i : ℕ) :
    v.layout.fieldAt i = (v.fieldByIndex i).map PvaValue.layout := by
  cases v with
  | struct fs =>
    rw [PvaValue.layout, Layout.fieldAt, fieldLayouts_eq, List.getElem?_map, PvaValue.fieldByIndex,
      Option.map_map, Option.map_map]
    rfl
  | _ =>
    rw [PvaValue.layout]
    rfl

theorem field_eq (v : PvaValue) (name : String) :
    v.field name = (v.layout.indexOf name).bind v.fieldByIndex := by
  cases v with
  | struct fs =>
    rw [PvaValue.layout, Layout.indexOf, fieldLayouts_eq, List.findIdx?_map, PvaValue.field,
      List.find?_eq_bind_findIdx?_getElem?, Option.map_bind]
    rfl
  | _ =>
    rw [PvaValue.layout]
    rfl

theorem readByPosition_layout {v : PvaValue} (h : ReadByPosition v) : v.layout.ReadByPosition := by
  obtain ⟨hfirst, hthird⟩ := h
  refine ⟨?_, by rw [fieldAt_layout, Option.isSome_map]; exact hthird⟩
  obtain ⟨s, hs⟩ := Option.isSome_iff_exists.1 hfirst
  obtain ⟨w, hw, hscalar⟩ := Option.bind_eq_some_iff.1 hs
  rw [fieldAt_layout, hw, Option.map_some]
  cases w with
  | scalar s => rw [PvaValue.layout]
  | _ => cases hscalar

section Read

variable {β : Type} {f : Option PvaValue → β}

/-- What is read at an index is in its place, or there is nothing to read. -/
theorem read_leafAt (hread : ∀ fs, f (some (.struct fs)) = f none) (v : PvaValue) (i j : ℕ) :
    f (v.leafAt i j) =
      (v.layout.placeAt i j).elim (f none) fun p => f (v.leafAt p.1 p.2) := by
  have hlayout : ((v.layout.fieldAt i).bind fun m => m.fieldAt j) =
      (v.leafAt i j).map PvaValue.layout := by
    unfold PvaValue.leafAt
    rw [fieldAt_layout, Option.bind_map, Option.map_bind]
    exact congrArg _ (funext fun w => fieldAt_layout w j)
  unfold Layout.placeAt
  rw [hlayout]
  cases hleaf : v.leafAt i j with
  | none => rfl
  | some w =>
    cases w with
    | struct fs =>
      rw [Option.map_some, PvaValue.layout]
      exact hread fs
    | _ =>
      rw [Option.map_some, PvaValue.layout]
      exact congrArg f hleaf.symm

/-- What is read under a name is in its place, or there is nothing to read. -/
theorem read_leafNamed (hread : ∀ fs, f (some (.struct fs)) = f none) (v : PvaValue)
    (name sub : String) : f (v.leafNamed name sub) =
      (v.layout.placeNamed name sub).elim (f none) fun p => f (v.leafAt p.1 p.2) := by
  unfold PvaValue.leafNamed Layout.placeNamed
  rw [field_eq]
  cases v.layout.indexOf name with
  | none => rfl
  | some i =>
    rw [Option.bind_some, Option.bind_some, fieldAt_layout]
    cases hw : v.fieldByIndex i with
    | none => rfl
    | some w =>
      rw [Option.map_some, Option.bind_some, Option.bind_some, field_eq]
      cases w.layout.indexOf sub with
      | none => rfl
      | some j =>
        have hat : v.leafAt i j = w.fieldByIndex j := by
          unfold PvaValue.leafAt
          rw [hw, Option.bind_some]
        rw [Option.bind_some, Option.bind_some, ← hat]
        exact read_leafAt hread v i j

theorem read_eq_of_place (hread : ∀ fs, f (some (.struct fs)) = f none) {v : PvaValue}
    {i j : ℕ} {name sub : String} (h : v.layout.placeAt i j = v.layout.placeNamed name sub) :
    f (v.leafAt i j) = f (v.leafNamed name sub) := by
  rw [read_leafAt hread, read_leafNamed hread, h]

end Read

/-! ## Where they agree -/

/-- The numbers `AlarmSeverity` and `AlarmStatus` have a case for. -/
def severityCodes : List Int16 := [0, 1, 2, 3]
def statusCodes : List Int16 := [0, 1, 2, 3, 4, 5, 7]

/-- The same number, or two that there is no case for. -/
def SameCode (codes : List Int16) (n m : Int16) : Prop := n = m ∨ n ∉ codes ∧ m ∉ codes

/-- An enumeration with a case for each of some numbers and one more for all others. -/
theorem ofCode_eq_iff {α : Type} {codes : List Int16} {of : Int16 → α} {c : α → Int16} {d : α}
    (hcode : ∀ n ∈ codes, c (of n) = n) (hrest : ∀ n, n ∉ codes → of n = d)
    (hother : c d ∉ codes) (n m : Int16) : of n = of m ↔ SameCode codes n m := by
  have hne : ∀ n ∈ codes, of n ≠ d := by
    intro n hn heq
    rw [← hcode n hn, heq] at hn
    exact hother hn
  constructor
  · intro heq
    by_cases hn : n ∈ codes
    · by_cases hm : m ∈ codes
      · left
        rw [← hcode n hn, heq, hcode m hm]
      · exact absurd (heq.trans (hrest m hm)) (hne n hn)
    · refine .inr ⟨hn, fun hm => ?_⟩
      exact hne m hm (heq.symm.trans (hrest n hn))
  · rintro (rfl | ⟨hn, hm⟩)
    · rfl
    · rw [hrest n hn, hrest m hm]

theorem severity_ofI16_eq_iff (n m : Int16) :
    AlarmSeverity.ofI16 n = .ofI16 m ↔ SameCode severityCodes n m := by
  refine ofCode_eq_iff (c := AlarmSeverity.toI16) (d := .undefined) (fun n hn => ?_) (fun n hn => ?_)
    (by decide) n m
  · simp only [severityCodes, List.mem_cons, List.not_mem_nil, or_false] at hn
    obtain rfl | rfl | rfl | rfl := hn <;> decide
  · simp only [severityCodes, List.mem_cons, List.not_mem_nil, or_false, not_or] at hn
    simp only [AlarmSeverity.ofI16, hn, if_false]

theorem status_ofI16_eq_iff (n m : Int16) :
    AlarmStatus.ofI16 n = .ofI16 m ↔ SameCode statusCodes n m := by
  refine ofCode_eq_iff (c := AlarmStatus.toI16) (d := .undefined) (fun n hn => ?_) (fun n hn => ?_)
    (by decide) n m
  · simp only [statusCodes, List.mem_cons, List.not_mem_nil, or_false] at hn
    obtain rfl | rfl | rfl | rfl | rfl | rfl | rfl := hn <;> decide
  · simp only [statusCodes, List.mem_cons, List.not_mem_nil, or_false, not_or] at hn
    simp only [AlarmStatus.ofI16, hn, if_false]

/-- The field at each index is the one of the expected name, or another field stands there that
    holds the same as the field of that name. -/
structure Aligned (v : PvaValue) : Prop where
  value : v.layout.indexOf "value" = some 0 ∨ v.field "value" = v.fieldByIndex 0
  severity : v.layout.placeAt 1 0 = v.layout.placeNamed "alarm" "severity" ∨
    SameCode severityCodes (leafI32 (v.leafAt 1 0)).toInt16
      (leafI32 (v.leafNamed "alarm" "severity")).toInt16
  status : v.layout.placeAt 1 1 = v.layout.placeNamed "alarm" "status" ∨
    SameCode statusCodes (leafI32 (v.leafAt 1 1)).toInt16
      (leafI32 (v.leafNamed "alarm" "status")).toInt16
  message : v.layout.placeAt 1 2 = v.layout.placeNamed "alarm" "message" ∨
    leafText (v.leafAt 1 2) = leafText (v.leafNamed "alarm" "message")
  seconds : v.layout.placeAt 2 0 = v.layout.placeNamed "timeStamp" "secondsPastEpoch" ∨
    leafI64 (v.leafAt 2 0) = leafI64 (v.leafNamed "timeStamp" "secondsPastEpoch")
  nanoseconds : v.layout.placeAt 2 1 = v.layout.placeNamed "timeStamp" "nanoseconds" ∨
    leafI32 (v.leafAt 2 1) = leafI32 (v.leafNamed "timeStamp" "nanoseconds")
  userTag : v.layout.placeAt 2 2 = v.layout.placeNamed "timeStamp" "userTag" ∨
    leafI32 (v.leafAt 2 2) = leafI32 (v.leafNamed "timeStamp" "userTag")

theorem Layout.SamePlaces.aligned {v : PvaValue} (h : v.layout.SamePlaces) : Aligned v :=
  ⟨.inl h.value, .inl h.severity, .inl h.status, .inl h.message, .inl h.seconds,
    .inl h.nanoseconds, .inl h.userTag⟩

/-- The value is the same if the field `value` comes first, or holds the same scalar. -/
theorem value_eq_iff {v : PvaValue} (hpos : ReadByPosition v) :
    (v.fieldByIndex 0).bind PvaValue.asScalar = (v.field "value").bind PvaValue.asScalar ↔
      v.layout.indexOf "value" = some 0 ∨ v.field "value" = v.fieldByIndex 0 := by
  constructor
  · intro heq
    refine .inr ?_
    obtain ⟨s, hs⟩ := Option.isSome_iff_exists.1 hpos.1
    have hscalar : ∀ {w : Option PvaValue}, w.bind PvaValue.asScalar = some s →
        w = some (.scalar s) := by
      intro w hw
      obtain ⟨u, rfl, hu⟩ := Option.bind_eq_some_iff.1 hw
      cases u with
      | scalar t => rw [Option.some.inj hu]
      | _ => cases hu
    rw [hscalar hs]
    exact hscalar (heq ▸ hs)
  · rintro (hfirst | hsame)
    · rw [field_eq, hfirst, Option.bind_some]
    · rw [hsame]

/-- A structure read by position becomes what it does by name exactly if it is aligned. -/
theorem convertNtScalar_eq_iff_aligned {v : PvaValue} (hpos : ReadByPosition v) :
    convertNtScalar v = convertNtScalarFallback v ↔ Aligned v := by
  have hi32 : ∀ fs, leafI32 (some (.struct fs)) = leafI32 none := fun _ => rfl
  rw [convertNtScalar_eq_iff hpos, value_eq_iff hpos]
  simp only [alarmOf, timestampOf, Alarm.mk.injEq, TimeStamp.mk.injEq, severity_ofI16_eq_iff,
    status_ofI16_eq_iff]
  constructor
  · rintro ⟨hvalue, ⟨hseverity, hstatus, hmessage⟩, hseconds, hnanos, htag⟩
    exact ⟨hvalue, .inr hseverity, .inr hstatus, .inr hmessage, .inr hseconds,
      .inr (congrArg Int32.ofUInt32 hnanos), .inr htag⟩
  · rintro ⟨hvalue, hseverity, hstatus, hmessage, hseconds, hnanos, htag⟩
    refine ⟨hvalue, ⟨hseverity.elim (fun h => .inl ?_) id, hstatus.elim (fun h => .inl ?_) id,
      hmessage.elim (fun h => ?_) id⟩, hseconds.elim (fun h => ?_) id,
      congrArg Int32.toUInt32 (hnanos.elim (fun h => ?_) id), htag.elim (fun h => ?_) id⟩
    · rw [read_eq_of_place hi32 h]
    · rw [read_eq_of_place hi32 h]
    · exact read_eq_of_place (fun _ => rfl) h
    · exact read_eq_of_place (fun _ => rfl) h
    · exact read_eq_of_place hi32 h
    · exact read_eq_of_place hi32 h

/-! ## Layouts on which they agree -/

mutual

/-- A value of a layout: every leaf is the number 0. -/
def Layout.blank : Layout → PvaValue
  | .leaf => .scalar (.int 0)
  | .struct fs => .struct (blankFields fs)

def blankFields : List (String × Layout) → List (String × PvaValue)
  | [] => []
  | (name, l) :: fs => (name, l.blank) :: blankFields fs

end

mutual

theorem layout_blank (l : Layout) : l.blank.layout = l := by
  cases l with
  | leaf => rw [Layout.blank, PvaValue.layout]
  | struct fs => rw [Layout.blank, PvaValue.layout, fieldLayouts_blank fs]

theorem fieldLayouts_blank (fs : List (String × Layout)) : fieldLayouts (blankFields fs) = fs := by
  cases fs with
  | nil => rw [blankFields, fieldLayouts]
  | cons f fs =>
    obtain ⟨name, l⟩ := f
    rw [blankFields, fieldLayouts, layout_blank l, fieldLayouts_blank fs]

end

namespace Layout

/-- A field at index `i` of a value: its leaves are filled from `x`. -/
def fillField (i : ℕ) (x : ℕ × ℕ → ScalarValue) : Layout → PvaValue
  | leaf => if i = 0 then .scalar (.int 0) else .null
  | struct gs => .struct (gs.mapIdx fun j g => (g.1, match g.2 with
    | leaf => .scalar (x (i, j))
    | struct hs => (struct hs).blank))

/-- A value of a layout whose leaves are filled from `x`. -/
def fill (l : Layout) (x : ℕ × ℕ → ScalarValue) : PvaValue :=
  match l with
  | leaf => .null
  | struct fs => .struct (fs.mapIdx fun i f => (f.1, fillField i x f.2))

theorem map_mapIdx_eq {α β : Type} (f : ℕ → α → β) (g : β → α) (h : ∀ i a, g (f i a) = a)
    (as : List α) : (as.mapIdx f).map g = as := by
  refine List.ext_getElem? fun i => ?_
  rw [List.getElem?_map, List.getElem?_mapIdx, Option.map_map]
  cases as[i]? with
  | none => rfl
  | some a => exact congrArg some (h i a)

theorem layout_fillField (i : ℕ) (x : ℕ × ℕ → ScalarValue) (l : Layout) :
    (l.fillField i x).layout = l := by
  cases l with
  | leaf =>
    unfold fillField
    split_ifs
    · rw [PvaValue.layout]
    · rw [PvaValue.layout]
  | struct gs =>
    rw [fillField, PvaValue.layout, fieldLayouts_eq]
    refine congrArg struct (map_mapIdx_eq _ _ (fun j g => ?_) gs)
    obtain ⟨name, l⟩ := g
    cases l with
    | leaf => simp only [PvaValue.layout]
    | struct hs => exact congrArg (Prod.mk name) (layout_blank _)

theorem layout_fill (l : Layout) (x : ℕ × ℕ → ScalarValue) : (l.fill x).layout = l := by
  cases l with
  | leaf => rw [fill, PvaValue.layout]
  | struct fs =>
    rw [fill, PvaValue.layout, fieldLayouts_eq]
    refine congrArg struct (map_mapIdx_eq _ _ (fun i f => ?_) fs)
    exact congrArg (Prod.mk f.1) (layout_fillField i x f.2)

theorem fieldByIndex_fill (l : Layout) (x : ℕ × ℕ → ScalarValue) (i : ℕ) :
    (l.fill x).fieldByIndex i = (l.fieldAt i).map (fillField i x) := by
  cases l with
  | leaf => rfl
  | struct fs =>
    rw [fill, PvaValue.fieldByIndex, List.getElem?_mapIdx, fieldAt, Option.map_map, Option.map_map]
    rfl

/-- The leaf in a place holds what it was filled with. -/
theorem leafAt_fill {l : Layout} (x : ℕ × ℕ → ScalarValue) {p : ℕ × ℕ}
    (h : l.placeAt p.1 p.2 = some p) : (l.fill x).leafAt p.1 p.2 = some (.scalar (x p)) := by
  obtain ⟨m, hm, hleaf⟩ := Option.bind_eq_some_iff.1 (placeAt_eq_some h).2
  unfold PvaValue.leafAt
  rw [fieldByIndex_fill, hm, Option.map_some, Option.bind_some]
  cases m with
  | leaf => cases hleaf
  | struct gs =>
    obtain ⟨g, hg, hg2⟩ := Option.map_eq_some_iff.1 hleaf
    rw [fillField, PvaValue.fieldByIndex, List.getElem?_mapIdx, hg, Option.map_some,
      Option.map_some]
    rw [hg2]

theorem readByPosition_fill {l : Layout} (h : l.ReadByPosition) (x : ℕ × ℕ → ScalarValue) :
    AuraEpics.Types.ReadByPosition (l.fill x) := by
  refine ⟨?_, by rw [fieldByIndex_fill, Option.isSome_map]; exact h.2⟩
  rw [fieldByIndex_fill, h.1]
  rfl

/-- If whatever the leaves hold the same is read at an index and under a name, the place is the
    same: else one of the two reads a leaf that the other does not. -/
theorem place_eq_of_read {β : Type} {f : Option PvaValue → β} {s : ScalarValue}
    (hread : ∀ fs, f (some (.struct fs)) = f none)
    (hzero : f (some (.scalar (.int 0))) = f none)
    (hs : f (some (.scalar s)) ≠ f none) {l : Layout} {i j : ℕ} {name sub : String}
    (h : ∀ x, f ((l.fill x).leafAt i j) = f ((l.fill x).leafNamed name sub)) :
    l.placeAt i j = l.placeNamed name sub := by
  -- all leaves hold 0, but for the one in the place `p`
  have hfill : ∀ p q : ℕ × ℕ, l.placeAt q.1 q.2 = some q →
      f ((l.fill (Function.update (fun _ => .int 0) p s)).leafAt q.1 q.2) =
        if q = p then f (some (.scalar s)) else f none := by
    intro p q hq
    rw [leafAt_fill _ hq]
    split_ifs with hpq
    · rw [hpq, Function.update_self]
    · rw [Function.update_of_ne hpq, hzero]
  have hplaces : ∀ p, (l.placeAt i j).elim (f none)
        (fun q => if q = p then f (some (.scalar s)) else f none) =
      (l.placeNamed name sub).elim (f none)
        (fun q => if q = p then f (some (.scalar s)) else f none) := by
    intro p
    have hp := h (Function.update (fun _ => .int 0) p s)
    rw [read_leafAt hread, read_leafNamed hread, layout_fill] at hp
    have hat : ∀ q, l.placeAt i j = some q → l.placeAt q.1 q.2 = some q := by
      intro q hq
      obtain ⟨rfl, -⟩ := placeAt_eq_some hq
      exact hq
    cases hP : l.placeAt i j with
    | none =>
      rw [hP] at hp
      cases hQ : l.placeNamed name sub with
      | none => rfl
      | some q =>
        rw [hQ] at hp
        simpa only [Option.elim_some, Option.elim_none, hfill p q (placeNamed_eq_some hQ)] using hp
    | some q =>
      rw [hP] at hp
      cases hQ : l.placeNamed name sub with
      | none =>
        rw [hQ] at hp
        simpa only [Option.elim_some, Option.elim_none, hfill p q (hat q hP)] using hp
      | some q' =>
        rw [hQ] at hp
        simpa only [Option.elim_some, hfill p q (hat q hP), hfill p q' (placeNamed_eq_some hQ)]
          using hp
  cases hP : l.placeAt i j with
  | none =>
    cases hQ : l.placeNamed name sub with
    | none => rfl
    | some q =>
      have hq := hplaces q
      rw [hP, hQ, Option.elim_none, Option.elim_some, if_pos rfl] at hq
      exact absurd hq.symm hs
  | some q =>
    have hq := hplaces q
    rw [hP, Option.elim_some, if_pos rfl] at hq
    cases hQ : l.placeNamed name sub with
    | none =>
      rw [hQ] at hq
      exact absurd hq hs
    | some q' =>
      rw [hQ, Option.elim_some] at hq
      split_ifs at hq with heq
      · rw [heq]
      · exact absurd hq hs

/-- If they agree on every structure of a layout that is read by position, they take all seven
    leaves from the same places. -/
theorem samePlaces_of_agree {l : Layout} (hpos : l.ReadByPosition)
    (h : ∀ v : PvaValue, v.layout = l → convertNtScalar v = convertNtScalarFallback v) :
    l.SamePlaces := by
  have hagree := fun x => (convertNtScalar_eq_iff (readByPosition_fill hpos x)).1
    (h _ (layout_fill l x))
  have halarm := fun x => (hagree x).2.1
  have htime := fun x => (hagree x).2.2
  refine ⟨?_, ?_, ?_, ?_, ?_, ?_, ?_⟩
  · have hvalue := (hagree fun _ => .int 0).1
    rw [field_eq, layout_fill, fieldByIndex_fill, hpos.1] at hvalue
    cases hindex : l.indexOf "value" with
    | none =>
      rw [hindex] at hvalue
      cases hvalue
    | some k =>
      rw [hindex, Option.bind_some, fieldByIndex_fill] at hvalue
      -- of the fields of the structure only the first is a scalar
      by_contra hk
      have hk0 : k ≠ 0 := fun h0 => hk (congrArg some h0)
      cases hm : l.fieldAt k with
      | none =>
        rw [hm] at hvalue
        cases hvalue
      | some m =>
        rw [hm] at hvalue
        cases m with
        | leaf =>
          simp only [Option.map_some, fillField, if_neg hk0] at hvalue
          cases hvalue
        | struct gs => cases hvalue
  · exact place_eq_of_read (f := fun v => AlarmSeverity.ofI16 (leafI32 v).toInt16)
      (s := .int 1) (fun _ => rfl) rfl (by decide) fun x => congrArg Alarm.severity (halarm x)
  · exact place_eq_of_read (f := fun v => AlarmStatus.ofI16 (leafI32 v).toInt16)
      (s := .int 1) (fun _ => rfl) rfl (by decide) fun x => congrArg Alarm.status (halarm x)
  · exact place_eq_of_read (f := leafText)
      (s := .string "x") (fun _ => rfl) rfl (by decide) fun x => congrArg Alarm.message (halarm x)
  · exact place_eq_of_read (f := leafI64)
      (s := .int 1) (fun _ => rfl) rfl (by decide) fun x => congrArg TimeStamp.seconds (htime x)
  · exact place_eq_of_read (f := fun v => (leafI32 v).toUInt32)
      (s := .int 1) (fun _ => rfl) rfl (by decide) fun x => congrArg TimeStamp.nanoseconds (htime x)
  · exact place_eq_of_read (f := leafI32)
      (s := .int 1) (fun _ => rfl) rfl (by decide) fun x => congrArg TimeStamp.userTag (htime x)

end Layout

/-- **Main theorem**: the conversion by position and the one by name agree on every structure of
    a layout exactly if those are not read by position, or both take all leaves from the same
    places. On a single structure they agree exactly if it is not read by position, or each leaf
    is taken from the same place or from another one that holds the same. -/
theorem convertNtScalar_eq_fallback_iff (l : Layout) :
    ((∀ v : PvaValue, v.layout = l → convertNtScalar v = convertNtScalarFallback v) ↔
      ¬l.ReadByPosition ∨ l.SamePlaces) ∧
    ∀ v : PvaValue,
      convertNtScalar v = convertNtScalarFallback v ↔ ¬ReadByPosition v ∨ Aligned v := by
  have hvalue : ∀ v : PvaValue,
      convertNtScalar v = convertNtScalarFallback v ↔ ¬ReadByPosition v ∨ Aligned v := by
    intro v
    by_cases hpos : ReadByPosition v
    · rw [convertNtScalar_eq_iff_aligned hpos, or_iff_right (not_not.2 hpos)]
    · rw [convertNtScalar_of_not_readByPosition hpos]
      exact ⟨fun _ => .inl hpos, fun _ => rfl⟩
  refine ⟨⟨fun h => ?_, ?_⟩, hvalue⟩
  · by_cases hpos : l.ReadByPosition
    · exact .inr (Layout.samePlaces_of_agree hpos h)
    · exact .inl hpos
  · rintro (hnot | hsame) v rfl
    · exact (hvalue v).2 (.inl fun hpos => hnot (readByPosition_layout hpos))
    · exact (hvalue v).2 (.inr hsame.aligned)

/-- A structure with an optional field in the place of the alarm, as the specification of the
    Normative Types allows: the alarm is lost, and its severity and status are taken for the
    time. -/
theorem convertNtScalar_misreads_descriptor :
    ¬∀ v : PvaValue, v.DistinctNames → convertNtScalar v = convertNtScalarFallback v := by
  intro h
  let alarm : PvaValue := .struct [("severity", .scalar (.int 2)), ("status", .scalar (.int 3))]
  let v : PvaValue :=
    .struct [("value", .scalar (.int 7)), ("descriptor", .scalar (.string "")), ("alarm", alarm)]
  have halarm : alarm.DistinctNames := by
    refine .struct _ (by decide) fun f hf => ?_
    obtain rfl | rfl := by simpa using hf
    · exact .scalar _
    · exact .scalar _
  have hv : v.DistinctNames := by
    refine .struct _ (by decide) fun f hf => ?_
    obtain rfl | rfl | rfl := by simpa using hf
    · exact .scalar _
    · exact .scalar _
    · exact halarm
  have hseconds := congrArg (fun nt => nt.map fun nt => nt.timestamp.seconds) (h v hv)
  have hne : ((convertNtScalar v).map fun nt => nt.timestamp.seconds) ≠
      (convertNtScalarFallback v).map fun nt => nt.timestamp.seconds := by
    decide +kernel
  exact hne hseconds

end AuraEpics.Types

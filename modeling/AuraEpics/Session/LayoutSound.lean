import AuraEpics.Session.FastLayout

/-!
# When a fast layout is sound

`Sound` says what a layout promises about the descriptor: every bit is the
depth-first index of the field it is named after, the field has the wire type the
loop reads, and no other field has a bit up to `max_known_bit`.

* `detect_sound_iff`: a detected layout is sound exactly on descriptors of the
  canonical shape;
* `wideAlarm_not_sound`: a descriptor that `detect` accepts and misreads.
-/

namespace AuraEpics.Session

open AuraEpics.Codec AuraEpics.Types

/-! ## Depth-first indices of named fields -/

/-- The first field called `name`, with the flat indices of those before it. -/
def findField (name : String) : List (String × FieldDesc) → Option (ℕ × FieldDesc)
  | [] => none
  | f :: fs =>
    if f.1 = name then some (0, f.2)
    else (findField name fs).map fun (off, d) => (f.2.flatFieldCount + off, d)

/-- The flat index and descriptor of the field at a path of names that runs
    through structures; the root has index 0. -/
def locate : FieldDesc → List String → Option (ℕ × FieldDesc)
  | d, [] => some (0, d)
  | d, name :: path =>
    if d.isStructure then
      (findField name d.fields).bind fun (off, c) =>
        (locate c path).map fun (k, x) => (1 + off + k, x)
    else none

/-- The field at `path` has flat index `bit` and a type that satisfies `ok`. -/
def FieldAt (d : FieldDesc) (path : List String) (bit : UInt8) (ok : FieldType → Prop) : Prop :=
  ∃ x, locate d path = some (bit.toNat, x) ∧ ok x.fieldType

/-- Every index up to `max` is that of a field at one of `paths`. -/
def Covered (d : FieldDesc) (paths : List (List String)) (max : UInt8) : Prop :=
  ∀ k ≤ max.toNat, ∃ p ∈ paths, ∃ x, locate d p = some (k, x)

/-- The bits for `alarm` and `timeStamp` are right, with the types the loops read. -/
structure AlarmTimeBits.Sound (b : AlarmTimeBits) (d : FieldDesc) : Prop where
  severity : FieldAt d ["alarm", "severity"] b.severityBit (· = .scalar .int)
  status : FieldAt d ["alarm", "status"] b.statusBit (· = .scalar .int)
  message : FieldAt d ["alarm", "message"] b.messageBit IsString
  seconds : FieldAt d ["timeStamp", "secondsPastEpoch"] b.secondsBit (· = .scalar .long)
  nanos : FieldAt d ["timeStamp", "nanoseconds"] b.nanosBit (· = .scalar .int)
  userTag : FieldAt d ["timeStamp", "userTag"] b.userTagBit (· = .scalar .int)

/-- The fields the loops know besides the value, and their structures. -/
def alarmTimePaths : List (List String) :=
  [["alarm"], ["alarm", "severity"], ["alarm", "status"], ["alarm", "message"], ["timeStamp"],
    ["timeStamp", "secondsPastEpoch"], ["timeStamp", "nanoseconds"], ["timeStamp", "userTag"]]

structure FastScalarLayout.Sound (l : FastScalarLayout) (d : FieldDesc) : Prop where
  value : FieldAt d ["value"] l.valueBit (· = .scalar l.valueType)
  alarmTime : l.toAlarmTimeBits.Sound d
  covered : Covered d ([] :: ["value"] :: alarmTimePaths) l.maxKnownBit

structure FastArrayLayout.Sound (l : FastArrayLayout) (d : FieldDesc) : Prop where
  value : FieldAt d ["value"] l.valueBit (· = .scalarArray l.elementType)
  alarmTime : l.toAlarmTimeBits.Sound d
  covered : Covered d ([] :: ["value"] :: alarmTimePaths) l.maxKnownBit

structure FastEnumLayout.Sound (l : FastEnumLayout) (d : FieldDesc) : Prop where
  valueStruct : FieldAt d ["value"] l.valueStructBit (· = .struct)
  index : FieldAt d ["value", "index"] l.indexBit (· = .scalar .int)
  choices : FieldAt d ["value", "choices"] l.choicesBit (· = .scalarArray .string)
  alarmTime : l.toAlarmTimeBits.Sound d
  covered : Covered d
    ([] :: ["value"] :: ["value", "index"] :: ["value", "choices"] :: alarmTimePaths) l.maxKnownBit

/-! ## Locating fields -/

theorem locate_one {d x : FieldDesc} {m : String} {k : ℕ} :
    locate d [m] = some (k, x) ↔
      d.isStructure = true ∧ ∃ off, findField m d.fields = some (off, x) ∧ k = 1 + off := by
  unfold locate
  split_ifs with hd
  · simp only [hd, true_and, Option.bind_eq_some_iff, Prod.exists, locate, Option.map_some,
      Option.some.injEq, Prod.mk.injEq]
    constructor
    · rintro ⟨off, c, hfind, rfl, rfl⟩; exact ⟨off, hfind, rfl⟩
    · rintro ⟨off, hfind, rfl⟩; exact ⟨off, x, hfind, rfl, rfl⟩
  · simp [hd]

theorem locate_two {d x : FieldDesc} {m n : String} {k : ℕ} :
    locate d [m, n] = some (k, x) ↔
      ∃ off c, locate d [m] = some (1 + off, c) ∧ c.isStructure = true ∧
        ∃ off', findField n c.fields = some (off', x) ∧ k = 1 + off + (1 + off') := by
  rw [locate]
  split_ifs with hd
  · simp only [Option.bind_eq_some_iff, Option.map_eq_some_iff, Prod.exists, Prod.mk.injEq]
    constructor
    · rintro ⟨off, c, hfind, k', x', hc, rfl, rfl⟩
      obtain ⟨hs, off', hfind', rfl⟩ := locate_one.mp hc
      exact ⟨off, c, locate_one.mpr ⟨hd, off, hfind, rfl⟩, hs, off', hfind', rfl⟩
    · rintro ⟨off, c, hm, hs, off', hfind', rfl⟩
      obtain ⟨_, off'', hfind, heq⟩ := locate_one.mp hm
      obtain rfl : off = off'' := by omega
      exact ⟨off, c, hfind, 1 + off', x, locate_one.mpr ⟨hs, off', hfind', rfl⟩, rfl, rfl⟩
  · simp only [false_iff]
    rintro ⟨off, c, hm, _⟩
    exact hd (locate_one.mp hm).1

/-- Only the first field has no index before it. -/
theorem eq_cons_of_findField_zero {m : String} {fs : List (String × FieldDesc)} {x : FieldDesc}
    (h : findField m fs = some (0, x)) : ∃ fs', fs = (m, x) :: fs' := by
  cases fs with
  | nil => cases h
  | cons f fs =>
    rw [findField] at h
    split_ifs at h with hm
    · simp only [Option.some.injEq, Prod.mk.injEq, true_and] at h
      exact ⟨fs, by rw [← hm, ← h]⟩
    · obtain ⟨⟨off, c⟩, _, hout⟩ := Option.map_eq_some_iff.mp h
      have := FieldDesc.flatFieldCount_pos f.2
      simp only [Prod.mk.injEq] at hout
      omega

theorem findField_cons_ne {m n : String} (hmn : m ≠ n) {c x : FieldDesc} {k : ℕ}
    {fs : List (String × FieldDesc)} (h : findField n ((m, c) :: fs) = some (k, x)) :
    ∃ off, findField n fs = some (off, x) ∧ k = c.flatFieldCount + off := by
  rw [findField, if_neg hmn] at h
  obtain ⟨⟨off, x'⟩, hfind, hout⟩ := Option.map_eq_some_iff.mp h
  simp only [Prod.mk.injEq] at hout
  obtain ⟨rfl, rfl⟩ := hout
  exact ⟨off, hfind, rfl⟩

theorem fields_eq_nil_of_flatFieldCount {c : FieldDesc} (h : c.flatFieldCount = 1) :
    c.fields = [] := by
  rw [FieldDesc.flatFieldCount_eq] at h
  have := FieldDesc.length_le_flatFieldCounts c.fields
  exact List.length_eq_zero_iff.mp (by omega)

/-- Three fields at consecutive indices from the front are the first three
    fields, and nothing nests in the first two. -/
theorem fields_of_consecutive {m₁ m₂ m₃ : String} (h₁₂ : m₁ ≠ m₂) (h₁₃ : m₁ ≠ m₃) (h₂₃ : m₂ ≠ m₃)
    {fs : List (String × FieldDesc)} {x₁ x₂ x₃ : FieldDesc}
    (hf₁ : findField m₁ fs = some (0, x₁)) (hf₂ : findField m₂ fs = some (1, x₂))
    (hf₃ : findField m₃ fs = some (2, x₃)) :
    ∃ rest, fs = (m₁, x₁) :: (m₂, x₂) :: (m₃, x₃) :: rest ∧ x₁.fields = [] ∧ x₂.fields = [] := by
  obtain ⟨fs, rfl⟩ := eq_cons_of_findField_zero hf₁
  have hpos₁ := FieldDesc.flatFieldCount_pos x₁
  obtain ⟨off, hf₂, hk⟩ := findField_cons_ne h₁₂ hf₂
  obtain rfl : off = 0 := by omega
  obtain ⟨fs, rfl⟩ := eq_cons_of_findField_zero hf₂
  have hpos₂ := FieldDesc.flatFieldCount_pos x₂
  obtain ⟨off, hf₃, hk₃⟩ := findField_cons_ne h₁₃ hf₃
  obtain ⟨off', hf₃, hk₃'⟩ := findField_cons_ne h₂₃ hf₃
  obtain rfl : off' = 0 := by omega
  obtain ⟨fs, rfl⟩ := eq_cons_of_findField_zero hf₃
  exact ⟨fs, rfl, fields_eq_nil_of_flatFieldCount (by omega),
    fields_eq_nil_of_flatFieldCount (by omega)⟩

theorem eq_mk_of_isStructure {d : FieldDesc} (h : d.isStructure = true) :
    d = .mk .struct d.typeId d.fields := by
  obtain ⟨ft, id, fs⟩ := d
  cases ft <;> first | rfl | simp [FieldDesc.isStructure] at h

theorem eq_leaf {d : FieldDesc} {ft : FieldType} (hft : d.fieldType = ft) (hfs : d.fields = []) :
    d = .mk ft d.typeId [] := by
  obtain ⟨ft', id, fs⟩ := d
  simp_all

/-! ## Soundness is the canonical shape -/

theorem FieldAt.unfold_two {d : FieldDesc} {m n : String} {bit : UInt8} {ok : FieldType → Prop}
    (h : FieldAt d [m, n] bit ok) :
    ∃ off c off' x, locate d [m] = some (1 + off, c) ∧ c.isStructure = true ∧
      findField n c.fields = some (off', x) ∧ bit.toNat = 1 + off + (1 + off') ∧ ok x.fieldType := by
  obtain ⟨x, hloc, hok⟩ := h
  obtain ⟨off, c, hm, hs, off', hfind, hk⟩ := locate_two.mp hloc
  exact ⟨off, c, off', x, hm, hs, hfind, hk, hok⟩

/-- A structure whose three named sub-fields have the indices right after its
    own starts with those sub-fields. -/
theorem fields_of_fieldAt {d c : FieldDesc} {k : ℕ} {m n₁ n₂ n₃ : String} {b₁ b₂ b₃ : UInt8}
    {ok₁ ok₂ ok₃ : FieldType → Prop} (h₁₂ : n₁ ≠ n₂) (h₁₃ : n₁ ≠ n₃) (h₂₃ : n₂ ≠ n₃)
    (hc : locate d [m] = some (k, c)) (h₁ : FieldAt d [m, n₁] b₁ ok₁)
    (h₂ : FieldAt d [m, n₂] b₂ ok₂) (h₃ : FieldAt d [m, n₃] b₃ ok₃)
    (hb₁ : b₁.toNat = k + 1) (hb₂ : b₂.toNat = k + 2) (hb₃ : b₃.toNat = k + 3) :
    c.isStructure = true ∧ ∃ x₁ x₂ x₃ rest,
      c.fields = (n₁, x₁) :: (n₂, x₂) :: (n₃, x₃) :: rest ∧ x₁.fields = [] ∧ x₂.fields = [] ∧
        ok₁ x₁.fieldType ∧ ok₂ x₂.fieldType ∧ ok₃ x₃.fieldType := by
  obtain ⟨_, _, o₁, x₁, hm, hs, hf₁, he₁, hok₁⟩ := h₁.unfold_two
  rw [hc, Option.some.injEq, Prod.mk.injEq] at hm
  obtain ⟨rfl, rfl⟩ := hm
  obtain ⟨_, _, o₂, x₂, hm, _, hf₂, he₂, hok₂⟩ := h₂.unfold_two
  rw [hc, Option.some.injEq, Prod.mk.injEq] at hm
  obtain ⟨hoff₂, rfl⟩ := hm
  obtain ⟨_, _, o₃, x₃, hm, _, hf₃, he₃, hok₃⟩ := h₃.unfold_two
  rw [hc, Option.some.injEq, Prod.mk.injEq] at hm
  obtain ⟨hoff₃, rfl⟩ := hm
  obtain rfl : o₁ = 0 := by omega
  obtain rfl : o₂ = 1 := by omega
  obtain rfl : o₃ = 2 := by omega
  obtain ⟨rest, hfs, hl₁, hl₂⟩ := fields_of_consecutive h₁₂ h₁₃ h₂₃ hf₁ hf₂ hf₃
  exact ⟨hs, x₁, x₂, x₃, rest, hfs, hl₁, hl₂, hok₁, hok₂, hok₃⟩

/-- The alarm and timestamp halves of a sound layout: with `c` indices for the
    value and the two structures at `1 + c` and `5 + c`, the fields behind the
    value are canonical. -/
theorem canonical_alarmTime {d f0 : FieldDesc} {fs : List (String × FieldDesc)} {b : AlarmTimeBits}
    {c : ℕ} (hfs : d.fields = ("value", f0) :: fs) (hc : c ≤ f0.flatFieldCount) (hb : b.Sound d)
    (hbits : b.severityBit.toNat = 2 + c ∧ b.statusBit.toNat = 3 + c ∧ b.messageBit.toNat = 4 + c ∧
      b.secondsBit.toNat = 6 + c ∧ b.nanosBit.toNat = 7 + c ∧ b.userTagBit.toNat = 8 + c)
    {a t : FieldDesc} (ha : locate d ["alarm"] = some (1 + c, a))
    (ht : locate d ["timeStamp"] = some (5 + c, t)) :
    f0.flatFieldCount = c ∧ CanonicalAlarm a ∧ CanonicalTimeStamp t ∧
      ∃ rest, fs = ("alarm", a) :: ("timeStamp", t) :: rest := by
  obtain ⟨hsev, hsta, hmsg, hsec, hnan, htag⟩ := hbits
  obtain ⟨hsa, x₁, x₂, x₃, more, hafs, hx₁, hx₂, rfl₁, rfl₂, hstr⟩ :=
    fields_of_fieldAt (by decide) (by decide) (by decide) ha hb.severity hb.status hb.message
      (by omega) (by omega) (by omega)
  obtain ⟨hst, y₁, y₂, y₃, rest', htfs, hy₁, hy₂, hty₁, hty₂, hty₃⟩ :=
    fields_of_fieldAt (by decide) (by decide) (by decide) ht hb.seconds hb.nanos hb.userTag
      (by omega) (by omega) (by omega)
  -- the alarm is the field right after the value
  obtain ⟨_, off, hfind, hk⟩ := locate_one.mp ha
  rw [hfs] at hfind
  obtain ⟨off', hfind, hoff⟩ := findField_cons_ne (by decide) hfind
  obtain rfl : off' = 0 := by omega
  obtain ⟨fs, rfl⟩ := eq_cons_of_findField_zero hfind
  -- four indices lie between the two structures, so the alarm has no more sub-fields
  obtain ⟨_, off₂, hfind₂, hk₂⟩ := locate_one.mp ht
  rw [hfs] at hfind₂
  obtain ⟨off₃, hfind₂, hoff₃⟩ := findField_cons_ne (by decide) hfind₂
  obtain ⟨off₄, hfind₂, hoff₄⟩ := findField_cons_ne (by decide) hfind₂
  have hcount := FieldDesc.flatFieldCount_eq a
  simp only [hafs, FieldDesc.flatFieldCounts_cons] at hcount
  have hp₁ := FieldDesc.flatFieldCount_pos x₁
  have hp₂ := FieldDesc.flatFieldCount_pos x₂
  have hp₃ := FieldDesc.flatFieldCount_pos x₃
  have hmore := FieldDesc.length_le_flatFieldCounts more
  obtain rfl : off₄ = 0 := by omega
  obtain ⟨fs, rfl⟩ := eq_cons_of_findField_zero hfind₂
  obtain rfl : more = [] := List.length_eq_zero_iff.mp (by omega)
  have hx₃ := fields_eq_nil_of_flatFieldCount (c := x₃) (by omega)
  refine ⟨by omega, ?_, ?_, fs, rfl⟩
  · rw [eq_mk_of_isStructure hsa, hafs, eq_leaf rfl₁ hx₁, eq_leaf rfl₂ hx₂, eq_leaf rfl hx₃]
    exact .mk _ _ _ _ _ hstr
  · rw [eq_mk_of_isStructure hst, htfs, eq_leaf hty₁ hy₁, eq_leaf hty₂ hy₂]
    obtain ⟨ft, id, sub⟩ := y₃
    rw [FieldDesc.fieldType_mk] at hty₃
    subst hty₃
    exact .mk _ _ _ _ _ _

/-- Coverage leaves only the two structures for the indices no other known field
    has. -/
theorem structures_of_covered {d : FieldDesc} {b : AlarmTimeBits} {c : ℕ} {max : UInt8}
    (head : List (List String)) (hb : b.Sound d)
    (hbits : b.severityBit.toNat = 2 + c ∧ b.statusBit.toNat = 3 + c ∧ b.messageBit.toNat = 4 + c ∧
      b.secondsBit.toNat = 6 + c ∧ b.nanosBit.toNat = 7 + c ∧ b.userTagBit.toNat = 8 + c)
    (hhead : ∀ p ∈ head, ∀ k x, locate d p = some (k, x) → k ≤ c)
    (hcov : Covered d (head ++ alarmTimePaths) max) (hmax : 5 + c ≤ max.toNat) :
    ∃ a t, locate d ["alarm"] = some (1 + c, a) ∧ locate d ["timeStamp"] = some (5 + c, t) := by
  obtain ⟨hsev, hsta, hmsg, hsec, hnan, htag⟩ := hbits
  obtain ⟨offA, a, _, _, ha, _, _, hkA, _⟩ := hb.severity.unfold_two
  obtain ⟨offT, t, _, _, ht, _, _, hkT, _⟩ := hb.seconds.unfold_two
  have hat : ∀ {path bit ok k x}, FieldAt d path bit ok → locate d path = some (k, x) →
      k = bit.toNat := by
    rintro path bit ok k x ⟨y, hy, _⟩ hx
    rw [hx, Option.some.injEq, Prod.mk.injEq] at hy
    exact hy.1
  have hcase : ∀ k ≤ max.toNat, c < k →
      (k = 1 + offA ∨ k = 1 + offT) ∨ k ∈ [2 + c, 3 + c, 4 + c, 6 + c, 7 + c, 8 + c] := by
    intro k hk hck
    obtain ⟨p, hp, x, hx⟩ := hcov k hk
    rcases List.mem_append.mp hp with hp | hp
    · have := hhead p hp k x hx
      omega
    · simp only [alarmTimePaths, List.mem_cons, List.not_mem_nil, or_false] at hp ⊢
      rcases hp with rfl | rfl | rfl | rfl | rfl | rfl | rfl | rfl
      · rw [hx, Option.some.injEq, Prod.mk.injEq] at ha
        exact .inl (.inl ha.1)
      · exact .inr (.inl ((hat hb.severity hx).trans hsev))
      · exact .inr (.inr (.inl ((hat hb.status hx).trans hsta)))
      · exact .inr (.inr (.inr (.inl ((hat hb.message hx).trans hmsg))))
      · rw [hx, Option.some.injEq, Prod.mk.injEq] at ht
        exact .inl (.inr ht.1)
      · exact .inr (.inr (.inr (.inr (.inl ((hat hb.seconds hx).trans hsec)))))
      · exact .inr (.inr (.inr (.inr (.inr (.inl ((hat hb.nanos hx).trans hnan))))))
      · exact .inr (.inr (.inr (.inr (.inr (.inr ((hat hb.userTag hx).trans htag))))))
  have h5 := hcase (5 + c) hmax (by omega)
  have h1 := hcase (1 + c) (by omega) (by omega)
  simp only [List.mem_cons, List.not_mem_nil, or_false] at h5 h1
  obtain rfl : offT = 4 + c := by omega
  obtain rfl : offA = c := by omega
  exact ⟨a, t, ha, by rw [ht]; congr 2; omega⟩

/-! ### The canonical shape is sound -/

theorem CanonicalAlarm.find {a : FieldDesc} (ha : CanonicalAlarm a) :
    a.isStructure = true ∧ a.flatFieldCount = 4 ∧
      (∃ x, findField "severity" a.fields = some (0, x) ∧ x.fieldType = .scalar .int) ∧
      (∃ x, findField "status" a.fields = some (1, x) ∧ x.fieldType = .scalar .int) ∧
      ∃ x, findField "message" a.fields = some (2, x) ∧ IsString x.fieldType := by
  obtain ⟨id, i₁, i₂, i₃, ft, hft⟩ := ha
  exact ⟨rfl, rfl, ⟨_, rfl, rfl⟩, ⟨_, rfl, rfl⟩, ⟨_, rfl, hft⟩⟩

theorem CanonicalTimeStamp.find {t : FieldDesc} (ht : CanonicalTimeStamp t) :
    t.isStructure = true ∧
      (∃ x, findField "secondsPastEpoch" t.fields = some (0, x) ∧ x.fieldType = .scalar .long) ∧
      (∃ x, findField "nanoseconds" t.fields = some (1, x) ∧ x.fieldType = .scalar .int) ∧
      ∃ x, findField "userTag" t.fields = some (2, x) ∧ x.fieldType = .scalar .int := by
  obtain ⟨id, i₁, i₂, i₃, sub, rest⟩ := ht
  exact ⟨rfl, ⟨_, rfl, rfl⟩, ⟨_, rfl, rfl⟩, ⟨_, rfl, rfl⟩⟩

theorem FieldAt.of_findField {d c x : FieldDesc} {m n : String} {k off : ℕ} {bit : UInt8}
    {ok : FieldType → Prop} (hm : locate d [m] = some (k, c)) (hc : c.isStructure = true)
    (hf : findField n c.fields = some (off, x)) (hbit : bit.toNat = k + 1 + off)
    (hok : ok x.fieldType) : FieldAt d [m, n] bit ok := by
  obtain ⟨_, o, _, rfl⟩ := locate_one.mp hm
  exact ⟨x, locate_two.mpr ⟨o, c, hm, hc, off, hf, by omega⟩, hok⟩

/-- The indices of the alarm and of the time stamp after a value that takes `c` of them. -/
theorem index_cases {c k : ℕ} (hck : c < k) (hk : k ≤ 8 + c) :
    k = 1 + c ∨ k = 2 + c ∨ k = 3 + c ∨ k = 4 + c ∨ k = 5 + c ∨ k = 6 + c ∨ k = 7 + c ∨
      k = 8 + c := by
  omega

/-- A canonical descriptor whose value takes `c` indices makes the bits for the
    rest sound, and covers every index after the value's. -/
theorem canonical_sound (id : String) {v a t : FieldDesc} (rest : List (String × FieldDesc))
    {b : AlarmTimeBits} {c : ℕ} (hv : v.flatFieldCount = c) (ha : CanonicalAlarm a)
    (ht : CanonicalTimeStamp t)
    (hbits : b.severityBit.toNat = 2 + c ∧ b.statusBit.toNat = 3 + c ∧ b.messageBit.toNat = 4 + c ∧
      b.secondsBit.toNat = 6 + c ∧ b.nanosBit.toNat = 7 + c ∧ b.userTagBit.toNat = 8 + c)
    (d : FieldDesc)
    (hd : d = .mk .struct id (("value", v) :: ("alarm", a) :: ("timeStamp", t) :: rest)) :
    b.Sound d ∧ ∀ k, c < k → k ≤ 8 + c → ∃ p ∈ alarmTimePaths, ∃ x, locate d p = some (k, x) := by
  obtain ⟨hsev, hsta, hmsg, hsec, hnan, htag⟩ := hbits
  obtain ⟨hsa, hca, ⟨x₁, hx₁, ok₁⟩, ⟨x₂, hx₂, ok₂⟩, ⟨x₃, hx₃, ok₃⟩⟩ := ha.find
  obtain ⟨hst, ⟨y₁, hy₁, ok₄⟩, ⟨y₂, hy₂, ok₅⟩, ⟨y₃, hy₃, ok₆⟩⟩ := ht.find
  have hla : locate d ["alarm"] = some (1 + c, a) := by
    subst hd
    refine locate_one.mpr ⟨rfl, c, ?_, rfl⟩
    simp [findField, hv]
  have hlt : locate d ["timeStamp"] = some (5 + c, t) := by
    subst hd
    refine locate_one.mpr ⟨rfl, c + 4, ?_, by omega⟩
    simp [findField, hv, hca]
  have hsound : b.Sound d :=
    { severity := .of_findField hla hsa hx₁ (by omega) ok₁
      status := .of_findField hla hsa hx₂ (by omega) ok₂
      message := .of_findField hla hsa hx₃ (by omega) ok₃
      seconds := .of_findField hlt hst hy₁ (by omega) ok₄
      nanos := .of_findField hlt hst hy₂ (by omega) ok₅
      userTag := .of_findField hlt hst hy₃ (by omega) ok₆ }
  refine ⟨hsound, fun k hck hk => ?_⟩
  have hbit : ∀ {path bit ok}, path ∈ alarmTimePaths → FieldAt d path bit ok → k = bit.toNat →
      ∃ p ∈ alarmTimePaths, ∃ x, locate d p = some (k, x) := by
    rintro path bit ok hp ⟨x, hx, _⟩ rfl
    exact ⟨path, hp, x, hx⟩
  obtain h | h | h | h | h | h | h | h := index_cases hck hk
  · exact ⟨["alarm"], by decide, a, by rw [h]; exact hla⟩
  · exact hbit (by decide) hsound.severity (by omega)
  · exact hbit (by decide) hsound.status (by omega)
  · exact hbit (by decide) hsound.message (by omega)
  · exact ⟨["timeStamp"], by decide, t, by rw [h]; exact hlt⟩
  · exact hbit (by decide) hsound.seconds (by omega)
  · exact hbit (by decide) hsound.nanos (by omega)
  · exact hbit (by decide) hsound.userTag (by omega)

/-! ### The three layouts -/

theorem locate_nil (d : FieldDesc) {k : ℕ} {x : FieldDesc} (h : locate d [] = some (k, x)) :
    k = 0 := by
  simp only [locate, Option.some.injEq, Prod.mk.injEq] at h
  exact h.1.symm

/-- `value` at index 1 is the first field. -/
theorem value_first {d x : FieldDesc} (h : locate d ["value"] = some (1, x)) :
    d.isStructure = true ∧ ∃ fs, d.fields = ("value", x) :: fs := by
  obtain ⟨hd, off, hfind, hk⟩ := locate_one.mp h
  obtain rfl : off = 0 := by omega
  exact ⟨hd, eq_cons_of_findField_zero hfind⟩

/-- The leaf-valued layouts: `isValue` is the shape of the value leaf. -/
theorem leaf_sound_iff {d : FieldDesc} {b : AlarmTimeBits} {ft : FieldType}
    {isValue : FieldDesc → Prop} (hb : b = ⟨3, 4, 5, 7, 8, 9⟩)
    (hft : ∃ f0 fs, d.fields = f0 :: fs ∧ f0.2.fieldType = ft)
    (hvalue : ∀ v : FieldDesc, v.fieldType = ft → (isValue v ↔ v.fields = [])) :
    (FieldAt d ["value"] 1 (· = ft) ∧ b.Sound d ∧ Covered d ([] :: ["value"] :: alarmTimePaths) 9) ↔
      Canonical isValue d := by
  have hbits : b.severityBit.toNat = 2 + 1 ∧ b.statusBit.toNat = 3 + 1 ∧
      b.messageBit.toNat = 4 + 1 ∧ b.secondsBit.toNat = 6 + 1 ∧ b.nanosBit.toNat = 7 + 1 ∧
      b.userTagBit.toNat = 8 + 1 := by subst hb; decide
  constructor
  · rintro ⟨⟨v, hloc, hv⟩, hsound, hcov⟩
    obtain ⟨hd, fs, hfs⟩ := value_first hloc
    obtain ⟨a, t, hla, hlt⟩ := structures_of_covered (c := 1) [[], ["value"]] hsound hbits
      (by
        intro p hp k x hx
        simp only [List.mem_cons, List.not_mem_nil, or_false] at hp
        rcases hp with rfl | rfl
        · have := locate_nil d hx; omega
        · rw [hloc, Option.some.injEq, Prod.mk.injEq] at hx; exact hx.1.ge)
      hcov (by decide)
    obtain ⟨hcount, ha, ht, rest, rfl⟩ :=
      canonical_alarmTime hfs (FieldDesc.flatFieldCount_pos v) hsound hbits hla hlt
    rw [eq_mk_of_isStructure hd, hfs]
    exact .mk _ _ _ _ _ ((hvalue v hv).mpr (fields_eq_nil_of_flatFieldCount hcount)) ha ht
  · intro hc
    obtain ⟨id, v, a, t, rest, hv, ha, ht⟩ := hc
    obtain ⟨f0, fs, hfs, hft⟩ := hft
    rw [FieldDesc.fields_mk] at hfs
    obtain ⟨rfl, _⟩ := List.cons.inj hfs
    have hnil := (hvalue v hft).mp hv
    have hcount : v.flatFieldCount = 1 := by rw [FieldDesc.flatFieldCount_eq, hnil]; rfl
    obtain ⟨hsound, hcov⟩ := canonical_sound id rest hcount ha ht hbits _ rfl
    have hloc : locate (.mk .struct id (("value", v) :: ("alarm", a) :: ("timeStamp", t) :: rest))
        ["value"] = some (1, v) := locate_one.mpr ⟨rfl, 0, by simp [findField], rfl⟩
    refine ⟨⟨v, hloc, hft⟩, hsound, fun k hk => ?_⟩
    change k ≤ 9 at hk
    obtain h | h | h : k = 0 ∨ k = 1 ∨ 1 < k := by omega
    · subst h; exact ⟨[], by simp, _, rfl⟩
    · subst h; exact ⟨["value"], by simp, v, hloc⟩
    · obtain ⟨p, hp, x, hx⟩ := hcov k h (by omega)
      exact ⟨p, List.mem_cons_of_mem _ (List.mem_cons_of_mem _ hp), x, hx⟩

theorem FastScalarLayout.sound_iff {d : FieldDesc} {l : FastScalarLayout} (h : detect d = some l) :
    l.Sound d ↔ Canonical ScalarLeaf d := by
  obtain ⟨f0, fs, hfs, hft, hl⟩ := detect_eq_some h
  have hleaf : ∀ v : FieldDesc, v.fieldType = .scalar l.valueType →
      (ScalarLeaf v ↔ v.fields = []) := by
    intro v hv
    constructor
    · rintro ⟨st, id⟩; rfl
    · intro hnil; rw [eq_leaf hv hnil]; exact .mk _ _
  rw [← leaf_sound_iff (b := l.toAlarmTimeBits) (by rw [hl]) ⟨f0, fs, hfs, hft⟩ hleaf]
  have hmax : l.maxKnownBit = 9 := by rw [hl]
  have hbit : l.valueBit = 1 := by rw [hl]
  constructor
  · rintro ⟨hv, ha, hc⟩; rw [hbit] at hv; rw [hmax] at hc; exact ⟨hv, ha, hc⟩
  · rintro ⟨hv, ha, hc⟩; rw [← hbit] at hv; rw [← hmax] at hc; exact ⟨hv, ha, hc⟩

theorem FastArrayLayout.sound_iff {d : FieldDesc} {l : FastArrayLayout} (h : detect d = some l) :
    l.Sound d ↔ Canonical NumericArrayLeaf d := by
  obtain ⟨f0, fs, hfs, hft, hne, hl⟩ := detect_eq_some h
  have hleaf : ∀ v : FieldDesc, v.fieldType = .scalarArray l.elementType →
      (NumericArrayLeaf v ↔ v.fields = []) := by
    intro v hv
    constructor
    · rintro ⟨st, id, _⟩; rfl
    · intro hnil; rw [eq_leaf hv hnil]; exact .mk _ _ hne
  rw [← leaf_sound_iff (b := l.toAlarmTimeBits) (by rw [hl]) ⟨f0, fs, hfs, hft⟩ hleaf]
  have hmax : l.maxKnownBit = 9 := by rw [hl]
  have hbit : l.valueBit = 1 := by rw [hl]
  constructor
  · rintro ⟨hv, ha, hc⟩; rw [hbit] at hv; rw [hmax] at hc; exact ⟨hv, ha, hc⟩
  · rintro ⟨hv, ha, hc⟩; rw [← hbit] at hv; rw [← hmax] at hc; exact ⟨hv, ha, hc⟩

theorem enum_bits (b : AlarmTimeBits) (hb : b = ⟨5, 6, 7, 9, 10, 11⟩) :
    b.severityBit.toNat = 2 + 3 ∧ b.statusBit.toNat = 3 + 3 ∧ b.messageBit.toNat = 4 + 3 ∧
      b.secondsBit.toNat = 6 + 3 ∧ b.nanosBit.toNat = 7 + 3 ∧ b.userTagBit.toNat = 8 + 3 := by
  subst hb; decide

theorem FastEnumLayout.canonical_of_sound {d : FieldDesc} {l : FastEnumLayout}
    (hl : l = enumLayout) (hs : l.Sound d) : Canonical EnumValue d := by
  subst hl
  obtain ⟨⟨v, hloc, hvs⟩, hidx, hcho, hsound, hcov⟩ := hs
  obtain ⟨hd, fs, hfs⟩ := value_first hloc
  obtain ⟨_, _, o₁, x, hm, hsv, hf₁, hk₁, hx⟩ := hidx.unfold_two
  rw [hloc, Option.some.injEq, Prod.mk.injEq] at hm
  obtain ⟨hoff, rfl⟩ := hm
  obtain ⟨_, _, o₂, y, hm, _, hf₂, hk₂, hy⟩ := hcho.unfold_two
  rw [hloc, Option.some.injEq, Prod.mk.injEq] at hm
  obtain ⟨hoff₂, rfl⟩ := hm
  change 2 = _ at hk₁
  change 3 = _ at hk₂
  obtain rfl : o₁ = 0 := by omega
  obtain rfl : o₂ = 1 := by omega
  obtain ⟨vs, hvfs⟩ := eq_cons_of_findField_zero hf₁
  rw [hvfs] at hf₂
  obtain ⟨o₃, hf₂, ho₃⟩ := findField_cons_ne (by decide) hf₂
  have hpx := FieldDesc.flatFieldCount_pos x
  obtain rfl : o₃ = 0 := by omega
  obtain ⟨vs, rfl⟩ := eq_cons_of_findField_zero hf₂
  -- index and choices take two indices, and coverage allows the value no more
  have hpy := FieldDesc.flatFieldCount_pos y
  have hmore := FieldDesc.length_le_flatFieldCounts vs
  have hcount := FieldDesc.flatFieldCount_eq v
  simp only [hvfs, FieldDesc.flatFieldCounts_cons] at hcount
  obtain ⟨a, t, hla, hlt⟩ := structures_of_covered (c := 3)
    [[], ["value"], ["value", "index"], ["value", "choices"]] hsound (enum_bits _ rfl)
    (by
      intro p hp k z hz
      simp only [List.mem_cons, List.not_mem_nil, or_false] at hp
      rcases hp with rfl | rfl | rfl | rfl
      · have := locate_nil d hz; omega
      · rw [hloc, Option.some.injEq, Prod.mk.injEq] at hz; omega
      · obtain ⟨w, hw, _⟩ := hidx
        rw [hw, Option.some.injEq, Prod.mk.injEq] at hz
        exact hz.1.symm.trans_le (by decide)
      · obtain ⟨w, hw, _⟩ := hcho
        rw [hw, Option.some.injEq, Prod.mk.injEq] at hz
        exact hz.1.symm.trans_le (by decide))
    hcov (by decide)
  obtain ⟨hc3, ha, ht, rest, rfl⟩ :=
    canonical_alarmTime hfs (by omega) hsound (enum_bits _ rfl) hla hlt
  obtain rfl : vs = [] := List.length_eq_zero_iff.mp (by omega)
  have hxl := fields_eq_nil_of_flatFieldCount (c := x) (by omega)
  have hyl := fields_eq_nil_of_flatFieldCount (c := y) (by omega)
  rw [eq_mk_of_isStructure hd, hfs]
  refine .mk _ _ _ _ _ ?_ ha ht
  rw [eq_mk_of_isStructure hsv, hvfs, eq_leaf hx hxl, eq_leaf hy hyl]
  exact .mk _ _ _

theorem FastEnumLayout.sound_of_canonical {d : FieldDesc} {l : FastEnumLayout}
    (hl : l = enumLayout) (hc : Canonical EnumValue d) : l.Sound d := by
  subst hl
  obtain ⟨id, v, a, t, rest, ⟨vid, i₁, i₂⟩, ha, ht⟩ := hc
  obtain ⟨hsound, hcov⟩ :=
    canonical_sound id rest
      (v := .mk .struct vid
        [("index", .mk (.scalar .int) i₁ []), ("choices", .mk (.scalarArray .string) i₂ [])])
      (c := 3) rfl ha ht (enum_bits _ rfl) _ rfl
  have hv := locate_one.mpr
    ⟨rfl, 0, show findField "value" (FieldDesc.fields (.mk .struct id
      (("value", .mk .struct vid
        [("index", .mk (.scalar .int) i₁ []), ("choices", .mk (.scalarArray .string) i₂ [])]) ::
        ("alarm", a) :: ("timeStamp", t) :: rest))) = _ from rfl, rfl⟩
  have hidx : FieldAt _ ["value", "index"] 2 (· = .scalar .int) := .of_findField hv rfl rfl rfl rfl
  have hcho : FieldAt _ ["value", "choices"] 3 (· = .scalarArray .string) :=
    .of_findField hv rfl rfl rfl rfl
  refine ⟨⟨_, hv, rfl⟩, hidx, hcho, hsound, fun k hk => ?_⟩
  change k ≤ 11 at hk
  obtain h | h | h | h | h : k = 0 ∨ k = 1 ∨ k = 2 ∨ k = 3 ∨ 3 < k := by omega
  · subst h; exact ⟨[], by simp, _, rfl⟩
  · subst h; exact ⟨["value"], by simp, _, hv⟩
  · obtain ⟨x, hx, _⟩ := hidx
    subst h; exact ⟨["value", "index"], by simp, x, hx⟩
  · obtain ⟨x, hx, _⟩ := hcho
    subst h; exact ⟨["value", "choices"], by simp, x, hx⟩
  · obtain ⟨p, hp, x, hx⟩ := hcov k h (by omega)
    exact ⟨p, by simp [hp], x, hx⟩

/-- **Main theorem**: a detected layout is sound exactly when the descriptor has
    the canonical shape. -/
theorem detect_sound_iff (d : FieldDesc) :
    (∀ l, FastScalarLayout.detect d = some l → (l.Sound d ↔ Canonical ScalarLeaf d)) ∧
    (∀ l, FastArrayLayout.detect d = some l → (l.Sound d ↔ Canonical NumericArrayLeaf d)) ∧
    (∀ l, FastEnumLayout.detect d = some l → (l.Sound d ↔ Canonical EnumValue d)) :=
  ⟨fun _ h => FastScalarLayout.sound_iff h, fun _ h => FastArrayLayout.sound_iff h,
    fun _ h => ⟨FastEnumLayout.canonical_of_sound (FastEnumLayout.detect_eq_some h),
      FastEnumLayout.sound_of_canonical (FastEnumLayout.detect_eq_some h)⟩⟩

theorem detect_sound_iff_normativeTypes :
    FastScalarLayout.Sound ⟨⟨3, 4, 5, 7, 8, 9⟩, 1, .double, 9⟩ (ntScalar .double) ∧
    FastArrayLayout.Sound ⟨⟨3, 4, 5, 7, 8, 9⟩, 1, .float, 9⟩ (ntScalarArray .float) ∧
    enumLayout.Sound ntEnum :=
  ⟨((detect_sound_iff _).1 _ (by decide +kernel)).mpr (canonical_ntScalar _),
    ((detect_sound_iff _).2.1 _ (by decide +kernel)).mpr (canonical_ntScalarArray (by decide)),
    ((detect_sound_iff _).2.2 _ (by decide +kernel)).mpr canonical_ntEnum⟩

/-- An `NTScalar` whose alarm has a fourth sub-field. -/
def wideAlarm : FieldDesc :=
  .struct "epics:nt/NTScalar:1.0"
    [("value", .scalar .double),
      ("alarm", .struct "alarm_t" [("severity", .scalar .int), ("status", .scalar .int),
        ("message", .scalar .string), ("ackTransient", .scalar .boolean)]),
      ("timeStamp", timeStampDesc)]

/-- `detect` accepts it and takes bit 7, the timestamp structure's, for the
    seconds, which have bit 8. -/
theorem wideAlarm_not_sound :
    ∃ l, FastScalarLayout.detect wideAlarm = some l ∧ l.secondsBit = 7 ∧
      (locate wideAlarm ["timeStamp", "secondsPastEpoch"]).map Prod.fst = some 8 ∧
      ¬l.Sound wideAlarm := by
  refine ⟨⟨⟨3, 4, 5, 7, 8, 9⟩, 1, .double, 9⟩, by decide +kernel, rfl, by decide +kernel, fun h => ?_⟩
  obtain ⟨x, hx, _⟩ := h.alarmTime.seconds
  have : (locate wideAlarm ["timeStamp", "secondsPastEpoch"]).map Prod.fst = some 7 := by rw [hx]; rfl
  exact absurd this (by decide +kernel)

end AuraEpics.Session

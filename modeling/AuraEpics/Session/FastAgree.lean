import AuraEpics.Session.Delta
import AuraEpics.Session.FastPath

/-!
# Fast paths agree with the generic decoder

Both decoders are brought to one normal form, a sequence of reads each of which
happens if its bit is set (`opt`): the descriptor walk by following the canonical
shape (`Decodes`), the hand-unrolled loop by folding over all known bits
(`fastLoop_eq`).

Result: `fastPath_eq_generic`, on canonical descriptors with no bit above
`max_known_bit` each loop is `decode_delta_structure` followed by a projection, as
reads: same success, same position, same fields.
-/

namespace AuraEpics.Session

open AuraEpics.Codec AuraEpics.Types Numeric

/-! ## What the generic value says -/

/-- The `i32` at `path` of two names, zero where the value is `Null`. -/
def i32At (v : PvaValue) (m n : String) : Int32 :=
  (((v.field m).bind fun w => w.field n).bind PvaValue.asI32).getD 0

/-- The `i64` at a path of two names, zero where the value is `Null`. -/
def i64At (v : PvaValue) (m n : String) : Int64 :=
  (((v.field m).bind fun w => w.field n).bind PvaValue.asI64).getD 0

/-- Severity, status, seconds and nanoseconds of a decoded structure. -/
def AlarmTime.ofValue (v : PvaValue) : AlarmTime where
  severity := i32At v "alarm" "severity"
  status := i32At v "alarm" "status"
  seconds := i64At v "timeStamp" "secondsPastEpoch"
  nanos := i32At v "timeStamp" "nanoseconds"

/-- The scalar `value` as a double, or as a string. -/
def ScalarVars.ofValue (v : PvaValue) : ScalarVars where
  value := ((v.field "value").bind PvaValue.asF64).getD .zero
  stringValue := (v.field "value").bind PvaValue.asString

/-- The elements of the array `value` as doubles. -/
def arrayOfValue (v : PvaValue) : List Binary64 :=
  (((v.field "value").bind PvaValue.asScalarArray).getD []).map fun s => s.asF64.getD .zero

/-! ## Conditional reads -/

section Opt

variable {α β γ : Type} {changed : PvaBitSet}

/-- Read `p` if bit `j` is set. Both decoders become sequences of these. -/
def opt (changed : PvaBitSet) (j : ℕ) (p : Read α) : Read (Option α) :=
  if changed.isSet j then some <$> p else return none

theorem opt_of_not_isSet {j : ℕ} (p : Read α) (h : ¬changed.isSet j = true) :
    opt changed j p = pure none := by
  rw [opt, if_neg h]

theorem opt_map (j : ℕ) (g : α → β) (p : Read α) :
    opt changed j (g <$> p) = Option.map g <$> opt changed j p := by
  unfold opt
  split_ifs <;> simp

theorem whenSet_eq_opt (i : ℕ) (p : Read PvaValue) :
    whenSet changed i p = (fun o => (o.getD .null, i + 1)) <$> opt changed i p := by
  unfold whenSet opt
  split_ifs <;> simp

/-- A conditional update of a state, as a map over the conditional read. -/
theorem ite_map_eq_opt (j : ℕ) (g : α → β) (p : Read α) (s : β) :
    (if changed.isSet j then g <$> p else pure s) = (fun o => o.elim s g) <$> opt changed j p := by
  unfold opt
  split_ifs <;> simp

end Opt

/-! ## The generic side -/

/-- Decoding `d` from `i` ends at index `j`, and what `g` sees of its value is the
    read `y`. -/
def Decodes {α : Type} (changed : PvaBitSet) (d : FieldDesc) (i j : ℕ) (g : PvaValue → α)
    (y : Read α) : Prop :=
  ∃ x, decodeDeltaStructure changed d i = (fun v => (v, j)) <$> x ∧ g <$> x = y

theorem decodes_leaf {changed : PvaBitSet} {d : FieldDesc} {i : ℕ} {α β : Type} {p : Read PvaValue}
    {q : Read β} {f : β → PvaValue} (hd : decodeDeltaStructure changed d i = whenSet changed i p)
    (hp : p = f <$> q) (g : PvaValue → α) :
    Decodes changed d i (i + 1) g
      ((fun o => (o.map (g ∘ f)).getD (g .null)) <$> opt changed i q) := by
  refine ⟨(fun o => (o.map f).getD .null) <$> opt changed i q, ?_, ?_⟩
  · rw [hd, whenSet_eq_opt, hp, opt_map]; simp
  · simp only [Functor.map_map]
    congr 1
    funext o
    cases o <;> rfl

/-- No bit from `i` on is set: every field from there decodes to `Null`. -/
def ClearFrom (changed : PvaBitSet) (i : ℕ) : Prop := ∀ j, i ≤ j → ¬changed.isSet j = true

theorem ClearFrom.mono {changed : PvaBitSet} {i j : ℕ} (h : ClearFrom changed i) (hij : i ≤ j) :
    ClearFrom changed j := fun k hk => h k (hij.trans hk)

mutual

theorem le_skipFlatIndices : ∀ (d : FieldDesc) (i : ℕ), i ≤ skipFlatIndices d i
  | .mk ft _ fs, i => by
    have := le_skipFlatIndicesAll fs (i + 1)
    cases ft <;> simp only [skipFlatIndices] <;> omega

theorem le_skipFlatIndicesAll :
    ∀ (fs : List (String × FieldDesc)) (i : ℕ), i ≤ skipFlatIndicesAll fs i
  | [], _ => le_rfl
  | (_, d) :: fs, i =>
    (le_skipFlatIndices d i).trans (le_skipFlatIndicesAll fs (skipFlatIndices d i))

end

theorem decodeDeltaStructure_clear {changed : PvaBitSet} {i : ℕ} (h : ClearFrom changed i)
    (d : FieldDesc) : ∃ j, i ≤ j ∧ decodeDeltaStructure changed d i = pure (.null, j) := by
  obtain ⟨ft, id, fs⟩ := d
  by_cases hft : ft = .struct ∨ ft = .structArray
  · refine ⟨skipFlatIndicesAll fs (i + 1), ?_, ?_⟩
    · have := le_skipFlatIndicesAll fs (i + 1); omega
    · rw [decodeDeltaStructure_structure _ _ _ _ hft, if_neg]
      rw [anyChildSet_iff]
      rintro ⟨j, hj, _, hset⟩
      exact h j hj hset
  · obtain ⟨p, hp⟩ := decodeDeltaStructure_leaf id fs hft
    exact ⟨i + 1, by omega, by rw [hp, whenSet, if_neg (h i le_rfl)]⟩

theorem decodeDeltaFields_clear {changed : PvaBitSet} (fs : List (String × FieldDesc)) :
    ∀ {i : ℕ}, ClearFrom changed i →
      ∃ vs j, i ≤ j ∧ decodeDeltaFields changed fs i = pure (vs, j) := by
  induction fs with
  | nil => intro i _; exact ⟨[], i, le_rfl, decodeDeltaFields_nil changed i⟩
  | cons f fs ih =>
    intro i h
    obtain ⟨j, hij, hd⟩ := decodeDeltaStructure_clear h f.2
    obtain ⟨vs, k, hjk, hfs⟩ := ih (h.mono hij)
    refine ⟨(f.1, .null) :: vs, k, by omega, ?_⟩
    rw [decodeDeltaFields_cons, hd]
    simp [hfs]

/-- A structure whose fields decode as `y`: skipping it, when no bit below it is
    set, shows `g` the same as decoding only absent fields. -/
theorem decodes_struct {α β : Type} {changed : PvaBitSet} (id : String)
    {fs : List (String × FieldDesc)} {i j : ℕ} {y : Read β} {mk : β → List (String × PvaValue)}
    {o : β} {g : PvaValue → α}
    (hfs : decodeDeltaFields changed fs (i + 1) = (fun o => (mk o, j)) <$> y)
    (hclear : (∀ l, i < l → l < i + (1 + FieldDesc.flatFieldCounts fs) → ¬changed.isSet l = true) →
      y = pure o)
    (hg : g .null = g (.struct (mk o))) :
    ∃ j', (j' = j ∨ j' = skipFlatIndicesAll fs (i + 1)) ∧
      Decodes changed (.mk .struct id fs) i j' g ((fun o => g (.struct (mk o))) <$> y) := by
  have heq := decodeDeltaStructure_structure changed id fs i (.inl rfl)
  by_cases hany : anyChildSet changed i (1 + FieldDesc.flatFieldCounts fs) = true
  · refine ⟨j, .inl rfl, (fun o => .struct (mk o)) <$> y, ?_, by simp⟩
    rw [heq, if_pos hany, hfs]
    simp
  · refine ⟨_, .inr rfl, pure .null, ?_, ?_⟩
    · rw [heq, if_neg hany]; simp
    · rw [hclear]
      · simp [hg]
      · intro l hl hlt hset
        exact hany ((anyChildSet_iff ..).mpr ⟨l, by omega, hlt, hset⟩)

section Root

variable {α β γ δ : Type} {changed : PvaBitSet} {v a t : FieldDesc} {jv ja jt : ℕ}
  {gV : PvaValue → β} {gA : PvaValue → γ} {gT : PvaValue → δ} {yV : Read β} {yA : Read γ}
  {yT : Read δ}

/-- The root, from its three leading fields; later fields have no bit set. -/
theorem decodeDeltaRoot_eq (hv : Decodes changed v 1 jv gV yV) (ha : Decodes changed a jv ja gA yA)
    (ht : Decodes changed t ja jt gT yT) (hclear : ClearFrom changed jt) {F : PvaValue → α}
    {F' : β → γ → δ → α}
    (hF : ∀ v a t rest,
      F (.struct (("value", v) :: ("alarm", a) :: ("timeStamp", t) :: rest)) =
        F' (gV v) (gA a) (gT t))
    (ft : FieldType) (id : String) (rest : List (String × FieldDesc)) :
    F <$> decodeDeltaRoot changed
        (.mk ft id (("value", v) :: ("alarm", a) :: ("timeStamp", t) :: rest)) = do
      let x ← yV
      let y ← yA
      let z ← yT
      return F' x y z := by
  obtain ⟨xV, hxV, rfl⟩ := hv
  obtain ⟨xA, hxA, rfl⟩ := ha
  obtain ⟨xT, hxT, rfl⟩ := ht
  obtain ⟨vs, k, _, hrest⟩ := decodeDeltaFields_clear rest hclear
  rw [decodeDeltaRoot, FieldDesc.fields_mk, decodeDeltaFields_cons, hxV]
  simp only [bind_map_left, decodeDeltaFields_cons, hxA, hxT, hrest, bind_assoc, pure_bind,
    map_bind, map_pure, hF]

end Root

/-! ### Alarm, timestamp and values -/

theorem decodeDeltaStructure_string (changed : PvaBitSet) {ft : FieldType} (hft : IsString ft)
    (id : String) (fs : List (String × FieldDesc)) (i : ℕ) :
    decodeDeltaStructure changed (.mk ft id fs) i =
      whenSet changed i ((fun s => PvaValue.scalar (.string s)) <$> Read.string) := by
  rcases hft with rfl | ⟨n, rfl⟩
  · rw [decodeDeltaStructure_scalar, decodeScalar]; simp
  · rw [decodeDeltaStructure]

/-- What the loops keep of an alarm. -/
def alarmParts (a : PvaValue) : Int32 × Int32 :=
  (((a.field "severity").bind PvaValue.asI32).getD 0, ((a.field "status").bind PvaValue.asI32).getD 0)

/-- What the loops keep of a timestamp. -/
def timeParts (t : PvaValue) : Int64 × Int32 :=
  (((t.field "secondsPastEpoch").bind PvaValue.asI64).getD 0,
    ((t.field "nanoseconds").bind PvaValue.asI32).getD 0)

/-- The reads of an alarm structure at index `i`. -/
def alarmReads (changed : PvaBitSet) (i : ℕ) : Read (Int32 × Int32) := do
  let severity ← opt changed (i + 1) Read.i32
  let status ← opt changed (i + 2) Read.i32
  let _ ← opt changed (i + 3) Read.string
  return (severity.getD 0, status.getD 0)

/-- The reads of a timestamp structure at index `i`. -/
def timeReads (changed : PvaBitSet) (i : ℕ) : Read (Int64 × Int32) := do
  let seconds ← opt changed (i + 1) Read.i64
  let nanos ← opt changed (i + 2) Read.i32
  let _ ← opt changed (i + 3) Read.i32
  return (seconds.getD 0, nanos.getD 0)

theorem alarmParts_struct (x y : PvaValue) (rest : List (String × PvaValue)) :
    alarmParts (.struct (("severity", x) :: ("status", y) :: rest)) =
      (x.asI32.getD 0, y.asI32.getD 0) := rfl

theorem timeParts_struct (x y : PvaValue) (rest : List (String × PvaValue)) :
    timeParts (.struct (("secondsPastEpoch", x) :: ("nanoseconds", y) :: rest)) =
      (x.asI64.getD 0, y.asI32.getD 0) := rfl

theorem asI32_opt (o : Option Int32) :
    ((o.map fun v => PvaValue.scalar (.int v)).getD .null).asI32.getD 0 = o.getD 0 := by
  cases o with
  | none => rfl
  | some v => simp [PvaValue.asI32, PvaValue.asScalar, ScalarValue.asI32, ScalarValue.asI64]

theorem asI64_opt (o : Option Int64) :
    ((o.map fun v => PvaValue.scalar (.long v)).getD .null).asI64.getD 0 = o.getD 0 := by
  cases o <;> rfl

/-- Three leaf fields in a row, each a conditional read. -/
theorem decodeDeltaFields_three {α β γ : Type} {changed : PvaBitSet} (n₁ n₂ n₃ : String)
    {x₁ x₂ x₃ : FieldDesc} {f₁ : α → PvaValue} {f₂ : β → PvaValue} {f₃ : γ → PvaValue}
    {q₁ : Read α} {q₂ : Read β} {q₃ : Read γ} {i j : ℕ} {rest : List (String × FieldDesc)}
    {vs : List (String × PvaValue)}
    (h₁ : decodeDeltaStructure changed x₁ i = whenSet changed i (f₁ <$> q₁))
    (h₂ : decodeDeltaStructure changed x₂ (i + 1) = whenSet changed (i + 1) (f₂ <$> q₂))
    (h₃ : decodeDeltaStructure changed x₃ (i + 2) = whenSet changed (i + 2) (f₃ <$> q₃))
    (hrest : decodeDeltaFields changed rest (i + 3) = pure (vs, j)) :
    decodeDeltaFields changed ((n₁, x₁) :: (n₂, x₂) :: (n₃, x₃) :: rest) i =
      (fun o : Option α × Option β × Option γ =>
        ((n₁, (o.1.map f₁).getD .null) :: (n₂, (o.2.1.map f₂).getD .null) ::
          (n₃, (o.2.2.map f₃).getD .null) :: vs, j)) <$> (do
        let o₁ ← opt changed i q₁
        let o₂ ← opt changed (i + 1) q₂
        let o₃ ← opt changed (i + 2) q₃
        return (o₁, o₂, o₃)) := by
  simp only [decodeDeltaFields_cons, h₁, h₂, h₃, hrest, whenSet_eq_opt, opt_map, bind_map_left,
    bind_assoc, map_bind, pure_bind, map_pure]

theorem opts_clear {α β γ : Type} {changed : PvaBitSet} {i n : ℕ} (q₁ : Read α) (q₂ : Read β)
    (q₃ : Read γ) (hn : i + 3 < n) (h : ∀ l, i < l → l < n → ¬changed.isSet l = true) :
    (do
      let o₁ ← opt changed (i + 1) q₁
      let o₂ ← opt changed (i + 2) q₂
      let o₃ ← opt changed (i + 3) q₃
      return (o₁, o₂, o₃)) = (pure (none, none, none) : Read _) := by
  rw [opt_of_not_isSet q₁ (h _ (by omega) (by omega)), opt_of_not_isSet q₂ (h _ (by omega) (by omega)),
    opt_of_not_isSet q₃ (h _ (by omega) (by omega))]
  simp

theorem decodeDeltaStructure_int (changed : PvaBitSet) (id : String)
    (fs : List (String × FieldDesc)) (i : ℕ) :
    decodeDeltaStructure changed (.mk (.scalar .int) id fs) i =
      whenSet changed i ((fun v => PvaValue.scalar (.int v)) <$> Read.i32) := by
  rw [decodeDeltaStructure_scalar, decodeScalar]; simp

theorem decodes_alarm (changed : PvaBitSet) {a : FieldDesc} (ha : CanonicalAlarm a) (i : ℕ) :
    Decodes changed a i (i + 4) alarmParts (alarmReads changed i) := by
  obtain ⟨id, i₁, i₂, i₃, ft, hft⟩ := ha
  obtain ⟨j', hj', hdec⟩ := decodes_struct id (g := alarmParts)
    (decodeDeltaFields_three "severity" "status" "message"
      (decodeDeltaStructure_int changed i₁ [] _) (decodeDeltaStructure_int changed i₂ [] _)
      (decodeDeltaStructure_string changed hft i₃ [] _) (decodeDeltaFields_nil changed _))
    (opts_clear Read.i32 Read.i32 Read.string (by simp [FieldDesc.flatFieldCount])) rfl
  obtain rfl : j' = i + 4 := by
    rcases hj' with rfl | rfl
    · rfl
    · rcases hft with rfl | ⟨n, rfl⟩ <;> rfl
  convert hdec using 1
  simp only [alarmReads, map_bind, map_pure, alarmParts_struct, asI32_opt, Nat.add_assoc,
    Nat.reduceAdd]

theorem decodes_timeStamp {changed : PvaBitSet} {t : FieldDesc} (ht : CanonicalTimeStamp t) {i : ℕ}
    (hclear : ClearFrom changed (i + 4)) :
    ∃ j, i + 4 ≤ j ∧ Decodes changed t i j timeParts (timeReads changed i) := by
  obtain ⟨id, i₁, i₂, i₃, sub, rest⟩ := ht
  obtain ⟨vs, k, hk, hrest⟩ := decodeDeltaFields_clear rest hclear
  have hlong : decodeDeltaStructure changed (.mk (.scalar .long) i₁ []) (i + 1) =
      whenSet changed (i + 1) ((fun v => PvaValue.scalar (.long v)) <$> Read.i64) := by
    rw [decodeDeltaStructure_scalar, decodeScalar]; simp
  obtain ⟨j, hj, hdec⟩ := decodes_struct id (g := timeParts)
    (decodeDeltaFields_three "secondsPastEpoch" "nanoseconds" "userTag" hlong
      (decodeDeltaStructure_int changed i₂ [] _) (decodeDeltaStructure_int changed i₃ sub _) hrest)
    (opts_clear Read.i64 Read.i32 Read.i32 (by simp [FieldDesc.flatFieldCount]; omega)) rfl
  refine ⟨j, ?_, ?_⟩
  · rcases hj with rfl | rfl
    · exact hk
    · have := le_skipFlatIndicesAll rest (i + 4)
      simp only [skipFlatIndicesAll, skipFlatIndices]
      omega
  · convert hdec using 1
    simp only [timeReads, map_bind, map_pure, timeParts_struct, asI32_opt, asI64_opt, Nat.add_assoc,
      Nat.reduceAdd]

/-! ## The fast side -/

/-- With every bit within the layout, the loop is a fold over all indices that
    steps at the set ones. -/
theorem fastLoop_filter {σ : Type} (maxKnownBit : UInt8) (step : UInt8 → σ → Read σ)
    (P : ℕ → Bool) (bits : List ℕ) (hbits : ∀ b ∈ bits, b ≤ maxKnownBit.toNat) (s : σ) :
    fastLoop maxKnownBit step (bits.filter P) s =
      bits.foldlM (fun s b => if P b = true ∧ b ≠ 0 then step (UInt8.ofNat b) s else pure s) s := by
  induction bits generalizing s with
  | nil => rfl
  | cons b bits ih =>
    have hrest := fun s => ih (fun c hc => hbits c (List.mem_cons_of_mem _ hc)) s
    have hb := hbits b List.mem_cons_self
    have hmax := maxKnownBit.toNat_lt
    have hnat : (UInt8.ofNat b).toNat = b := UInt8.toNat_ofNat_of_lt (by simp only [UInt8.size]; omega)
    rw [List.filter_cons, List.foldlM_cons]
    by_cases hP : P b = true
    · rw [if_pos hP, fastLoop]
      by_cases hb0 : b = 0
      · subst hb0
        simp [hrest]
      · have hne : UInt8.ofNat b ≠ 0 := by
          intro h0
          rw [h0] at hnat
          exact hb0 hnat.symm
        have hle : ¬maxKnownBit < UInt8.ofNat b := by
          rw [UInt8.lt_iff_toNat_lt, hnat]
          omega
        rw [if_neg hne, if_neg hle, if_pos ⟨hP, hb0⟩]
        simp only [hrest]
    · rw [if_neg hP, hrest, if_neg (fun h => hP h.1), pure_bind]

/-- The bits of the alarm structure at index `k` and of the timestamp after it. -/
def AlarmTimeBits.StartsAt (b : AlarmTimeBits) (k : ℕ) : Prop :=
  (k = 2 ∧ b = ⟨3, 4, 5, 7, 8, 9⟩) ∨ (k = 4 ∧ b = ⟨5, 6, 7, 9, 10, 11⟩)

section Elim

variable (s : AlarmTime)

theorem elim_severity (o : Option Int32) :
    (o.elim s fun v => { s with severity := v }) = { s with severity := o.getD s.severity } := by
  cases o <;> rfl

theorem elim_status (o : Option Int32) :
    (o.elim s fun v => { s with status := v }) = { s with status := o.getD s.status } := by
  cases o <;> rfl

theorem elim_seconds (o : Option Int64) :
    (o.elim s fun v => { s with seconds := v }) = { s with seconds := o.getD s.seconds } := by
  cases o <;> rfl

theorem elim_nanos (o : Option Int32) :
    (o.elim s fun v => { s with nanos := v }) = { s with nanos := o.getD s.nanos } := by
  cases o <;> rfl

theorem elim_skip {α : Type} (o : Option α) : (o.elim s fun _ => s) = s := by
  cases o <;> rfl

end Elim

theorem read_fold (changed : PvaBitSet) {b : AlarmTimeBits} {k : ℕ} (hb : b.StartsAt k) :
    [k, k + 1, k + 2, k + 3, k + 4, k + 5, k + 6, k + 7].foldlM
      (fun s j => if changed.isSet j then b.read (UInt8.ofNat j) s else pure s) {} = do
    let y ← alarmReads changed k
    let z ← timeReads changed (k + 4)
    return { severity := y.1, status := y.2, seconds := z.1, nanos := z.2 } := by
  obtain ⟨h0, h1, h2, h3, h4, h5, h6, h7⟩ :
      (∀ s, b.read (UInt8.ofNat k) s = pure s) ∧
      (∀ s, b.read (UInt8.ofNat (k + 1)) s = (fun v => { s with severity := v }) <$> Read.i32) ∧
      (∀ s, b.read (UInt8.ofNat (k + 2)) s = (fun v => { s with status := v }) <$> Read.i32) ∧
      (∀ s, b.read (UInt8.ofNat (k + 3)) s = (fun _ => s) <$> Read.string) ∧
      (∀ s, b.read (UInt8.ofNat (k + 4)) s = pure s) ∧
      (∀ s, b.read (UInt8.ofNat (k + 5)) s = (fun v => { s with seconds := v }) <$> Read.i64) ∧
      (∀ s, b.read (UInt8.ofNat (k + 6)) s = (fun v => { s with nanos := v }) <$> Read.i32) ∧
      (∀ s, b.read (UInt8.ofNat (k + 7)) s = (fun _ => s) <$> Read.i32) := by
    rcases hb with ⟨rfl, rfl⟩ | ⟨rfl, rfl⟩ <;>
      exact ⟨fun _ => rfl, fun _ => rfl, fun _ => rfl, fun _ => rfl, fun _ => rfl, fun _ => rfl,
        fun _ => rfl, fun _ => rfl⟩
  simp only [List.foldlM_cons, List.foldlM_nil, h0, h1, h2, h3, h4, h5, h6, h7, ite_self, pure_bind,
    ite_map_eq_opt, bind_map_left, elim_severity, elim_status, elim_seconds, elim_nanos, elim_skip,
    alarmReads, timeReads, bind_assoc, Nat.add_assoc, Nat.reduceAdd, bind_pure, bind_pure_comp,
    map_bind, Functor.map_map]

section Loop

variable {α : Type} {changed : PvaBitSet} {b : AlarmTimeBits}
  {step : UInt8 → FastFields α → Read (FastFields α)}

/-- `step` leaves bit `j` to the shared branches. -/
def SharedAt (b : AlarmTimeBits) (step : UInt8 → FastFields α → Read (FastFields α)) (j : ℕ) : Prop :=
  j ≠ 0 ∧ ∀ s, step (UInt8.ofNat j) s =
    (fun t => { s with alarmTime := t }) <$> b.read (UInt8.ofNat j) s.alarmTime

theorem foldlM_shared (bits : List ℕ) (hbits : ∀ j ∈ bits, SharedAt b step j) (s : FastFields α) :
    bits.foldlM (fun s j =>
        if changed.isSet j = true ∧ j ≠ 0 then step (UInt8.ofNat j) s else pure s) s =
      (fun t => { s with alarmTime := t }) <$>
        bits.foldlM (fun t j => if changed.isSet j then b.read (UInt8.ofNat j) t else pure t)
          s.alarmTime := by
  induction bits generalizing s with
  | nil => simp
  | cons j bits ih =>
    obtain ⟨hj, hstep⟩ := hbits j List.mem_cons_self
    have hrest := fun s => ih (fun c hc => hbits c (List.mem_cons_of_mem _ hc)) s
    rw [List.foldlM_cons, List.foldlM_cons]
    by_cases hset : changed.isSet j = true
    · rw [if_pos ⟨hset, hj⟩, if_pos hset, hstep]
      simp [hrest]
    · rw [if_neg (fun h => hset h.1), if_neg hset]
      simp [hrest]

/-- A whole loop: the value's bits below `k`, then the shared ones. -/
theorem fastLoop_eq {maxKnownBit : UInt8} {k : ℕ} (hb : b.StartsAt k)
    (hmax : maxKnownBit.toNat = k + 7) (hclear : ClearFrom changed (k + 8))
    (hshared : ∀ j, k ≤ j → j < k + 8 → SharedAt b step j) {x : α} {y : Read α}
    (hvalue : (List.range k).foldlM (fun s j =>
        if changed.isSet j = true ∧ j ≠ 0 then step (UInt8.ofNat j) s else pure s) ⟨x, {}⟩ =
      (fun x => ⟨x, {}⟩) <$> y) :
    fastLoop maxKnownBit step changed.iterSet ⟨x, {}⟩ = do
      let v ← y
      let a ← alarmReads changed k
      let t ← timeReads changed (k + 4)
      return ⟨v, { severity := a.1, status := a.2, seconds := t.1, nanos := t.2 }⟩ := by
  have hbound : ∀ i, changed.isSet i = true → i < k + 8 := by
    intro i hi
    by_contra hge
    exact hclear i (by omega) hi
  have hrange : List.range (k + 8) =
      List.range k ++ [k, k + 1, k + 2, k + 3, k + 4, k + 5, k + 6, k + 7] := by
    simp [List.range_succ]
  have htail : ∀ j ∈ [k, k + 1, k + 2, k + 3, k + 4, k + 5, k + 6, k + 7], SharedAt b step j := by
    intro j hj
    simp only [List.mem_cons, List.not_mem_nil, or_false] at hj
    exact hshared j (by omega) (by omega)
  have hle : ∀ j ∈ List.range (k + 8), j ≤ maxKnownBit.toNat := by
    intro j hj
    have := List.mem_range.mp hj
    omega
  rw [changed.iterSet_eq_filter hbound, fastLoop_filter maxKnownBit step changed.isSet _ hle, hrange,
    List.foldlM_append, hvalue]
  simp only [bind_map_left, foldlM_shared _ htail, read_fold changed hb, map_bind, map_pure]

end Loop

/-! ## The three paths -/

/-- The value reads of the three paths. -/
def scalarReads (changed : PvaBitSet) (st : ScalarType) : Read ScalarVars :=
  (fun o => { value := (o.bind ScalarValue.asF64).getD .zero
              stringValue := o.bind fun s => (PvaValue.scalar s).asString }) <$>
    opt changed 1 (decodeScalar st)

def arrayReads (changed : PvaBitSet) (st : ScalarType) : Read (List Binary64) :=
  (fun o => (o.getD []).map fun s => s.asF64.getD .zero) <$> opt changed 1 (decodeScalarArray st)

def enumReads (changed : PvaBitSet) : Read Int32 := do
  let index ← opt changed 2 Read.i32
  let _ ← opt changed 3 (decodeScalarArray .string)
  return index.getD 0

/-- `read_value` is `decode_scalar` followed by `as_f64`. -/
theorem readValue_eq (l : FastScalarLayout) (hst : l.valueType ≠ .string) :
    l.readValue = (fun s => s.asF64.getD .zero) <$> decodeScalar l.valueType := by
  unfold FastScalarLayout.readValue
  cases hl : l.valueType with
  | string => exact absurd hl hst
  | boolean => simp [decodeScalar, ScalarValue.asF64, Read.bool]
  | _ => simp [decodeScalar, ScalarValue.asF64]

/-- `read_array` is the generic array read followed by `as_f64` on each element. -/
theorem readArray_eq (l : FastArrayLayout) (hst : l.elementType ≠ .string) :
    l.readArray = List.map (fun s => s.asF64.getD .zero) <$> decodeScalarArray l.elementType := by
  unfold FastArrayLayout.readArray decodeScalarArray
  rw [map_bind]
  refine bind_congr fun len => ?_
  by_cases h0 : len = 0
  · simp [h0]
  · rw [if_neg h0, if_neg h0]
    cases hl : l.elementType with
    | string => exact absurd hl hst
    | ubyte => simp [ScalarValue.asF64, Function.comp_def]
    | boolean => simp [decodeScalar, ScalarValue.asF64, Read.bool, ← Read.many_map]
    | _ => simp [decodeScalar, ScalarValue.asF64, ← Read.many_map]

theorem skipChoices_eq : skipChoices = (fun _ => ()) <$> decodeScalarArray .string := by
  unfold skipChoices decodeScalarArray
  rw [map_bind]
  refine bind_congr fun len => ?_
  by_cases h0 : len = 0
  · simp [h0, Read.many]
  · rw [if_neg h0, if_neg (by decide), decodeScalar, Read.many_map]
    simp

theorem decodes_scalar (changed : PvaBitSet) {v : FieldDesc} (hv : ScalarLeaf v) :
    ∃ st, v.fieldType = .scalar st ∧
      Decodes changed v 1 2 (fun w => ScalarVars.mk (w.asF64.getD .zero) w.asString)
        (scalarReads changed st) := by
  obtain ⟨st, id⟩ := hv
  refine ⟨st, rfl, ?_⟩
  convert decodes_leaf (decodeDeltaStructure_scalar changed id [] 1 st) rfl
    (fun w => ScalarVars.mk (w.asF64.getD .zero) w.asString) using 1
  unfold scalarReads
  congr 1
  funext o
  cases o <;> rfl

theorem decodes_array (changed : PvaBitSet) {v : FieldDesc} (hv : NumericArrayLeaf v) :
    ∃ st, v.fieldType = .scalarArray st ∧
      Decodes changed v 1 2
        (fun w => (w.asScalarArray.getD []).map fun s => s.asF64.getD .zero)
        (arrayReads changed st) := by
  obtain ⟨st, id, _⟩ := hv
  refine ⟨st, rfl, ?_⟩
  convert decodes_leaf (decodeDeltaStructure_scalarArray changed id [] 1 st) rfl
    (fun w => (w.asScalarArray.getD []).map fun s => s.asF64.getD .zero) using 1
  unfold arrayReads
  congr 1
  funext o
  cases o <;> rfl

theorem decodes_enum (changed : PvaBitSet) {v : FieldDesc} (hv : EnumValue v) :
    Decodes changed v 1 4 (fun w => ((w.field "index").bind PvaValue.asI32).getD 0)
      (enumReads changed) := by
  obtain ⟨id, i₁, i₂⟩ := hv
  have hfs : decodeDeltaFields changed [("index", .mk (.scalar .int) i₁ []),
      ("choices", .mk (.scalarArray .string) i₂ [])] 2 =
      (fun o : Option Int32 × Option (List ScalarValue) =>
        ([("index", (o.1.map fun v => PvaValue.scalar (.int v)).getD .null),
          ("choices", (o.2.map PvaValue.scalarArray).getD .null)], 4)) <$> (do
        let o₁ ← opt changed 2 Read.i32
        let o₂ ← opt changed 3 (decodeScalarArray .string)
        return (o₁, o₂)) := by
    simp only [decodeDeltaFields_cons, decodeDeltaFields_nil, decodeDeltaStructure_int,
      decodeDeltaStructure_scalarArray, whenSet_eq_opt, opt_map, bind_map_left, bind_assoc, map_bind,
      pure_bind, map_pure, Nat.reduceAdd]
  obtain ⟨j, hj, hdec⟩ := decodes_struct id (i := 1) (o := (none, none))
    (g := fun w => ((w.field "index").bind PvaValue.asI32).getD 0) hfs
    (fun h => by
      rw [opt_of_not_isSet Read.i32 (h 2 (by omega) (by simp [FieldDesc.flatFieldCount])),
        opt_of_not_isSet _ (h 3 (by omega) (by simp [FieldDesc.flatFieldCount]))]
      simp) rfl
  obtain rfl : j = 4 := by rcases hj with rfl | rfl <;> rfl
  convert hdec using 1
  simp only [enumReads, map_bind, map_pure]
  refine bind_congr fun o₁ => bind_congr fun o₂ => congrArg pure ?_
  exact (asI32_opt o₁).symm

theorem clearFrom_of_hasUnknown {changed : PvaBitSet} {maxKnownBit : UInt8}
    (h : hasUnknown changed maxKnownBit = false) : ClearFrom changed (maxKnownBit.toNat + 1) := by
  intro j hj hset
  simp only [hasUnknown, List.any_eq_false, decide_eq_true_eq] at h
  have := h j ((changed.mem_iterSet j).mpr hset)
  omega

/-- The fast result is the generic value seen through `project`, and the root loop
    of the generic path is `decode_delta_structure` at index 0. -/
def AgreesWithGeneric {α : Type} (fast : Read (FastFields α)) (project : PvaValue → α)
    (changed : PvaBitSet) (d : FieldDesc) : Prop :=
  fast = (fun v => ⟨project v, AlarmTime.ofValue v⟩) <$> decodeDeltaRoot changed d ∧
    decodeDeltaRoot changed d = Prod.fst <$> decodeDeltaStructure changed d 0

theorem decodeDeltaRoot_eq_structure {changed : PvaBitSet} {id : String}
    {fs : List (String × FieldDesc)} {j : ℕ} (hset : changed.isSet j = true)
    (hj : j < 1 + FieldDesc.flatFieldCounts fs) :
    decodeDeltaRoot changed (.mk .struct id fs) =
      Prod.fst <$> decodeDeltaStructure changed (.mk .struct id fs) 0 := by
  have hany : anyChildSet changed 0 (1 + FieldDesc.flatFieldCounts fs) = true :=
    (anyChildSet_iff ..).mpr ⟨j, by omega, by omega, hset⟩
  rw [decodeDeltaStructure_structure _ _ _ _ (.inl rfl), if_pos hany, decodeDeltaRoot,
    FieldDesc.fields_mk]
  simp

/-- In a canonical descriptor the value's own bits are below the root's count. -/
theorem Canonical.lt_flatFieldCounts {isValue : FieldDesc → Prop} {d : FieldDesc}
    (hd : Canonical isValue d) : 2 < FieldDesc.flatFieldCounts d.fields := by
  obtain ⟨id, v, a, t, rest, _, _, _⟩ := hd
  have := FieldDesc.length_le_flatFieldCounts
    (("value", v) :: ("alarm", a) :: ("timeStamp", t) :: rest)
  simp only [List.length_cons] at this
  exact this.trans_lt' (by omega)

/-- Generic side and loop put together, for a value that takes the indices from 1
    to before `k`. -/
theorem agrees_of_decodes {α : Type} {changed : PvaBitSet} {d : FieldDesc}
    {isValue : FieldDesc → Prop} (hd : Canonical isValue d) {k : ℕ} {g : PvaValue → α}
    {y : Read α} {project : PvaValue → α} {fast : Read (FastFields α)}
    (hvalue : ∀ v fs, d.fields = ("value", v) :: fs → isValue v → Decodes changed v 1 k g y)
    (hclear : ClearFrom changed (k + 8))
    (hproject : ∀ v vs, project (.struct (("value", v) :: vs)) = g v)
    (hfast : fast = do
      let v ← y
      let a ← alarmReads changed k
      let t ← timeReads changed (k + 4)
      return ⟨v, { severity := a.1, status := a.2, seconds := t.1, nanos := t.2 }⟩)
    {j : ℕ} (hset : changed.isSet j = true) (hj : j ≤ 2) :
    AgreesWithGeneric fast project changed d := by
  have hcount := hd.lt_flatFieldCounts
  obtain ⟨id, v, a, t, rest, hv, ha, ht⟩ := hd
  constructor
  · obtain ⟨j, hj, hdt⟩ := decodes_timeStamp ht (i := k + 4) hclear
    rw [hfast]
    refine (decodeDeltaRoot_eq (hvalue v _ rfl hv) (decodes_alarm changed ha k) hdt (hclear.mono hj)
      ?_ _ _ _).symm
    intro v a t rest
    rw [hproject]
    rfl
  · exact decodeDeltaRoot_eq_structure hset (by rw [FieldDesc.fields_mk] at hcount; omega)

theorem foldlM_range_two {σ : Type} (changed : PvaBitSet) (step : UInt8 → σ → Read σ) (s : σ) :
    (List.range 2).foldlM (fun s j =>
        if changed.isSet j = true ∧ j ≠ 0 then step (UInt8.ofNat j) s else pure s) s =
      if changed.isSet 1 then step 1 s else pure s := by
  have hrange : List.range 2 = [0, 1] := rfl
  rw [hrange, List.foldlM_cons, if_neg (by simp), pure_bind, List.foldlM_cons]
  simp only [List.foldlM_nil, bind_pure, ne_eq, one_ne_zero, not_false_eq_true, and_true]
  rfl

/-- The scalar loop's step at the value's bit, as the generic read. -/
theorem FastScalarLayout.step_value {l : FastScalarLayout} (hbit : l.valueBit = 1) :
    l.step 1 ⟨{}, {}⟩ =
      (fun s => ⟨{ value := s.asF64.getD .zero, stringValue := (PvaValue.scalar s).asString }, {}⟩) <$>
        decodeScalar l.valueType := by
  rw [step, if_pos hbit.symm]
  split_ifs with hstr
  · rw [hstr, decodeScalar]
    simp [ScalarValue.asF64, PvaValue.asString]
  · rw [readValue_eq l hstr]
    cases hst : l.valueType with
    | string => exact absurd hst hstr
    | _ => simp [decodeScalar, ScalarValue.asF64, PvaValue.asString]

theorem ofNat_ne_one {j : ℕ} (hle : 2 ≤ j) (hlt : j < 10) : UInt8.ofNat j ≠ 1 := by
  interval_cases j <;> decide

theorem scalar_agrees {d : FieldDesc} (hd : Canonical ScalarLeaf d) {l : FastScalarLayout}
    (hdetect : FastScalarLayout.detect d = some l) {changed : PvaBitSet}
    (hvalue : changed.isSet l.valueBit.toNat = true)
    (hknown : hasUnknown changed l.maxKnownBit = false) :
    AgreesWithGeneric (l.decode changed) ScalarVars.ofValue changed d := by
  obtain ⟨f0, fs, hfs, hft, hl⟩ := FastScalarLayout.detect_eq_some hdetect
  have hbits : l.toAlarmTimeBits.StartsAt 2 := .inl ⟨rfl, by rw [hl]⟩
  have hbit : l.valueBit = 1 := by rw [hl]
  have hmax : l.maxKnownBit = 9 := by rw [hl]
  have hclear := clearFrom_of_hasUnknown hknown
  rw [hmax] at hclear
  rw [hbit] at hvalue
  have hhead : (List.range 2).foldlM (fun s j =>
      if changed.isSet j = true ∧ j ≠ 0 then l.step (UInt8.ofNat j) s else pure s) ⟨{}, {}⟩ =
      (fun x => ⟨x, {}⟩) <$> scalarReads changed l.valueType := by
    rw [foldlM_range_two, l.step_value hbit, ite_map_eq_opt, scalarReads, Functor.map_map]
    refine congrArg (· <$> _) (funext fun o => ?_)
    cases o <;> rfl
  refine agrees_of_decodes hd (g := fun w => ⟨w.asF64.getD .zero, w.asString⟩) ?_ hclear
    (fun _ _ => rfl) (fastLoop_eq hbits (by rw [hmax]; rfl) hclear ?_ hhead) hvalue (by decide)
  · intro v fs' hfs' hv
    rw [hfs] at hfs'
    obtain ⟨rfl, _⟩ := List.cons.inj hfs'
    obtain ⟨st, hst, hdv⟩ := decodes_scalar changed hv
    rw [hft] at hst
    rwa [FieldType.scalar.inj hst]
  · intro j hle hlt
    refine ⟨by omega, fun s => ?_⟩
    have hne : UInt8.ofNat j ≠ l.valueBit := by
      rw [hbit]
      exact ofNat_ne_one hle hlt
    rw [FastScalarLayout.step, if_neg hne]

theorem array_agrees {d : FieldDesc} (hd : Canonical NumericArrayLeaf d) {l : FastArrayLayout}
    (hdetect : FastArrayLayout.detect d = some l) {changed : PvaBitSet}
    (hvalue : changed.isSet l.valueBit.toNat = true)
    (hknown : hasUnknown changed l.maxKnownBit = false) :
    AgreesWithGeneric (l.decode changed) arrayOfValue changed d := by
  obtain ⟨f0, fs, hfs, hft, hne, hl⟩ := FastArrayLayout.detect_eq_some hdetect
  have hbits : l.toAlarmTimeBits.StartsAt 2 := .inl ⟨rfl, by rw [hl]⟩
  have hbit : l.valueBit = 1 := by rw [hl]
  have hmax : l.maxKnownBit = 9 := by rw [hl]
  have hclear := clearFrom_of_hasUnknown hknown
  rw [hmax] at hclear
  rw [hbit] at hvalue
  have hhead : (List.range 2).foldlM (fun s j =>
      if changed.isSet j = true ∧ j ≠ 0 then l.step (UInt8.ofNat j) s else pure s) ⟨[], {}⟩ =
      (fun x => ⟨x, {}⟩) <$> arrayReads changed l.elementType := by
    rw [foldlM_range_two, FastArrayLayout.step, if_pos hbit.symm, ite_map_eq_opt, readArray_eq l hne,
      opt_map, arrayReads, Functor.map_map, Functor.map_map]
    refine congrArg (· <$> _) (funext fun o => ?_)
    cases o <;> rfl
  refine agrees_of_decodes hd
    (g := fun w => (w.asScalarArray.getD []).map fun s => s.asF64.getD .zero) ?_ hclear
    (fun _ _ => rfl) (fastLoop_eq hbits (by rw [hmax]; rfl) hclear ?_ hhead) hvalue (by decide)
  · intro v fs' hfs' hv
    rw [hfs] at hfs'
    obtain ⟨rfl, _⟩ := List.cons.inj hfs'
    obtain ⟨st, hst, hdv⟩ := decodes_array changed hv
    rw [hft] at hst
    rwa [FieldType.scalarArray.inj hst]
  · intro j hle hlt
    refine ⟨by omega, fun s => ?_⟩
    have hne : UInt8.ofNat j ≠ l.valueBit := by
      rw [hbit]
      exact ofNat_ne_one hle hlt
    rw [FastArrayLayout.step, if_neg hne]

theorem enum_agrees {d : FieldDesc} (hd : Canonical EnumValue d) {l : FastEnumLayout}
    (hdetect : FastEnumLayout.detect d = some l) {changed : PvaBitSet}
    (hvalue : changed.isSet l.indexBit.toNat = true)
    (hknown : hasUnknown changed l.maxKnownBit = false) :
    AgreesWithGeneric (l.decode changed) (fun v => i32At v "value" "index") changed d := by
  obtain rfl := FastEnumLayout.detect_eq_some hdetect
  have hclear := clearFrom_of_hasUnknown hknown
  have hhead : (List.range 4).foldlM (fun s j =>
      if changed.isSet j = true ∧ j ≠ 0 then enumLayout.step (UInt8.ofNat j) s else pure s) ⟨0, {}⟩ =
      (fun x => ⟨x, {}⟩) <$> enumReads changed := by
    have hrange : List.range 4 = [0, 1, 2, 3] := rfl
    have h1 : ∀ s, enumLayout.step (UInt8.ofNat 1) s =
      pure s := fun _ => rfl
    have h2 : ∀ s, enumLayout.step (UInt8.ofNat 2) s =
      (fun v => { s with value := v }) <$> Read.i32 := fun _ => rfl
    have h3 : ∀ s, enumLayout.step (UInt8.ofNat 3) s =
      (fun _ => s) <$> skipChoices := fun _ => rfl
    have hindex : ∀ (s : FastFields Int32) (o : Option Int32),
        (o.elim s fun v => { s with value := v }) = { s with value := o.getD s.value } := by
      intro s o; cases o <;> rfl
    have hskip : ∀ (s : FastFields Int32) {β : Type} (o : Option β), (o.elim s fun _ => s) = s := by
      intro s β o; cases o <;> rfl
    rw [hrange, List.foldlM_cons, if_neg (by simp), pure_bind]
    simp only [List.foldlM_cons, List.foldlM_nil, h1, h2, h3, ite_self, pure_bind, ne_eq,
      OfNat.ofNat_ne_zero, not_false_eq_true, and_true, ite_map_eq_opt, hindex, hskip,
      skipChoices_eq, bind_map_left, enumReads, map_bind, bind_pure, bind_pure_comp,
      Functor.map_map]
  refine agrees_of_decodes hd (g := fun w => ((w.field "index").bind PvaValue.asI32).getD 0)
    (fun v _ _ hv => decodes_enum changed hv) hclear (fun _ _ => rfl)
    (fastLoop_eq (.inr ⟨rfl, rfl⟩) rfl hclear ?_ hhead) hvalue (by decide)
  intro j hle hlt
  refine ⟨by omega, fun s => ?_⟩
  have hne : UInt8.ofNat j ≠ enumLayout.valueStructBit ∧ UInt8.ofNat j ≠ enumLayout.indexBit ∧
      UInt8.ofNat j ≠ enumLayout.choicesBit := by
    interval_cases j <;> decide
  rw [FastEnumLayout.step, if_neg hne.1, if_neg hne.2.1, if_neg hne.2.2]
  rfl

/-! ### Detection on canonical descriptors -/

theorem detectAlarmTime_of_canonical {a t : FieldDesc} (ha : CanonicalAlarm a)
    (ht : CanonicalTimeStamp t) (bit : UInt8) : ∃ p, detectAlarmTime a t bit = some p := by
  obtain ⟨_, _, _, _, _, _⟩ := ha
  obtain ⟨_, _, _, _, _, _⟩ := ht
  unfold detectAlarmTime
  rw [if_neg (by simp)]
  dsimp only
  rw [if_neg (by simp)]
  exact ⟨_, rfl⟩

theorem FastScalarLayout.detect_of_canonical {d : FieldDesc} (hd : Canonical ScalarLeaf d)
    (hid : "epics:nt/NTScalar".toList.isPrefixOf d.typeId.toList = true) :
    ∃ l, detect d = some l := by
  obtain ⟨id, v, a, t, rest, ⟨st, vid⟩, ha, ht⟩ := hd
  obtain ⟨p, hp⟩ := detectAlarmTime_of_canonical ha ht 2
  unfold detect
  rw [if_pos hid]
  exact ⟨_, by simp only [FieldDesc.fields_mk, FieldDesc.fieldType_mk]; exact congrArg _ hp⟩

theorem FastArrayLayout.detect_of_canonical {d : FieldDesc} (hd : Canonical NumericArrayLeaf d)
    (hid : d.typeId = "epics:nt/NTScalarArray:1.0") : ∃ l, detect d = some l := by
  obtain ⟨id, v, a, t, rest, ⟨st, vid, hst⟩, ha, ht⟩ := hd
  obtain ⟨p, hp⟩ := detectAlarmTime_of_canonical ha ht 2
  unfold detect
  rw [if_pos hid]
  simp only [FieldDesc.fields_mk, FieldDesc.fieldType_mk]
  rw [if_neg hst]
  exact ⟨_, congrArg _ hp⟩

theorem FastEnumLayout.detect_of_canonical {d : FieldDesc} (hd : Canonical EnumValue d)
    (hid : d.typeId = "epics:nt/NTEnum:1.0") : ∃ l, detect d = some l := by
  obtain ⟨id, v, a, t, rest, ⟨vid, i₁, i₂⟩, ha, ht⟩ := hd
  obtain ⟨p, hp⟩ := detectAlarmTime_of_canonical ha ht 4
  have hmap : (detectAlarmTime a t 4).map (fun q => FastEnumLayout.mk q.1 1 2 3 (q.2 - 1)) =
      some ⟨p.1, 1, 2, 3, p.2 - 1⟩ := by rw [hp]; rfl
  unfold detect
  rw [if_pos hid]
  exact ⟨_, hmap⟩

/-- **Main theorem**: on a canonical `NTScalar`, numeric `NTScalarArray` or `NTEnum`
    descriptor `detect` gives a layout, and for every delta that has the value's bit
    and none above `max_known_bit` the fast loop agrees with the generic decoder. The
    agreement is an equality of reads, so it holds at every reader: the same payloads
    fail, the position is the same, and an absent field is 0 on the fast side. -/
theorem fastPath_eq_generic (d : FieldDesc) :
    ("epics:nt/NTScalar".toList.isPrefixOf d.typeId.toList = true → Canonical ScalarLeaf d →
      ∃ l, FastScalarLayout.detect d = some l ∧ ∀ changed : PvaBitSet,
        changed.isSet 0 = false → changed.isSet l.valueBit.toNat = true →
        hasUnknown changed l.maxKnownBit = false →
        AgreesWithGeneric (l.decode changed) ScalarVars.ofValue changed d) ∧
    (d.typeId = "epics:nt/NTScalarArray:1.0" → Canonical NumericArrayLeaf d →
      ∃ l, FastArrayLayout.detect d = some l ∧ ∀ changed : PvaBitSet,
        changed.isSet 0 = false → changed.isSet l.valueBit.toNat = true →
        hasUnknown changed l.maxKnownBit = false →
        AgreesWithGeneric (l.decode changed) arrayOfValue changed d) ∧
    (d.typeId = "epics:nt/NTEnum:1.0" → Canonical EnumValue d →
      ∃ l, FastEnumLayout.detect d = some l ∧ ∀ changed : PvaBitSet,
        changed.isSet 0 = false → changed.isSet l.indexBit.toNat = true →
        hasUnknown changed l.maxKnownBit = false →
        AgreesWithGeneric (l.decode changed) (fun v => i32At v "value" "index") changed d) := by
  refine ⟨fun hid hd => ?_, fun hid hd => ?_, fun hid hd => ?_⟩
  · obtain ⟨l, hl⟩ := FastScalarLayout.detect_of_canonical hd hid
    exact ⟨l, hl, fun _ _ hvalue hknown => scalar_agrees hd hl hvalue hknown⟩
  · obtain ⟨l, hl⟩ := FastArrayLayout.detect_of_canonical hd hid
    exact ⟨l, hl, fun _ _ hvalue hknown => array_agrees hd hl hvalue hknown⟩
  · obtain ⟨l, hl⟩ := FastEnumLayout.detect_of_canonical hd hid
    exact ⟨l, hl, fun _ _ hvalue hknown => enum_agrees hd hl hvalue hknown⟩

theorem fastPath_eq_generic_ntScalar :
    ∃ l, FastScalarLayout.detect (ntScalar .double) = some l ∧
      AgreesWithGeneric (l.decode (.fromBits [1, 3, 7])) ScalarVars.ofValue (.fromBits [1, 3, 7])
        (ntScalar .double) := by
  obtain ⟨l, hl, h⟩ := (fastPath_eq_generic (ntScalar .double)).1 (by decide +kernel) (canonical_ntScalar _)
  obtain ⟨_, _, _, _, heq⟩ := FastScalarLayout.detect_eq_some hl
  have hbit : l.valueBit = 1 := by rw [heq]
  have hmax : l.maxKnownBit = 9 := by rw [heq]
  exact ⟨l, hl, h _ (by decide) (by rw [hbit]; decide) (by rw [hmax]; decide +kernel)⟩

end AuraEpics.Session

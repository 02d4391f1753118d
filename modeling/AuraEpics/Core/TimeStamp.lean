import AuraEpics.Core.Normative

/-!
# Nanoseconds since the epoch

Model of the conversions of `TimeStamp` (`crates/aura-core/src/pva/time.rs`, lines 31-38 and
69-91). `i128` nanoseconds are `ℤ`: seconds of 64 bits times `10^9` stay far below `2^127`. The
negation of an `i64` wraps, as it does without overflow checks.

`/` and `%` go towards zero and `from_system_time` counts the nanoseconds of a time before the
epoch backwards, so both conversions are right from the epoch on and, before it, for whole
seconds.

Result: `nanos_inverse_iff`.
-/

namespace AuraEpics.Core

/-- Nanoseconds of a second. -/
def nanosPerSec : ℤ := 1000000000

/-! ## System time -/

/-- `std::time::Duration`. -/
structure Duration where
  secs : ℕ
  subsecNanos : ℕ
  deriving DecidableEq, Repr

/-- The duration of `n` nanoseconds. -/
def Duration.ofNanos (n : ℕ) : Duration := ⟨n / 1000000000, n % 1000000000⟩

/-- `std::time::SystemTime`: seconds since the epoch, negative before it, and the nanoseconds
    after that second. -/
structure SystemTime where
  seconds : ℤ
  nanos : ℕ
  nanos_lt : nanos < 1000000000

namespace SystemTime

/-- The signed distance from the epoch. -/
def nanosSinceEpoch (st : SystemTime) : ℤ := st.seconds * nanosPerSec + st.nanos

/-- `st.duration_since(UNIX_EPOCH)`: for a time before the epoch the error holds how long
    before. -/
def durationSinceEpoch (st : SystemTime) : Except Duration Duration :=
  if 0 ≤ st.nanosSinceEpoch then .ok (.ofNanos st.nanosSinceEpoch.toNat)
  else .error (.ofNanos (-st.nanosSinceEpoch).toNat)

end SystemTime

namespace TimeStamp

/-- `TimeStamp::new` (lines 31-38). -/
def new (seconds : Int64) (nanoseconds : UInt32) : TimeStamp := ⟨seconds, nanoseconds, 0⟩

/-- `TimeStamp::from_system_time` (lines 69-77). -/
def fromSystemTime (st : SystemTime) : TimeStamp :=
  match st.durationSinceEpoch with
  | .ok d => new (.ofNat d.secs) (.ofNat d.subsecNanos)
  | .error d => new (-.ofNat d.secs) (.ofNat d.subsecNanos)

/-- `TimeStamp::as_nanos` (lines 81-83). -/
def asNanos (ts : TimeStamp) : ℤ := ts.seconds.toInt * nanosPerSec + ts.nanoseconds.toNat

/-- `TimeStamp::from_nanos` (lines 86-90): `/` and `%` truncate, `as i64` and `as u32` keep the
    low bits. -/
def fromNanos (nanos : ℤ) : TimeStamp :=
  new (.ofInt (nanos.tdiv nanosPerSec)) (.ofInt (nanos.tmod nanosPerSec))

/-! ## Out and back -/

theorem tdiv_nanos {s : ℤ} {f : ℕ} (hf : f < 1000000000) :
    (s * nanosPerSec + f).tdiv nanosPerSec = if 0 ≤ s ∨ f = 0 then s else s + 1 := by
  unfold nanosPerSec
  have hsign : Int.sign 1000000000 = 1 := rfl
  rw [Int.tdiv_eq_ediv, hsign]
  split_ifs <;> omega

theorem tmod_nanos {s : ℤ} {f : ℕ} (hf : f < 1000000000) (h : 0 ≤ s ∨ f = 0) :
    (s * nanosPerSec + f).tmod nanosPerSec = f := by
  unfold nanosPerSec
  have habs : Int.natAbs 1000000000 = 1000000000 := rfl
  rw [Int.tmod_eq_emod, habs]
  split_ifs <;> omega

/-- One second after a negative number of seconds is another number of seconds. -/
theorem ofInt_succ_ne {s : Int64} (h : s.toInt < 0) : Int64.ofInt (s.toInt + 1) ≠ s := by
  intro heq
  have hlow := s.le_toInt
  have hint : (Int64.ofInt (s.toInt + 1)).toInt = s.toInt + 1 :=
    Int64.toInt_ofInt_of_le (by omega) (by omega)
  rw [heq] at hint
  omega

theorem fromNanos_asNanos_iff {ts : TimeStamp} (hnanos : ts.nanoseconds.toNat < 1000000000)
    (htag : ts.userTag = 0) :
    fromNanos ts.asNanos = ts ↔ 0 ≤ ts.seconds.toInt ∨ ts.nanoseconds.toNat = 0 := by
  obtain ⟨seconds, nanoseconds, userTag⟩ := ts
  dsimp only at hnanos htag ⊢
  subst htag
  unfold fromNanos asNanos
  dsimp only
  rw [tdiv_nanos hnanos]
  constructor
  · intro heq
    by_contra hneg
    rw [if_neg hneg] at heq
    exact ofInt_succ_ne (by omega) (congrArg TimeStamp.seconds heq)
  · intro h
    have hback : UInt32.ofInt (nanoseconds.toNat : ℤ) = nanoseconds := by
      have hlow : ((nanoseconds.toNat : ℤ) % 2 ^ 32).toNat = nanoseconds.toNat := by omega
      rw [UInt32.ofInt, hlow, UInt32.ofNat_toNat]
    rw [if_pos h, tmod_nanos hnanos h, Int64.ofInt_toInt, hback]
    rfl

/-! ## From the system clock -/

/-- What a time stamp of so many seconds and nanoseconds stands for. -/
theorem asNanos_new (s : Int64) {f : ℕ} (hf : f < 1000000000) :
    (new s (.ofNat f)).asNanos = s.toInt * nanosPerSec + f := by
  unfold asNanos new
  dsimp only
  rw [UInt32.toNat_ofNat_of_lt' (show f < 2 ^ 32 by omega)]

theorem asNanos_fromSystemTime_iff {st : SystemTime} (hlow : -2 ^ 63 ≤ st.seconds)
    (hhigh : st.seconds < 2 ^ 63) :
    (fromSystemTime st).asNanos = st.nanosSinceEpoch ↔ 0 ≤ st.seconds ∨ st.nanos = 0 := by
  have hlt := st.nanos_lt
  have hn : st.nanosSinceEpoch = st.seconds * 1000000000 + st.nanos := rfl
  unfold fromSystemTime SystemTime.durationSinceEpoch
  by_cases hpos : 0 ≤ st.nanosSinceEpoch
  · rw [if_pos hpos]
    dsimp only [Duration.ofNanos]
    rw [asNanos_new _ (Nat.mod_lt _ (by decide)), Int64.toInt_ofNat_of_lt (by omega)]
    unfold nanosPerSec
    omega
  · rw [if_neg hpos]
    dsimp only [Duration.ofNanos]
    rw [asNanos_new _ (Nat.mod_lt _ (by decide)), Int64.toInt_neg_ofNat_of_le (by omega)]
    unfold nanosPerSec
    omega

/-- **Main theorem**: to nanoseconds and back, and from the system clock to nanoseconds, a time
    is kept exactly if it is not before the epoch or is a whole second. -/
theorem nanos_inverse_iff (ts : TimeStamp) (hnanos : ts.nanoseconds.toNat < 1000000000)
    (htag : ts.userTag = 0) (st : SystemTime) (hlow : -2 ^ 63 ≤ st.seconds)
    (hhigh : st.seconds < 2 ^ 63) :
    (fromNanos ts.asNanos = ts ↔ 0 ≤ ts.seconds.toInt ∨ ts.nanoseconds.toNat = 0) ∧
      ((fromSystemTime st).asNanos = st.nanosSinceEpoch ↔ 0 ≤ st.seconds ∨ st.nanos = 0) :=
  ⟨fromNanos_asNanos_iff hnanos htag, asNanos_fromSystemTime_iff hlow hhigh⟩

/-- A second and a half before the epoch is kept by neither conversion. -/
theorem nanos_inverse_iff_beforeEpoch :
    (fromNanos (asNanos ⟨-2, 500000000, 0⟩) = ⟨-2, 500000000, 0⟩ ↔
      0 ≤ (-2 : Int64).toInt ∨ (500000000 : UInt32).toNat = 0) ∧
    ((fromSystemTime ⟨-2, 500000000, by decide⟩).asNanos =
      (⟨-2, 500000000, by decide⟩ : SystemTime).nanosSinceEpoch ↔
        (0 : ℤ) ≤ -2 ∨ (500000000 : ℕ) = 0) :=
  nanos_inverse_iff ⟨-2, 500000000, 0⟩ (by decide) rfl ⟨-2, 500000000, by decide⟩ (by decide)
    (by decide)

/-- The time stamp half a second before the epoch comes back as 3794967296 nanoseconds after it. -/
theorem nanos_notInverse :
    ¬((∀ ts : TimeStamp, ts.nanoseconds.toNat < 1000000000 → ts.userTag = 0 →
        fromNanos ts.asNanos = ts) ∧
      ∀ st : SystemTime, -2 ^ 63 ≤ st.seconds → st.seconds < 2 ^ 63 →
        (fromSystemTime st).asNanos = st.nanosSinceEpoch) := by
  rintro ⟨h, -⟩
  have heq := h ⟨-1, 500000000, 0⟩ (by decide) rfl
  have hne : fromNanos (asNanos ⟨-1, 500000000, 0⟩) ≠ ⟨-1, 500000000, 0⟩ := by decide +kernel
  exact hne heq

end TimeStamp

end AuraEpics.Core

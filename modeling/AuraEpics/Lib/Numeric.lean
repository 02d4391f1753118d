import Mathlib

/-!
# Fixed-width integers and IEEE 754 bit patterns

Byte strings as unsigned integers in either byte order, and binary32/binary64
values as bit patterns with the conversions a machine performs between them and
integers. Nothing here depends on a particular program.

Conversions follow IEEE 754: an integer that is not representable is rounded to
the nearest value, ties to even; binary32 widens exactly; truncation to an
integer saturates and sends NaN to zero.
-/

namespace Numeric

/-- The number whose base-256 digits, least significant first, are `bs`. -/
def leNat (bs : List UInt8) : ℕ := Nat.ofDigits 256 (bs.map UInt8.toNat)

/-- The number whose base-256 digits, most significant first, are `bs`. -/
def beNat (bs : List UInt8) : ℕ := leNat bs.reverse

/-- The `w` low base-256 digits of `n`, least significant first. -/
def leBytes : ℕ → ℕ → List UInt8
  | 0, _ => []
  | w + 1, n => UInt8.ofNat n :: leBytes w (n / 256)

/-- The `w` low base-256 digits of `n`, most significant first. -/
def beBytes (w n : ℕ) : List UInt8 := (leBytes w n).reverse

@[simp] theorem length_leBytes (w n : ℕ) : (leBytes w n).length = w := by
  induction w generalizing n with
  | zero => rfl
  | succ w ih => simp [leBytes, ih]

@[simp] theorem length_beBytes (w n : ℕ) : (beBytes w n).length = w := by simp [beBytes]

theorem leNat_leBytes (w n : ℕ) : leNat (leBytes w n) = n % 256 ^ w := by
  induction w generalizing n with
  | zero => simp [leBytes, leNat, Nat.mod_one]
  | succ w ih =>
    have hcons : leNat (leBytes (w + 1) n) = n % 256 + 256 * leNat (leBytes w (n / 256)) := by
      simp [leBytes, leNat, Nat.ofDigits_cons]
    rw [hcons, ih, Nat.pow_succ', Nat.mod_mul]

theorem beNat_beBytes (w n : ℕ) : beNat (beBytes w n) = n % 256 ^ w := by
  rw [beNat, beBytes, List.reverse_reverse, leNat_leBytes]

/-- A binary32 value as its bit pattern. -/
structure Binary32 where
  bits : UInt32
  deriving DecidableEq, Repr

/-- A binary64 value as its bit pattern. -/
structure Binary64 where
  bits : UInt64
  deriving DecidableEq, Repr

namespace Binary32

/-- The bits below the sign. -/
def magnitude (x : Binary32) : ℕ := x.bits.toNat % 2 ^ 31

/-- The sign bit. -/
def negative (x : Binary32) : Bool := 2 ^ 31 ≤ x.bits.toNat

/-- Infinities are not NaN. -/
def isNaN (x : Binary32) : Bool := 255 * 2 ^ 23 < x.magnitude

/-- `x < 0`. -/
def ltZero (x : Binary32) : Bool := !x.isNaN && x.negative && x.magnitude != 0

/-- `x ≤ 0`. -/
def leZero (x : Binary32) : Bool := !x.isNaN && (x.negative || x.magnitude == 0)

/-- `0 < x`. -/
def gtZero (x : Binary32) : Bool := !x.isNaN && !x.negative && x.magnitude != 0

theorem leZero_of_gtZero {x : Binary32} (h : x.gtZero = true) : x.leZero = false := by
  unfold gtZero at h
  unfold leZero
  simp only [Bool.and_eq_true, Bool.not_eq_true', bne_iff_ne] at h
  simp [h.1.2, h.2]

/-- The value of a finite binary32. -/
def toRat (x : Binary32) : Option ℚ :=
  let e := x.bits.toNat / 2 ^ 23 % 2 ^ 8
  let f := x.bits.toNat % 2 ^ 23
  if e = 255 then none
  else
    let mag : ℚ := ((if e = 0 then f * 2 else (2 ^ 23 + f) * 2 ^ e : ℕ) : ℚ) / 2 ^ 150
    some (if x.negative then -mag else mag)

/-- The integer nearest to `x`, ties to the even one. -/
def roundEven (x : ℚ) : ℤ :=
  let n := x.floor
  let r := x - n
  if 1 / 2 < r ∨ (r = 1 / 2 ∧ n % 2 = 1) then n + 1 else n

/-- The exponent of the leading bit of a positive number. -/
def leadingExponent (q : ℚ) : ℤ :=
  let e : ℤ := (Nat.log2 q.num.natAbs : ℤ) - Nat.log2 q.den
  if (2 : ℚ) ^ e ≤ q then e else e - 1

/-- The binary32 value nearest to `q`, ties to even, for zero and the range of normal numbers:
    a significand of 24 bits. -/
def nearest (q : ℚ) : ℚ :=
  if q ≤ 0 then 0
  else
    let ulp : ℚ := 2 ^ (leadingExponent q - 23)
    roundEven (q / ulp) * ulp

/-- `s < x`: every number is below infinity, none below NaN. -/
def below (s : ℚ) (x : Binary32) : Bool :=
  match x.toRat with
  | some q => s < q
  | none => !x.isNaN && !x.negative

theorem below_mono {s s' : ℚ} (hle : s ≤ s') {x : Binary32} (h : x.below s = false) :
    x.below s' = false := by
  unfold below at h ⊢
  cases hrat : x.toRat with
  | none =>
    rw [hrat] at h
    exact h
  | some q =>
    rw [hrat] at h
    have hq : ¬s < q := of_decide_eq_false h
    exact decide_eq_false fun hlt => hq (hle.trans_lt hlt)

end Binary32

namespace Binary64

/-- Positive zero. -/
def zero : Binary64 := ⟨0⟩

/-- One. -/
def one : Binary64 := ⟨0x3FF0000000000000⟩

/-- The quiet NaN. -/
def nan : Binary64 := ⟨0x7FF8000000000000⟩

/-- `0 < x`. -/
def gtZero (x : Binary64) : Bool := 0 < x.bits.toNat && x.bits.toNat ≤ 2047 * 2 ^ 52

/-- The bits below the sign. -/
def magnitude (x : Binary64) : ℕ := x.bits.toNat % 2 ^ 63

/-- Infinities are not NaN. -/
def isNaN (x : Binary64) : Bool := 2047 * 2 ^ 52 < x.magnitude

/-- `x == y`: the zeros are equal, and a NaN is equal to nothing. -/
def ieeeEq (x y : Binary64) : Bool :=
  !x.isNaN && !y.isNaN && (x == y || (x.magnitude == 0 && y.magnitude == 0))

theorem ieeeEq_refl {x : Binary64} (h : x.isNaN = false) : x.ieeeEq x = true := by
  simp [ieeeEq, h]

/-- Neither a NaN nor an infinity. -/
def isFinite (x : Binary64) : Bool := x.bits.toNat / 2 ^ 52 % 2 ^ 11 != 2047

/-- The bit pattern of the binary64 nearest to `m`, ties to even, for `m`
    below the overflow threshold. A carry out of the significand runs into the
    exponent field, which is the rounding wanted. -/
def natBits (m : ℕ) : ℕ :=
  if m = 0 then 0
  else
    let e := Nat.log2 m
    if e ≤ 52 then (e + 1023) * 2 ^ 52 + (m * 2 ^ (52 - e) - 2 ^ 52)
    else
      let s := e - 52
      let q := m / 2 ^ s
      let r := m % 2 ^ s
      let up := 2 ^ (s - 1) < r ∨ (r = 2 ^ (s - 1) ∧ q % 2 = 1)
      (e + 1023) * 2 ^ 52 + ((if up then q + 1 else q) - 2 ^ 52)

/-- The binary64 nearest to the integer `n`. -/
def ofInt (n : ℤ) : Binary64 :=
  ⟨UInt64.ofNat ((if n < 0 then 2 ^ 63 else 0) + natBits n.natAbs)⟩

/-- Numerals, rounded as the integer is. -/
instance instOfNat (n : ℕ) : OfNat Binary64 n := ⟨ofInt n⟩

/-- The exact widening of a binary32; a NaN becomes quiet. -/
def ofBinary32 (x : Binary32) : Binary64 :=
  let b := x.bits.toNat
  let sign := b / 2 ^ 31 * 2 ^ 63
  let e := b / 2 ^ 23 % 2 ^ 8
  let f := b % 2 ^ 23
  if e = 255 then
    ⟨UInt64.ofNat (sign + 2047 * 2 ^ 52 + (if f = 0 then 0 else (f * 2 ^ 29) ||| 2 ^ 51))⟩
  else if e = 0 then
    if f = 0 then ⟨UInt64.ofNat sign⟩
    else
      let k := Nat.log2 f
      ⟨UInt64.ofNat (sign + (k + 874) * 2 ^ 52 + (f - 2 ^ k) * 2 ^ (52 - k))⟩
  else ⟨UInt64.ofNat (sign + (e + 896) * 2 ^ 52 + f * 2 ^ 29)⟩

/-- `m / 2 ^ s` rounded to the nearest integer, ties to even, for `0 < s`. -/
def roundShift (m s : ℕ) : ℕ :=
  let q := m / 2 ^ s
  let r := m % 2 ^ s
  if 2 ^ (s - 1) < r ∨ (r = 2 ^ (s - 1) ∧ q % 2 = 1) then q + 1 else q

/-- The binary32 nearest to `x`, ties to even; a NaN becomes quiet. As in `natBits` a carry
    out of the significand runs into the exponent field. -/
def toBinary32 (x : Binary64) : Binary32 :=
  let b := x.bits.toNat
  let sign := b / 2 ^ 63 * 2 ^ 31
  let e := b / 2 ^ 52 % 2 ^ 11
  let f := b % 2 ^ 52
  if e = 2047 then
    ⟨UInt32.ofNat (sign + 255 * 2 ^ 23 + (if f = 0 then 0 else (f / 2 ^ 29) ||| 2 ^ 22))⟩
  else if 1151 ≤ e then ⟨UInt32.ofNat (sign + 255 * 2 ^ 23)⟩
  else if 897 ≤ e then
    ⟨UInt32.ofNat (sign + (e - 896) * 2 ^ 23 + (roundShift (2 ^ 52 + f) 29 - 2 ^ 23))⟩
  else if e = 0 then ⟨UInt32.ofNat sign⟩
  else ⟨UInt32.ofNat (sign + roundShift (2 ^ 52 + f) (926 - e))⟩

theorem roundShift_le (m s : ℕ) : roundShift m s ≤ m / 2 ^ s + 1 := by
  unfold roundShift
  dsimp only
  split_ifs <;> omega

/-- The narrowing as sign and magnitude. -/
theorem toBinary32_eq (x : Binary64) : ∃ mag < 2 ^ 31,
    x.toBinary32 = ⟨UInt32.ofNat (x.bits.toNat / 2 ^ 63 * 2 ^ 31 + mag)⟩ ∧
      (2047 * 2 ^ 52 < x.bits.toNat % 2 ^ 63 → 255 * 2 ^ 23 < mag) ∧
      (x.bits.toNat % 2 ^ 63 = 0 → mag = 0) := by
  have hb : x.bits.toNat < 2 ^ 64 := x.bits.toNat_lt
  unfold toBinary32
  generalize x.bits.toNat = b at hb ⊢
  dsimp only
  split_ifs with hspecial hfraction hoverflow hnormal hzero
  · exact ⟨255 * 2 ^ 23, by omega, by rw [Nat.add_zero], by omega, by omega⟩
  · -- the quiet bit keeps the fraction of a NaN from becoming zero
    have hquiet : 2 ^ 22 ≤ b % 2 ^ 52 / 2 ^ 29 ||| 2 ^ 22 := Nat.right_le_or
    have hlt : b % 2 ^ 52 / 2 ^ 29 ||| 2 ^ 22 < 2 ^ 23 := Nat.or_lt_two_pow (by omega) (by omega)
    refine ⟨255 * 2 ^ 23 + (b % 2 ^ 52 / 2 ^ 29 ||| 2 ^ 22), by omega, ?_, by omega, by omega⟩
    rw [Nat.add_assoc]
  · exact ⟨255 * 2 ^ 23, by omega, rfl, by omega, by omega⟩
  · have hround := roundShift_le (2 ^ 52 + b % 2 ^ 52) 29
    refine ⟨(b / 2 ^ 52 % 2 ^ 11 - 896) * 2 ^ 23 + (roundShift (2 ^ 52 + b % 2 ^ 52) 29 - 2 ^ 23),
      by omega, ?_, by omega, by omega⟩
    rw [Nat.add_assoc]
  · exact ⟨0, by omega, by rw [Nat.add_zero], by omega, fun _ => rfl⟩
  · have hshift : 30 ≤ 926 - b / 2 ^ 52 % 2 ^ 11 := by omega
    have hround := roundShift_le (2 ^ 52 + b % 2 ^ 52) (926 - b / 2 ^ 52 % 2 ^ 11)
    generalize 926 - b / 2 ^ 52 % 2 ^ 11 = shift at hround hshift ⊢
    have hpow : 2 ^ 30 ≤ 2 ^ shift := Nat.pow_le_pow_right (by decide) hshift
    have hdiv : (2 ^ 52 + b % 2 ^ 52) / 2 ^ shift ≤ (2 ^ 52 + b % 2 ^ 52) / 2 ^ 30 :=
      Nat.div_le_div_left hpow (Nat.two_pow_pos 30)
    generalize roundShift (2 ^ 52 + b % 2 ^ 52) shift = mag at hround ⊢
    exact ⟨mag, by omega, rfl, by omega, by omega⟩

/-- Only a positive number narrows to a positive one. -/
theorem gtZero_of_toBinary32 {x : Binary64} (h : x.toBinary32.gtZero = true) :
    x.gtZero = true := by
  obtain ⟨mag, hmag, heq, hnan, hzero⟩ := x.toBinary32_eq
  have hb : x.bits.toNat < 2 ^ 64 := x.bits.toNat_lt
  rw [heq] at h
  unfold Binary32.gtZero Binary32.isNaN Binary32.negative Binary32.magnitude at h
  rw [UInt32.toNat_ofNat_of_lt' (by unfold UInt32.size; omega)] at h
  unfold gtZero
  simp only [Bool.and_eq_true, Bool.not_eq_true', decide_eq_true_eq, decide_eq_false_iff_not,
    bne_iff_ne] at h ⊢
  omega

/-- Truncation towards zero into `[lo, hi]`: infinities and values outside the
    range saturate, NaN gives zero. -/
def truncSat (lo hi : ℤ) (x : Binary64) : ℤ :=
  let b := x.bits.toNat
  let neg := b / 2 ^ 63 = 1
  let e := b / 2 ^ 52 % 2 ^ 11
  let f := b % 2 ^ 52
  if e = 2047 then if f ≠ 0 then 0 else if neg then lo else hi
  else
    let m := if e = 0 then f else 2 ^ 52 + f
    let mag : ℕ := if 1075 ≤ e then m * 2 ^ (e - 1075) else m / 2 ^ (1075 - e)
    let n : ℤ := if neg then -mag else mag
    max lo (min hi n)

example : ofInt 1 = one := by decide +kernel

example : ofInt (-3) = ⟨0xC008000000000000⟩ := by decide +kernel

example : truncSat (-(2 ^ 63)) (2 ^ 63 - 1) ⟨0xC008000000000000⟩ = -3 := by decide +kernel

end Binary64

end Numeric

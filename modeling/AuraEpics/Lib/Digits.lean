import AuraEpics.Lib.Numeric

/-!
# Numbers as lists of digits

Two ways to cut a number into pieces: words of `k` bits, and the bytes it takes without leading
zeros. A number is the same whichever pieces it is read from, so a change of pieces is proved
on the number.

Results:
* `testBit_ofDigits`, a bit of the number is a bit of one digit;
* `ofDigits_set`, writing a digit that was zero;
* `eq_minBytes`, `minBytes_leNat`: the shortest bytes of a number are its only bytes that do not
  end in zero, and dropping the zero bytes at the end leads to them.
-/

namespace Numeric

/-! ## Digits -/

theorem ofDigits_eq_zero {b : ℕ} {l : List ℕ} (h : ∀ k, l.getD k 0 = 0) : Nat.ofDigits b l = 0 := by
  induction l with
  | nil => rfl
  | cons x l ih =>
    have hx : x = 0 := h 0
    have hl := ih fun k => h (k + 1)
    rw [Nat.ofDigits_cons, hx, hl]
    rfl

/-- Zeros at the end do not count. -/
theorem ofDigits_congr {b : ℕ} {l l' : List ℕ} (h : ∀ k, l.getD k 0 = l'.getD k 0) :
    Nat.ofDigits b l = Nat.ofDigits b l' := by
  induction l generalizing l' with
  | nil =>
    rw [ofDigits_eq_zero fun k => (h k).symm]
    rfl
  | cons x l ih =>
    cases l' with
    | nil => exact ofDigits_eq_zero h
    | cons x' l' =>
      have hx : x = x' := h 0
      have hl := ih fun k => h (k + 1)
      rw [Nat.ofDigits_cons, Nat.ofDigits_cons, hx, hl]

theorem ofDigits_set {b : ℕ} {l : List ℕ} {k : ℕ} (hk : k < l.length) (hzero : l.getD k 0 = 0)
    (x : ℕ) : Nat.ofDigits b (l.set k x) = Nat.ofDigits b l + b ^ k * x := by
  induction l generalizing k with
  | nil => simp at hk
  | cons y l ih =>
    cases k with
    | zero =>
      have hy : y = 0 := hzero
      rw [List.set_cons_zero, Nat.ofDigits_cons, Nat.ofDigits_cons, hy]
      ring
    | succ k =>
      have hl := ih (Nat.lt_of_succ_lt_succ hk) hzero
      rw [List.set_cons_succ, Nat.ofDigits_cons, Nat.ofDigits_cons, hl]
      ring

/-- A bit of a number is a bit of one of its `k`-bit digits. -/
theorem testBit_ofDigits {k : ℕ} (hk : 0 < k) {l : List ℕ} (hl : ∀ x ∈ l, x < 2 ^ k) (i : ℕ) :
    (Nat.ofDigits (2 ^ k) l).testBit i = (l.getD (i / k) 0).testBit (i % k) := by
  induction l generalizing i with
  | nil => simp
  | cons x l ih =>
    have hx : x < 2 ^ k := hl x List.mem_cons_self
    have hrest := ih fun y hy => hl y (List.mem_cons_of_mem x hy)
    rw [Nat.ofDigits_cons, Nat.add_comm, Nat.testBit_two_pow_mul_add _ hx]
    by_cases hi : i < k
    · rw [if_pos hi, Nat.div_eq_of_lt hi, Nat.mod_eq_of_lt hi]
      rfl
    · have hle : k ≤ i := Nat.le_of_not_lt hi
      have hdiv : i / k = (i - k) / k + 1 := Nat.div_eq_sub_div hk hle
      have hmod : i % k = (i - k) % k := Nat.mod_eq_sub_mod hle
      rw [if_neg hi, hrest, hdiv, hmod]
      rfl

/-! ## Bytes -/

theorem leNat_append (bs cs : List UInt8) :
    leNat (bs ++ cs) = leNat bs + 256 ^ bs.length * leNat cs := by
  unfold leNat
  rw [List.map_append, Nat.ofDigits_append, List.length_map]

theorem leNat_singleton (b : UInt8) : leNat [b] = b.toNat := by
  simp [leNat]

theorem leNat_lt (bs : List UInt8) : leNat bs < 256 ^ bs.length := by
  have h := Nat.ofDigits_lt_base_pow_length (b := 256) (l := bs.map UInt8.toNat) (by decide) (by
    intro x hx
    obtain ⟨b, -, rfl⟩ := List.mem_map.1 hx
    exact b.toNat_lt)
  rwa [List.length_map] at h

theorem eq_of_leNat_eq {bs cs : List UInt8} (hlen : bs.length = cs.length)
    (h : leNat bs = leNat cs) : bs = cs := by
  have hbyte : ∀ l : List UInt8, ∀ x ∈ l.map UInt8.toNat, x < 256 := by
    intro l x hx
    obtain ⟨b, -, rfl⟩ := List.mem_map.1 hx
    exact b.toNat_lt
  have hmap : bs.map UInt8.toNat = cs.map UInt8.toNat :=
    Nat.ofDigits_inj_of_len_eq (by decide) (by rw [List.length_map, List.length_map, hlen])
      (hbyte bs) (hbyte cs) h
  exact List.map_injective_iff.2 (fun _ _ => UInt8.toNat_inj.1) hmap

theorem leBytes_eq_map (w n : ℕ) :
    leBytes w n = (List.range w).map fun i => UInt8.ofNat (n / 256 ^ i) := by
  induction w generalizing n with
  | zero => rfl
  | succ w ih =>
    rw [leBytes, ih, List.range_succ_eq_map, List.map_cons, List.map_map]
    refine congrArg₂ List.cons (by simp) (List.map_congr_left fun i _ => ?_)
    rw [Function.comp_apply, Nat.div_div_eq_div_mul, ← Nat.pow_succ']

/-- Numbers below `256 ^ w` written one after another are one number in that base. -/
theorem leNat_flatMap_leBytes {w : ℕ} (f : ℕ → ℕ) (hf : ∀ i, f i < 256 ^ w) (m : ℕ) :
    leNat ((List.range m).flatMap fun i => leBytes w (f i)) =
      Nat.ofDigits (256 ^ w) ((List.range m).map f) := by
  induction m with
  | zero => rfl
  | succ m ih =>
    have hlen : ((List.range m).flatMap fun i => leBytes w (f i)).length = w * m := by
      rw [List.length_flatMap]
      simp [Nat.mul_comm]
    rw [List.range_succ, List.flatMap_append, List.map_append, leNat_append, ih, hlen,
      Nat.ofDigits_append, List.length_map, List.length_range, ← Nat.pow_mul]
    simp [leNat_leBytes, Nat.mod_eq_of_lt (hf m)]

/-! ## The bytes a number takes -/

/-- The bytes of `n`, least significant first, with no zero at the end. -/
def minBytes (n : ℕ) : List UInt8 := (Nat.digits 256 n).map UInt8.ofNat

theorem leNat_minBytes (n : ℕ) : leNat (minBytes n) = n := by
  have hdigits : (minBytes n).map UInt8.toNat = Nat.digits 256 n := by
    unfold minBytes
    rw [List.map_map]
    refine (List.map_congr_left fun d hd => ?_).trans (List.map_id _)
    exact UInt8.toNat_ofNat_of_lt (Nat.digits_lt_base (by decide) hd)
  rw [leNat, hdigits, Nat.ofDigits_digits]

theorem length_minBytes_le {n k : ℕ} : (minBytes n).length ≤ k ↔ n < 256 ^ k := by
  rw [minBytes, List.length_map]
  exact Nat.digits_length_le_iff (by decide) n

theorem lt_length_minBytes {n k : ℕ} : k < (minBytes n).length ↔ 256 ^ k ≤ n := by
  rw [← Nat.not_le, length_minBytes_le, Nat.not_lt]

/-- Bytes that do not end in zero are the shortest ones of their number. -/
theorem eq_minBytes {bs : List UInt8} {n : ℕ} (h : leNat bs = n)
    (htop : bs ≠ [] → 256 ^ (bs.length - 1) ≤ n) : bs = minBytes n := by
  refine eq_of_leNat_eq ?_ (h.trans (leNat_minBytes n).symm)
  refine Nat.le_antisymm ?_ ?_
  · by_cases hnil : bs = []
    · rw [hnil]
      exact Nat.zero_le _
    · have hlast := lt_length_minBytes.2 (htop hnil)
      omega
  · rw [length_minBytes_le, ← h]
    exact leNat_lt bs

/-- Bytes without the zeros at their end. -/
def trim (bs : List UInt8) : List UInt8 := bs.rdropWhile (· = 0)

theorem leNat_trim (bs : List UInt8) : leNat (trim bs) = leNat bs := by
  induction bs using List.reverseRecOn with
  | nil => rfl
  | append_singleton bs b ih =>
    unfold trim at ih ⊢
    rw [List.rdropWhile_concat]
    by_cases hb : b = 0
    · rw [if_pos (by simpa using hb), ih, leNat_append, leNat_singleton, hb]
      simp
    · rw [if_neg (by simpa using hb)]

theorem getLast_trim {bs : List UInt8} (hne : trim bs ≠ []) : (trim bs).getLast hne ≠ 0 := by
  have h := List.rdropWhile_last_not (fun b : UInt8 => decide (b = 0)) bs hne
  intro hzero
  exact h (decide_eq_true hzero)

theorem minBytes_leNat (bs : List UInt8) : minBytes (leNat bs) = trim bs := by
  refine (eq_minBytes (leNat_trim bs) fun hne => ?_).symm
  -- the last byte is not zero, so the number reaches its place
  have hpos : 1 ≤ ((trim bs).getLast hne).toNat := by
    rw [Nat.one_le_iff_ne_zero]
    intro hzero
    exact getLast_trim hne (UInt8.toNat_inj.1 hzero)
  have hsplit : leNat bs =
      leNat (trim bs).dropLast +
        256 ^ ((trim bs).length - 1) * ((trim bs).getLast hne).toNat := by
    conv_lhs => rw [← leNat_trim, ← List.dropLast_append_getLast hne]
    rw [leNat_append, leNat_singleton, List.length_dropLast]
  calc 256 ^ ((trim bs).length - 1) = 256 ^ ((trim bs).length - 1) * 1 := (Nat.mul_one _).symm
    _ ≤ 256 ^ ((trim bs).length - 1) * ((trim bs).getLast hne).toNat :=
      Nat.mul_le_mul_left _ hpos
    _ ≤ leNat bs := by rw [hsplit]; exact Nat.le_add_left _ _

theorem getLast?_minBytes (n : ℕ) : (minBytes n).getLast? ≠ some 0 := by
  rw [← leNat_minBytes n, minBytes_leNat]
  by_cases hnil : trim (minBytes n) = []
  · rw [hnil]
    simp
  · rw [List.getLast?_eq_some_getLast hnil]
    intro hlast
    exact getLast_trim hnil (Option.some.inj hlast)

example : minBytes 0x0102 = [2, 1] := by decide +kernel

end Numeric

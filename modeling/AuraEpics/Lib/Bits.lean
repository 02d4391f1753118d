import Mathlib

/-!
# Iterating over the set bits of a word

The loop "take the number of trailing zeros, clear the lowest set bit" yields
the positions of the set bits in increasing order.

* `testBit_and_pred`: `n &&& (n - 1)` is `n` without its lowest set bit;
* `setBits_pairwise`, `mem_setBits`: the loop's list is strictly increasing and
  holds exactly the set positions. Two lists with these properties are equal
  (`List.Pairwise.eq_of_mem_iff`).
-/

namespace Bits

/-- The number of trailing zeros of the `k`-bit number `n`; `k` for zero. -/
def trailingZeros : ℕ → ℕ → ℕ
  | 0, _ => 0
  | k + 1, n => if n % 2 = 1 then 0 else trailingZeros k (n / 2) + 1

/-- The positions the loop visits in `n < 2 ^ k`, with fuel for one step a bit. -/
def setBits (k : ℕ) : ℕ → ℕ → List ℕ
  | 0, _ => []
  | fuel + 1, n =>
    if n = 0 then [] else trailingZeros k n :: setBits k fuel (n &&& (n - 1))

theorem lt_of_testBit {k n i : ℕ} (hk : n < 2 ^ k) (hi : n.testBit i = true) : i < k := by
  by_contra hge
  have h1 := Nat.ge_two_pow_of_testBit hi
  have h2 := Nat.pow_le_pow_right (n := 2) (by omega) (Nat.le_of_not_lt hge)
  omega

theorem trailingZeros_spec {k n : ℕ} (hn : n ≠ 0) (hk : n < 2 ^ k) :
    ∃ m, n = 2 ^ trailingZeros k n * (2 * m + 1) := by
  induction k generalizing n with
  | zero => omega
  | succ k ih =>
    unfold trailingZeros
    split_ifs with hodd
    · exact ⟨n / 2, by omega⟩
    · obtain ⟨m, hm⟩ := ih (n := n / 2) (by omega) (by omega)
      refine ⟨m, ?_⟩
      calc n = 2 * (n / 2) := by omega
        _ = 2 * (2 ^ trailingZeros k (n / 2) * (2 * m + 1)) := by rw [← hm]
        _ = 2 ^ (trailingZeros k (n / 2) + 1) * (2 * m + 1) := by ring

/-- Subtracting one and masking clears the lowest set bit and no other. -/
theorem testBit_and_pred {k n : ℕ} (hn : n ≠ 0) (hk : n < 2 ^ k) (i : ℕ) :
    (n &&& (n - 1)).testBit i = (n.testBit i && i ≠ trailingZeros k n) := by
  obtain ⟨m, hm⟩ := trailingZeros_spec hn hk
  generalize trailingZeros k n = t at hm ⊢
  have hpos := Nat.two_pow_pos t
  have hpred : n - 1 = 2 ^ t * (2 * m) + (2 ^ t - 1) := by rw [hm, mul_add]; omega
  rw [Nat.testBit_and, hpred, Nat.testBit_two_pow_mul_add _ (by omega), hm,
    Nat.testBit_two_pow_mul]
  by_cases hlt : i < t
  · simp [hlt]
  · obtain ⟨j, rfl⟩ := Nat.exists_eq_add_of_le (Nat.le_of_not_lt hlt)
    cases j with
    | zero => simp [Nat.testBit_zero]
    | succ j =>
      have hodd : (2 * m + 1) / 2 = m := by omega
      simp [Nat.testBit_succ, hodd]

theorem testBit_trailingZeros {k n : ℕ} (hn : n ≠ 0) (hk : n < 2 ^ k) :
    n.testBit (trailingZeros k n) = true := by
  obtain ⟨m, hm⟩ := trailingZeros_spec hn hk
  generalize trailingZeros k n = t at hm
  rw [hm, Nat.testBit_two_pow_mul]
  simp [Nat.testBit_zero]

theorem trailingZeros_le {k n i : ℕ} (hn : n ≠ 0) (hk : n < 2 ^ k) (hi : n.testBit i = true) :
    trailingZeros k n ≤ i := by
  obtain ⟨m, hm⟩ := trailingZeros_spec hn hk
  generalize trailingZeros k n = t at hm
  by_contra hlt
  rw [hm, Nat.testBit_two_pow_mul] at hi
  simp only [Bool.and_eq_true, decide_eq_true_eq] at hi
  omega

theorem and_pred_lt {k n : ℕ} (hk : n < 2 ^ k) : n &&& (n - 1) < 2 ^ k :=
  lt_of_le_of_lt Nat.and_le_left hk

theorem mem_setBits_imp {k fuel n i : ℕ} (hk : n < 2 ^ k) (h : i ∈ setBits k fuel n) :
    n.testBit i = true := by
  induction fuel generalizing n with
  | zero => simp [setBits] at h
  | succ fuel ih =>
    unfold setBits at h
    split_ifs at h with hn
    · simp at h
    · rcases List.mem_cons.mp h with rfl | h
      · exact testBit_trailingZeros hn hk
      · have := ih (and_pred_lt hk) h
        rw [testBit_and_pred hn hk] at this
        simp_all

theorem setBits_pairwise {k fuel n : ℕ} (hk : n < 2 ^ k) :
    (setBits k fuel n).Pairwise (· < ·) := by
  induction fuel generalizing n with
  | zero => exact List.Pairwise.nil
  | succ fuel ih =>
    unfold setBits
    split_ifs with hn
    · exact List.Pairwise.nil
    · refine List.Pairwise.cons ?_ (ih (and_pred_lt hk))
      intro i hi
      have hbit := mem_setBits_imp (and_pred_lt hk) hi
      rw [testBit_and_pred hn hk] at hbit
      simp only [Bool.and_eq_true, decide_eq_true_eq] at hbit
      have := trailingZeros_le hn hk hbit.1
      omega

/-- With fuel for every position from `j` on, no set bit from `j` on is missed. -/
theorem mem_setBits_of_testBit {k fuel n i : ℕ} (hk : n < 2 ^ k)
    (hlow : ∀ j, n.testBit j = true → k ≤ j + fuel) (hi : n.testBit i = true) :
    i ∈ setBits k fuel n := by
  have hn : n ≠ 0 := by rintro rfl; simp at hi
  induction fuel generalizing n with
  | zero =>
    have := lt_of_testBit hk hi
    have := hlow i hi
    omega
  | succ fuel ih =>
    unfold setBits
    rw [if_neg hn]
    by_cases heq : i = trailingZeros k n
    · subst heq; exact List.mem_cons_self
    · -- the lowest bit is gone, so what is left starts one position higher
      have hi' : (n &&& (n - 1)).testBit i = true := by
        rw [testBit_and_pred hn hk]; simp [hi, heq]
      refine List.mem_cons_of_mem _ (ih (and_pred_lt hk) ?_ hi' ?_)
      · intro j hj
        rw [testBit_and_pred hn hk] at hj
        simp only [Bool.and_eq_true, decide_eq_true_eq] at hj
        have h1 := hlow _ (testBit_trailingZeros hn hk)
        have h2 := trailingZeros_le hn hk hj.1
        omega
      · rintro h0; rw [h0] at hi'; simp at hi'

/-- The loop over a `k`-bit word visits exactly its set bits. -/
theorem mem_setBits {k n i : ℕ} (hk : n < 2 ^ k) :
    i ∈ setBits k k n ↔ n.testBit i = true :=
  ⟨mem_setBits_imp hk, mem_setBits_of_testBit hk (by omega)⟩

/-- The number of leading zeros of the `k`-bit number `n`; `k` for zero. -/
def leadingZeros (k n : ℕ) : ℕ := if n = 0 then k else k - 1 - n.log2

/-- The number of one bits of the `k`-bit number `n`. -/
def countOnes (k n : ℕ) : ℕ := ((List.range k).filter n.testBit).length

theorem setBits_eq_filter {k n : ℕ} (hk : n < 2 ^ k) :
    setBits k k n = (List.range k).filter n.testBit := by
  refine (setBits_pairwise hk).eq_of_mem_iff (List.pairwise_lt_range.filter _) fun i => ?_
  rw [mem_setBits hk, List.mem_filter, List.mem_range]
  exact ⟨fun h => ⟨lt_of_testBit hk h, h⟩, And.right⟩

theorem length_setBits {k n : ℕ} (hk : n < 2 ^ k) : (setBits k k n).length = countOnes k n := by
  rw [setBits_eq_filter hk]
  rfl

end Bits

import Mathlib.Data.List.Basic
import Mathlib.Tactic

/-!
# Cutting a list into chunks

`chunks k xs` cuts `xs` into runs of `k` elements, the last one shorter; element
`pos` of `xs` lies in chunk `pos / k`. `keepChunks` keeps the elements of the
chunks a list of flags marks, by position.
-/

namespace Chunks

variable {α : Type*}

/-- `xs` in runs of `k`; nothing when `k = 0`. -/
def chunks (k : ℕ) (xs : List α) : List (List α) :=
  if xs = [] ∨ k = 0 then [] else xs.take k :: chunks k (xs.drop k)
termination_by xs.length
decreasing_by
  rename_i h
  rw [not_or] at h
  have : 0 < xs.length := List.length_pos_of_ne_nil h.1
  rw [List.length_drop]
  omega

/-- The elements of `xs` whose chunk is marked. -/
def keepChunks (k : ℕ) (flags : List Bool) (xs : List α) : List α :=
  xs.zipIdx.filterMap fun p => if flags.getD (p.2 / k) false then some p.1 else none

@[simp] theorem chunks_nil (k : ℕ) : chunks k ([] : List α) = [] := by
  rw [chunks, if_pos (.inl rfl)]

theorem chunks_of_ne_nil {k : ℕ} {xs : List α} (hk : 0 < k) (hxs : xs ≠ []) :
    chunks k xs = xs.take k :: chunks k (xs.drop k) := by
  rw [chunks, if_neg (by rw [not_or]; exact ⟨hxs, by omega⟩)]

/-- Induction along the cut. -/
theorem chunks_induction {k : ℕ} (hk : 0 < k) {motive : List α → Prop} (nil : motive [])
    (cons : ∀ xs, xs ≠ [] → motive (xs.drop k) → motive xs) (xs : List α) : motive xs := by
  induction hn : xs.length using Nat.strong_induction_on generalizing xs with
  | _ n ih =>
    by_cases hxs : xs = []
    · exact hxs ▸ nil
    · have hpos : 0 < xs.length := List.length_pos_of_ne_nil hxs
      exact cons xs hxs (ih _ (by rw [List.length_drop]; omega) _ rfl)

theorem sum_length_chunks {k : ℕ} (hk : 0 < k) (xs : List α) :
    ((chunks k xs).map List.length).sum = xs.length := by
  induction xs using chunks_induction hk with
  | nil => simp
  | cons xs hxs ih =>
    rw [chunks_of_ne_nil hk hxs, List.map_cons, List.sum_cons, ih, List.length_take,
      List.length_drop]
    omega

theorem flatten_chunks {k : ℕ} (hk : 0 < k) (xs : List α) : (chunks k xs).flatten = xs := by
  induction xs using chunks_induction hk with
  | nil => simp
  | cons xs hxs ih =>
    rw [chunks_of_ne_nil hk hxs, List.flatten_cons, ih]
    exact List.take_append_drop k xs

theorem ne_nil_of_mem_chunks {k : ℕ} (hk : 0 < k) {xs c : List α} (h : c ∈ chunks k xs) :
    c ≠ [] := by
  induction xs using chunks_induction hk with
  | nil =>
    rw [chunks_nil] at h
    cases h
  | cons xs hxs ih =>
    rw [chunks_of_ne_nil hk hxs] at h
    rcases List.mem_cons.1 h with rfl | hrest
    · rw [Ne, List.take_eq_nil_iff, not_or]
      exact ⟨by omega, hxs⟩
    · exact ih hrest

theorem length_le_of_mem_chunks {k : ℕ} (hk : 0 < k) {xs c : List α} (h : c ∈ chunks k xs) :
    c.length ≤ k := by
  induction xs using chunks_induction hk with
  | nil =>
    rw [chunks_nil] at h
    cases h
  | cons xs hxs ih =>
    rw [chunks_of_ne_nil hk hxs] at h
    rcases List.mem_cons.1 h with rfl | hrest
    · exact List.length_take_le k xs
    · exact ih hrest

/-- The chunks are those whose first element there is. -/
theorem lt_length_chunks_iff {k : ℕ} (hk : 0 < k) (xs : List α) (i : ℕ) :
    i < (chunks k xs).length ↔ i * k < xs.length := by
  induction xs using chunks_induction hk generalizing i with
  | nil => simp
  | cons xs hxs ih =>
    have hpos : 0 < xs.length := List.length_pos_of_ne_nil hxs
    rw [chunks_of_ne_nil hk hxs, List.length_cons]
    cases i with
    | zero => simp [hpos]
    | succ i =>
      rw [Nat.succ_lt_succ_iff, ih, List.length_drop, Nat.succ_mul]
      omega

theorem length_chunks {k : ℕ} (hk : 0 < k) (xs : List α) :
    (chunks k xs).length = (xs.length + (k - 1)) / k := by
  refine Nat.le_antisymm (Nat.le_of_not_lt fun h => ?_) (Nat.le_of_not_lt fun h => ?_)
  · have hpos := (lt_length_chunks_iff hk xs _).1 h
    have hmod := Nat.mod_lt (xs.length + (k - 1)) hk
    have hdiv := Nat.div_add_mod' (xs.length + (k - 1)) k
    omega
  · have hnot := mt (lt_length_chunks_iff hk xs (chunks k xs).length).2 (Nat.lt_irrefl _)
    have hle := (Nat.le_div_iff_mul_le hk).1 (Nat.succ_le_of_lt h)
    rw [Nat.succ_mul] at hle
    omega

/-- Every position lies in one of the chunks. -/
theorem div_lt_length_chunks {k : ℕ} (hk : 0 < k) {xs : List α} {pos : ℕ} (h : pos < xs.length) :
    pos / k < (chunks k xs).length := by
  rw [lt_length_chunks_iff hk]
  exact Nat.lt_of_le_of_lt (Nat.div_mul_le_self pos k) h

@[simp] theorem keepChunks_nil (k : ℕ) (flags : List Bool) :
    keepChunks k flags ([] : List α) = [] := rfl

/-- The first flag decides about the first chunk, the others about the rest. -/
theorem keepChunks_cons {k : ℕ} (hk : 0 < k) (b : Bool) (flags : List Bool) (xs : List α) :
    keepChunks k (b :: flags) xs = (if b then xs.take k else []) ++ keepChunks k flags (xs.drop k) := by
  have hsplit : keepChunks k (b :: flags) xs =
      ((xs.take k).zipIdx.filterMap fun p => if (b :: flags).getD (p.2 / k) false then some p.1 else none) ++
      ((xs.drop k).zipIdx (xs.take k).length).filterMap
        fun p => if (b :: flags).getD (p.2 / k) false then some p.1 else none := by
    conv_lhs => rw [keepChunks, ← List.take_append_drop k xs, List.zipIdx_append, Nat.zero_add]
    rw [List.filterMap_append]
  rw [hsplit]
  congr 1
  · have hfirst : ∀ p ∈ (xs.take k).zipIdx, p.2 / k = 0 := by
      intro p hp
      have := List.snd_lt_add_of_mem_zipIdx hp
      rw [List.length_take] at this
      exact Nat.div_eq_of_lt (by omega)
    cases b with
    | true =>
      rw [List.filterMap_congr (g := fun p => some p.1)
        (fun p hp => by simp [hfirst p hp])]
      simp [List.zipIdx_map_fst]
    | false =>
      rw [List.filterMap_congr (g := fun _ => none) (fun p hp => by simp [hfirst p hp])]
      simp
  · by_cases hlen : xs.length ≤ k
    · rw [List.drop_eq_nil_of_le hlen]
      rfl
    · have htake : (xs.take k).length = k := by rw [List.length_take]; omega
      rw [htake, keepChunks, List.zipIdx_eq_map_add, List.filterMap_map]
      refine List.filterMap_congr fun p _ => ?_
      simp only [Function.comp_apply]
      rw [Nat.add_div_left _ hk, List.getD_cons_succ]

end Chunks

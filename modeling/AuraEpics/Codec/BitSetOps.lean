import AuraEpics.Codec.BitSet
import AuraEpics.Lib.Runs

/-!
# Bit sets as finite sets

The operations of `PvaBitSet` (`crates/aura-net/src/codec/bitset.rs`, lines 36-204 and 315-394)
next to finite sets of numbers. Bits of the inline words and of the overflow vector, which may
be of any length, are bits of one list of words; each operation is a change of words, and the
queries see the bits only.

* `Denotes bs s`: the bits of `bs` are the members of `s`;
* `BitOp`: the operations on a number of bit sets, and the same on finite sets.

Results:
* `isSet_clearBit`, `isSet_toggle`, `isSet_allSet`, `isSet_bitOr`, `isSet_bitAnd`;
* `Denotes.queries`, what the queries of a bit set answer;
* `run_refines`, after any operations the queries agree with the finite sets.
-/

namespace AuraEpics.Codec

namespace PvaBitSet

/-! ## Operations -/

/-- `PvaBitSet::clear_bit` (lines 129-140). -/
def clearBit (bs : PvaBitSet) (index : ℕ) : PvaBitSet :=
  let (word, mask) := wordMask index
  if index < inlineBits then
    { bs with
      inline := bs.inline.set word (bs.inline.getD word 0 &&& ~~~mask)
      inline_length := by rw [List.length_set]; exact bs.inline_length }
  else
    let ow := word - inlineWords
    if ow < bs.overflow.length then
      { bs with overflow := bs.overflow.set ow (bs.overflow.getD ow 0 &&& ~~~mask) }
    else bs

/-- `PvaBitSet::clear_all` (lines 142-147). -/
def clearAll (bs : PvaBitSet) : PvaBitSet :=
  { bs with
    inline := [0, 0]
    overflow := bs.overflow.map fun _ => 0
    inline_length := new.inline_length }

/-- `PvaBitSet::toggle` (lines 149-165). -/
def toggle (bs : PvaBitSet) (index : ℕ) : PvaBitSet :=
  let (word, mask) := wordMask index
  let bitCount := if bs.bitCount ≤ index then index + 1 else bs.bitCount
  if index < inlineBits then
    { inline := bs.inline.set word (bs.inline.getD word 0 ^^^ mask)
      overflow := bs.overflow
      bitCount := bitCount
      inline_length := by rw [List.length_set]; exact bs.inline_length }
  else
    let ow := word - inlineWords
    let overflow := if bs.overflow.length ≤ ow then resize bs.overflow (ow + 1) else bs.overflow
    { bs with
      overflow := overflow.set ow (overflow.getD ow 0 ^^^ mask)
      bitCount := bitCount }

/-- `u64::MAX`. -/
def allOnes : UInt64 := 0xFFFFFFFFFFFFFFFF

/-- `PvaBitSet::all_set` (lines 67-99). The words it writes are those `store_word` finds. -/
def allSet (n : ℕ) : PvaBitSet :=
  let bs := withCapacity n
  if n = 0 then bs
  else
    let fullWords := n / 64
    let remainder := n % 64
    let fill := fun (bs : PvaBitSet) i => bs.storeWord i allOnes
    let bs := (List.range (min fullWords inlineWords)).foldl fill bs
    let bs := (List.range' inlineWords (fullWords - inlineWords)).foldl fill bs
    if 0 < remainder then bs.storeWord fullWords (1 <<< UInt64.ofNat remainder - 1) else bs

/-- `BitOr` (lines 315-335). -/
def bitOr (a b : PvaBitSet) : PvaBitSet where
  inline := (List.range inlineWords).map fun i => a.inline.getD i 0 ||| b.inline.getD i 0
  overflow := (List.range (max a.overflow.length b.overflow.length)).map fun i =>
    a.overflow.getD i 0 ||| b.overflow.getD i 0
  bitCount := max a.bitCount b.bitCount
  inline_length := by rw [List.length_map, List.length_range]

/-- `BitAnd` (lines 337-351). -/
def bitAnd (a b : PvaBitSet) : PvaBitSet where
  inline := (List.range inlineWords).map fun i => a.inline.getD i 0 &&& b.inline.getD i 0
  overflow := (List.range (min a.overflow.length b.overflow.length)).map fun i =>
    a.overflow.getD i 0 &&& b.overflow.getD i 0
  bitCount := min a.bitCount b.bitCount
  inline_length := by rw [List.length_map, List.length_range]

/-- `PvaBitSet::count_set` (lines 167-178). -/
def countSet (bs : PvaBitSet) : ℕ :=
  (bs.inline.map fun w => Bits.countOnes 64 w.toNat).sum +
    (bs.overflow.map fun w => Bits.countOnes 64 w.toNat).sum

/-- `PvaBitSet::is_empty` (lines 180-182). -/
def isEmpty (bs : PvaBitSet) : Bool :=
  (bs.inline.all fun w => w = 0) && bs.overflow.all fun w => w = 0

/-! ## Words -/

theorem words_clearBit (bs : PvaBitSet) (i k : ℕ) :
    (bs.clearBit i).words.getD k 0 =
      if k = i / 64 then bs.words.getD k 0 &&& ~~~(wordMask i).2 else bs.words.getD k 0 := by
  have hword : (wordMask i).1 = i / 64 := rfl
  unfold clearBit
  dsimp only
  rw [hword]
  by_cases hi : i < inlineBits
  · rw [if_pos hi]
    exact words_setInline bs (lt_inlineBits_iff.1 hi) (fun w => w &&& ~~~(wordMask i).2) _ _ k
  · have hw : inlineWords ≤ i / 64 := Nat.not_lt.1 fun hw => hi (lt_inlineBits_iff.2 hw)
    rw [if_neg hi]
    by_cases hin : i / 64 - inlineWords < bs.overflow.length
    · rw [if_pos hin]
      exact words_setOverflow bs (fun _ => rfl) hw hin (fun w => w &&& ~~~(wordMask i).2) _ k
    · -- beyond the words there is no bit to clear
      have hzero : bs.words.getD (i / 64) 0 = 0 := by
        rw [getD_words, if_neg (Nat.not_lt.2 hw)]
        exact List.getD_eq_default _ _ (Nat.le_of_not_lt hin)
      rw [if_neg hin]
      by_cases hk : k = i / 64
      · rw [if_pos hk, hk, hzero, UInt64.zero_and]
      · rw [if_neg hk]

theorem toggle_eq_modifyWord (bs : PvaBitSet) (i : ℕ) :
    bs.toggle i = bs.modifyWord i fun w => w ^^^ (wordMask i).2 := rfl

theorem words_storeWord (bs : PvaBitSet) {w : ℕ} (hw : w < bs.words.length) (x : UInt64) (k : ℕ) :
    (bs.storeWord w x).words.getD k 0 = if k = w then x else bs.words.getD k 0 := by
  have hlen : bs.inline.length = inlineWords := bs.inline_length
  unfold storeWord
  by_cases hin : w < inlineWords
  · rw [if_pos hin]
    exact words_setInline bs hin (fun _ => x) _ _ k
  · have hover : w - inlineWords < bs.overflow.length := by
      simp only [words, List.length_append] at hw
      omega
    rw [if_neg hin]
    dsimp only
    rw [if_pos hover]
    exact words_setOverflow bs (fun _ => rfl) (Nat.le_of_not_lt hin) hover (fun _ => x) _ k

theorem length_words_storeWord (bs : PvaBitSet) (w : ℕ) (x : UInt64) :
    (bs.storeWord w x).words.length = bs.words.length := by
  unfold storeWord
  dsimp only
  split_ifs <;> simp [words]

/-- A loop that stores the same word under some indices. -/
theorem words_foldl_storeWord (ks : List ℕ) (x : UInt64) (bs : PvaBitSet)
    (hks : ∀ k ∈ ks, k < bs.words.length) (k : ℕ) :
    (ks.foldl (fun bs i => bs.storeWord i x) bs).words.length = bs.words.length ∧
      (ks.foldl (fun bs i => bs.storeWord i x) bs).words.getD k 0 =
        if k ∈ ks then x else bs.words.getD k 0 := by
  induction ks generalizing bs with
  | nil => exact ⟨rfl, by simp⟩
  | cons i ks ih =>
    have hlen := length_words_storeWord bs i x
    obtain ⟨hlength, hget⟩ := ih (bs.storeWord i x) fun j hj => by
      rw [hlen]
      exact hks j (List.mem_cons_of_mem i hj)
    refine ⟨hlength.trans hlen, hget.trans ?_⟩
    rw [words_storeWord bs (hks i List.mem_cons_self)]
    simp only [List.mem_cons]
    split_ifs <;> tauto

theorem length_words_withCapacity (n : ℕ) :
    n ≤ (withCapacity n).words.length * 64 := by
  unfold withCapacity words new
  dsimp only
  split_ifs with hn
  · simp only [List.length_append, List.length_replicate, List.length_cons, List.length_nil]
    simp only [inlineBits, inlineWords] at hn ⊢
    omega
  · simp only [inlineBits, inlineWords, List.append_nil, List.length_cons, List.length_nil] at hn ⊢
    omega

/-- The words of `all_set`: full ones, and what is left of the last. -/
theorem words_allSet (n k : ℕ) :
    (allSet n).words.getD k 0 =
      if k < n / 64 then allOnes
      else if k = n / 64 ∧ 0 < n % 64 then 1 <<< UInt64.ofNat (n % 64) - 1 else 0 := by
  have hcap := length_words_withCapacity n
  unfold allSet
  dsimp only
  by_cases hn : n = 0
  · subst hn
    rw [if_pos rfl, words_withCapacity]
    simp
  rw [if_neg hn]
  obtain ⟨hlen₁, hget₁⟩ := words_foldl_storeWord (List.range (min (n / 64) inlineWords)) allOnes
    (withCapacity n) (fun i hi => by rw [List.mem_range] at hi; omega) k
  generalize (List.range (min (n / 64) inlineWords)).foldl _ _ = bs₁ at hlen₁ hget₁ ⊢
  obtain ⟨hlen₂, hget₂⟩ := words_foldl_storeWord (List.range' inlineWords (n / 64 - inlineWords))
    allOnes bs₁ (fun i hi => by rw [List.mem_range'_1] at hi; omega) k
  generalize (List.range' inlineWords (n / 64 - inlineWords)).foldl _ _ = bs₂ at hlen₂ hget₂ ⊢
  -- the two loops together fill the words below `n / 64`
  have hfull : bs₂.words.getD k 0 = if k < n / 64 then allOnes else 0 := by
    rw [hget₂, hget₁, words_withCapacity]
    simp only [List.mem_range, List.mem_range'_1]
    split_ifs <;> first | rfl | omega
  by_cases hrem : 0 < n % 64
  · rw [if_pos hrem, words_storeWord bs₂ (by omega), hfull]
    split_ifs <;> first | rfl | omega
  · rw [if_neg hrem, hfull]
    split_ifs <;> first | rfl | omega

theorem getD_map_range {α : Type} (f : ℕ → α) (d : α) (n k : ℕ) :
    ((List.range n).map f).getD k d = if k < n then f k else d := by
  rw [List.getD_eq_getElem?_getD, List.getElem?_map]
  split_ifs with hk
  · rw [List.getElem?_range hk]
    rfl
  · rw [List.getElem?_eq_none (by simpa using hk)]
    rfl

theorem words_bitOr (a b : PvaBitSet) (k : ℕ) :
    (a.bitOr b).words.getD k 0 = a.words.getD k 0 ||| b.words.getD k 0 := by
  rw [getD_words, getD_words a, getD_words b]
  unfold bitOr
  dsimp only
  rw [getD_map_range, getD_map_range]
  by_cases hk : k < inlineWords
  · rw [if_pos hk, if_pos hk, if_pos hk, if_pos hk]
  · rw [if_neg hk, if_neg hk, if_neg hk]
    by_cases hover : k - inlineWords < max a.overflow.length b.overflow.length
    · rw [if_pos hover]
    · rw [if_neg hover, List.getD_eq_default a.overflow _ (by omega),
        List.getD_eq_default b.overflow _ (by omega), UInt64.or_zero]

theorem words_bitAnd (a b : PvaBitSet) (k : ℕ) :
    (a.bitAnd b).words.getD k 0 = a.words.getD k 0 &&& b.words.getD k 0 := by
  rw [getD_words, getD_words a, getD_words b]
  unfold bitAnd
  dsimp only
  rw [getD_map_range, getD_map_range]
  by_cases hk : k < inlineWords
  · rw [if_pos hk, if_pos hk, if_pos hk, if_pos hk]
  · rw [if_neg hk, if_neg hk, if_neg hk]
    by_cases hover : k - inlineWords < min a.overflow.length b.overflow.length
    · rw [if_pos hover]
    · rw [if_neg hover]
      rcases le_total a.overflow.length b.overflow.length with hle | hle
      · rw [List.getD_eq_default a.overflow _ (by omega), UInt64.zero_and]
      · rw [List.getD_eq_default b.overflow _ (by omega), UInt64.and_zero]

theorem words_clearAll (bs : PvaBitSet) (k : ℕ) : bs.clearAll.words.getD k 0 = 0 := by
  refine getD_of_all_zero (fun w hw => ?_) k
  simp only [words, clearAll, List.mem_append, List.mem_map] at hw
  rcases hw with hw | ⟨-, -, hw⟩
  · simpa using hw
  · exact hw.symm

/-! ## Bits -/

theorem testBit_not (w : UInt64) {j : ℕ} (hj : j < 64) :
    (~~~w).toNat.testBit j = !w.toNat.testBit j := by
  have hnot : (~~~w).toNat = 2 ^ 64 - (w.toNat + 1) := by
    rw [UInt64.toNat_not]
    show 2 ^ 64 - 1 - w.toNat = _
    omega
  rw [hnot, Nat.testBit_two_pow_sub_succ w.toNat_lt]
  simp [hj]

theorem isSet_clearBit (bs : PvaBitSet) (i j : ℕ) :
    (bs.clearBit i).isSet j = (bs.isSet j && !decide (j = i)) := by
  refine isSet_of_words (f := fun w => w &&& ~~~(wordMask i).2) (g := fun b c => b && !c)
    (words_clearBit bs i) (fun w j hj => ?_) Bool.and_true j
  rw [UInt64.toNat_and, Nat.testBit_and, testBit_not _ hj, testBit_mask]

theorem isSet_toggle (bs : PvaBitSet) (i j : ℕ) :
    (bs.toggle i).isSet j = (bs.isSet j ^^ decide (j = i)) := by
  rw [toggle_eq_modifyWord]
  refine isSet_of_words (words_modifyWord bs i _) (fun w j _ => ?_) Bool.xor_false j
  rw [UInt64.toNat_xor, Nat.testBit_xor, testBit_mask]

theorem isSet_clearAll (bs : PvaBitSet) (j : ℕ) : bs.clearAll.isSet j = false := by
  rw [isSet_eq_testBit, words_clearAll]
  exact Nat.zero_testBit _

theorem isSet_bitOr (a b : PvaBitSet) (j : ℕ) :
    (a.bitOr b).isSet j = (a.isSet j || b.isSet j) := by
  simp only [isSet_eq_testBit, words_bitOr, UInt64.toNat_or, Nat.testBit_or]

theorem isSet_bitAnd (a b : PvaBitSet) (j : ℕ) :
    (a.bitAnd b).isSet j = (a.isSet j && b.isSet j) := by
  simp only [isSet_eq_testBit, words_bitAnd, UInt64.toNat_and, Nat.testBit_and]

/-- The mask of the last word of `all_set`. -/
theorem toNat_lowMask {r : ℕ} (hr : r < 64) :
    (1 <<< UInt64.ofNat r - 1 : UInt64).toNat = 2 ^ r - 1 := by
  have hone : (1 : UInt64) ≤ 1 <<< UInt64.ofNat r := by
    rw [UInt64.le_iff_toNat_le, toNat_mask hr]
    exact Nat.one_le_two_pow
  rw [UInt64.toNat_sub_of_le _ _ hone, toNat_mask hr]
  rfl

theorem isSet_allSet (n j : ℕ) : (allSet n).isSet j = decide (j < n) := by
  have hones : allOnes.toNat = 2 ^ 64 - 1 := rfl
  have hmod : n % 64 < 64 := Nat.mod_lt _ (by omega)
  rw [isSet_eq_testBit, words_allSet]
  by_cases hfull : j / 64 < n / 64
  · rw [if_pos hfull, hones, Nat.testBit_two_pow_sub_one, decide_eq_decide]
    omega
  · rw [if_neg hfull]
    by_cases hlast : j / 64 = n / 64 ∧ 0 < n % 64
    · rw [if_pos hlast, toNat_lowMask hmod, Nat.testBit_two_pow_sub_one, decide_eq_decide]
      omega
    · rw [if_neg hlast]
      have hnot : ¬j < n := by omega
      simp [hnot]

/-! ## Queries -/

/-- The bits of a bit set are the members of a finite set. -/
def Denotes (bs : PvaBitSet) (s : Finset ℕ) : Prop := ∀ i, bs.isSet i = true ↔ i ∈ s

theorem countSet_eq_length (bs : PvaBitSet) : bs.countSet = bs.iterSet.length := by
  have hwords : bs.countSet = (bs.words.map fun w => Bits.countOnes 64 w.toNat).sum := by
    rw [words, List.map_append, List.sum_append]
    rfl
  rw [hwords, iterSet_eq_words, List.length_flatMap]
  have hcount : ∀ p : UInt64 × ℕ,
      ((Bits.setBits 64 64 p.1.toNat).map (p.2 * 64 + ·)).length =
        Bits.countOnes 64 p.1.toNat := by
    intro p
    rw [List.length_map, Bits.length_setBits p.1.toNat_lt]
  simp only [hcount]
  conv_lhs => rw [← List.zipIdx_map_fst 0 bs.words, List.map_map]
  rfl

theorem isEmpty_iff (bs : PvaBitSet) : bs.isEmpty = true ↔ ∀ i, bs.isSet i = false := by
  have hwords : bs.isEmpty = true ↔ ∀ w ∈ bs.words, w = 0 := by
    unfold isEmpty words
    simp only [Bool.and_eq_true, List.all_eq_true, decide_eq_true_eq, List.mem_append]
    exact ⟨fun h w hw => hw.elim (h.1 w) (h.2 w), fun h => ⟨fun w hw => h w (.inl hw),
      fun w hw => h w (.inr hw)⟩⟩
  rw [hwords]
  constructor
  · intro h i
    rw [isSet_eq_testBit, getD_of_all_zero h]
    exact Nat.zero_testBit _
  · intro h w hw
    obtain ⟨k, hk⟩ := List.getElem?_of_mem hw
    have hbits : ∀ j, w.toNat.testBit j = false := by
      intro j
      by_cases hj : j < 64
      · have hbit := h (64 * k + j)
        rw [isSet_eq_testBit, show (64 * k + j) / 64 = k by omega,
          show (64 * k + j) % 64 = j by omega, List.getD_eq_getElem?_getD, hk] at hbit
        exact hbit
      · refine Nat.testBit_lt_two_pow (Nat.lt_of_lt_of_le w.toNat_lt ?_)
        exact Nat.pow_le_pow_right (by omega) (Nat.le_of_not_lt hj)
    exact UInt64.toNat_inj.1 (Nat.zero_of_testBit_eq_false hbits)

/-- The queries of a bit set that denotes `s`. -/
structure Answers (bs : PvaBitSet) (s : Finset ℕ) : Prop where
  isSet : ∀ i, bs.isSet i = true ↔ i ∈ s
  countSet : bs.countSet = s.card
  isEmpty : bs.isEmpty = decide (s = ∅)
  ascending : bs.iterSet.Pairwise (· < ·)
  members : ∀ i, i ∈ bs.iterSet ↔ i ∈ s

theorem Denotes.queries {bs : PvaBitSet} {s : Finset ℕ} (h : bs.Denotes s) : bs.Answers s := by
  have hmem : ∀ i, i ∈ bs.iterSet ↔ i ∈ s := by
    intro i
    rw [mem_iterSet, h i]
  have hnodup : bs.iterSet.Nodup := bs.iterSet_pairwise.imp fun hlt => Nat.ne_of_lt hlt
  have hs : s = bs.iterSet.toFinset := by
    ext i
    rw [List.mem_toFinset, hmem]
  refine ⟨h, ?_, ?_, bs.iterSet_pairwise, hmem⟩
  · rw [countSet_eq_length, hs, List.toFinset_card_of_nodup hnodup]
  · rw [Bool.eq_iff_iff, isEmpty_iff, decide_eq_true_iff, Finset.eq_empty_iff_forall_notMem]
    refine forall_congr' fun i => ?_
    rw [← h i, Bool.not_eq_true]

/-! ## Runs of operations -/

/-- An operation on a number of bit sets, which are named by numbers. -/
inductive BitOp where
  | withCapacity (r n : ℕ)
  | fromBits (r : ℕ) (bits : List ℕ)
  | allSet (r n : ℕ)
  | set (r i : ℕ)
  | clearBit (r i : ℕ)
  | toggle (r i : ℕ)
  | clearAll (r : ℕ)
  | bitOr (r a b : ℕ)
  | bitAnd (r a b : ℕ)
  deriving DecidableEq, Repr

open Function in
/-- The operation on bit sets. -/
def apply (regs : ℕ → PvaBitSet) : BitOp → ℕ → PvaBitSet
  | .withCapacity r n => update regs r (withCapacity n)
  | .fromBits r bits => update regs r (fromBits bits)
  | .allSet r n => update regs r (allSet n)
  | .set r i => update regs r ((regs r).set i)
  | .clearBit r i => update regs r ((regs r).clearBit i)
  | .toggle r i => update regs r ((regs r).toggle i)
  | .clearAll r => update regs r (regs r).clearAll
  | .bitOr r a b => update regs r ((regs a).bitOr (regs b))
  | .bitAnd r a b => update regs r ((regs a).bitAnd (regs b))

open Function in
/-- The operation on finite sets. -/
def applySets (sets : ℕ → Finset ℕ) : BitOp → ℕ → Finset ℕ
  | .withCapacity r _ => update sets r ∅
  | .fromBits r bits => update sets r bits.toFinset
  | .allSet r n => update sets r (Finset.range n)
  | .set r i => update sets r (insert i (sets r))
  | .clearBit r i => update sets r ((sets r).erase i)
  | .toggle r i =>
    update sets r (if i ∈ sets r then (sets r).erase i else insert i (sets r))
  | .clearAll r => update sets r ∅
  | .bitOr r a b => update sets r (sets a ∪ sets b)
  | .bitAnd r a b => update sets r (sets a ∩ sets b)

/-- Every bit set denotes the finite set of its name. -/
def DenoteAll (regs : ℕ → PvaBitSet) (sets : ℕ → Finset ℕ) : Prop :=
  ∀ r, (regs r).Denotes (sets r)

theorem DenoteAll.update {regs : ℕ → PvaBitSet} {sets : ℕ → Finset ℕ} (h : DenoteAll regs sets)
    (r : ℕ) {bs : PvaBitSet} {s : Finset ℕ} (hr : bs.Denotes s) :
    DenoteAll (Function.update regs r bs) (Function.update sets r s) := by
  intro r'
  by_cases hr' : r' = r
  · subst hr'
    rw [Function.update_self, Function.update_self]
    exact hr
  · rw [Function.update_of_ne hr', Function.update_of_ne hr']
    exact h r'

/-- Each operation on bit sets is the operation on finite sets. -/
theorem DenoteAll.apply {regs : ℕ → PvaBitSet} {sets : ℕ → Finset ℕ} (h : DenoteAll regs sets)
    (op : BitOp) : DenoteAll (apply regs op) (applySets sets op) := by
  cases op with
  | withCapacity r n =>
    refine h.update r fun j => ?_
    simp [isSet_withCapacity]
  | fromBits r bits =>
    refine h.update r fun j => ?_
    rw [isSet_fromBits, decide_eq_true_iff, List.mem_toFinset]
  | allSet r n =>
    refine h.update r fun j => ?_
    rw [isSet_allSet, decide_eq_true_iff, Finset.mem_range]
  | set r i =>
    refine h.update r fun j => ?_
    rw [isSet_set, Bool.or_eq_true, decide_eq_true_iff, h r, Finset.mem_insert, or_comm]
  | clearBit r i =>
    refine h.update r fun j => ?_
    rw [isSet_clearBit, Bool.and_eq_true, Bool.not_eq_true', decide_eq_false_iff_not, h r,
      Finset.mem_erase, and_comm]
  | toggle r i =>
    refine h.update r fun j => ?_
    have hj := h r j
    by_cases hi : i ∈ sets r
    · rw [if_pos hi, isSet_toggle, Finset.mem_erase, ← hj]
      by_cases hji : j = i
      · subst hji
        simp [hj.2 hi]
      · simp [hji]
    · rw [if_neg hi, isSet_toggle, Finset.mem_insert, ← hj]
      by_cases hji : j = i
      · subst hji
        have hfalse : (regs r).isSet j = false := by
          rw [← Bool.not_eq_true, hj]
          exact hi
        simp [hfalse]
      · simp [hji]
  | clearAll r =>
    refine h.update r fun j => ?_
    simp [isSet_clearAll]
  | bitOr r a b =>
    refine h.update r fun j => ?_
    rw [isSet_bitOr, Bool.or_eq_true, h a, h b, Finset.mem_union]
  | bitAnd r a b =>
    refine h.update r fun j => ?_
    rw [isSet_bitAnd, Bool.and_eq_true, h a, h b, Finset.mem_inter]

/-- **Main theorem.** After any operations on bit sets that were empty, the queries of each
    agree with the finite set the same operations lead to. -/
theorem run_refines (ops : List BitOp) (r : ℕ) :
    (Runs.run apply (fun _ => new) ops r).Answers (Runs.run applySets (fun _ => ∅) ops r) := by
  have hstart : DenoteAll (fun _ => new) fun _ => ∅ := by
    intro r i
    simp [isSet_new]
  have hrun : DenoteAll (Runs.run apply (fun _ => new) ops) (Runs.run applySets (fun _ => ∅) ops) :=
    Runs.run_related (R := DenoteAll) (fun _ _ op h => DenoteAll.apply h op) hstart ops
  exact (hrun r).queries

example : (((allSet 130).clearBit 3).bitAnd (fromBits [3, 128, 130])).iterSet = [128] := by
  decide +kernel

end PvaBitSet

end AuraEpics.Codec

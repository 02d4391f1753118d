import AuraEpics.Lib.Bits
import AuraEpics.Codec.PvData

/-!
# Changed-field bit sets

Model of `PvaBitSet` (`crates/aura-net/src/codec/bitset.rs`): two inline words and
a vector of overflow words.

* `isSet_eq_testBit`: membership is a bit of the concatenated words;
* `iterSet_pairwise`, `mem_iterSet`: `iter_set` lists exactly the set bits, in
  increasing order;
* `iterSet_eq_filter`: below a bound on the set bits it is the filtered range.
-/

namespace AuraEpics.Codec

/-- `INLINE_WORDS` and `INLINE_BITS` (lines 25-26). -/
def inlineWords : ℕ := 2
def inlineBits : ℕ := inlineWords * 64

/-- `PvaBitSet` (lines 30-34); the inline array has its fixed length. -/
structure PvaBitSet where
  inline : List UInt64
  overflow : List UInt64
  bitCount : ℕ
  inline_length : inline.length = inlineWords
  deriving DecidableEq

namespace PvaBitSet

/-- `PvaBitSet::new` (lines 37-43). -/
def new : PvaBitSet := ⟨[0, 0], [], 0, rfl⟩

/-- `PvaBitSet::with_capacity` (lines 45-53). -/
def withCapacity (n : ℕ) : PvaBitSet :=
  { new with
    bitCount := n
    overflow :=
      if inlineBits < n then List.replicate ((n - inlineBits + 63) / 64) 0 else [] }

/-- `word_mask` (lines 296-298). -/
def wordMask (index : ℕ) : ℕ × UInt64 := (index / 64, 1 <<< UInt64.ofNat (index % 64))

/-- `PvaBitSet::is_set` (lines 102-110). -/
def isSet (bs : PvaBitSet) (index : ℕ) : Bool :=
  let (word, mask) := wordMask index
  if index < inlineBits then bs.inline.getD word 0 &&& mask ≠ 0
  else
    let ow := word - inlineWords
    ow < bs.overflow.length && bs.overflow.getD ow 0 &&& mask ≠ 0

/-- `Vec::resize(n, 0)`. -/
def resize (l : List UInt64) (n : ℕ) : List UInt64 :=
  l.take n ++ List.replicate (n - l.length) 0

/-- `PvaBitSet::set` (lines 113-127). -/
def set (bs : PvaBitSet) (index : ℕ) : PvaBitSet :=
  let (word, mask) := wordMask index
  let bitCount := if bs.bitCount ≤ index then index + 1 else bs.bitCount
  if index < inlineBits then
    { inline := bs.inline.set word (bs.inline.getD word 0 ||| mask)
      overflow := bs.overflow
      bitCount := bitCount
      inline_length := by rw [List.length_set]; exact bs.inline_length }
  else
    let ow := word - inlineWords
    let overflow := if bs.overflow.length ≤ ow then resize bs.overflow (ow + 1) else bs.overflow
    { bs with
      overflow := overflow.set ow (overflow.getD ow 0 ||| mask)
      bitCount := bitCount }

/-- `PvaBitSet::from_bits` (lines 55-65). -/
def fromBits (bits : List ℕ) : PvaBitSet :=
  if bits = [] then new
  else bits.foldl set (withCapacity (bits.foldl max 0 + 1))

/-- `BitWordIter` (lines 372-395): take the trailing zeros, clear the lowest bit. -/
def bitWordIter (base : ℕ) : ℕ → UInt64 → List ℕ
  | 0, _ => []
  | fuel + 1, word =>
    if word = 0 then []
    else (base + Bits.trailingZeros 64 word.toNat) :: bitWordIter base fuel (word &&& (word - 1))

/-- `PvaBitSet::iter_set` (lines 188-199). -/
def iterSet (bs : PvaBitSet) : List ℕ :=
  (bs.inline.zipIdx.flatMap fun (word, wi) => bitWordIter (wi * 64) 64 word) ++
    (bs.overflow.zipIdx.flatMap fun (word, wi) => bitWordIter (inlineBits + wi * 64) 64 word)

/-! ## Decoding -/

/-- Write `word` as word number `wordIdx`, as both stores of `decode` do
    (lines 223-230 and 238-245). -/
def storeWord (bs : PvaBitSet) (wordIdx : ℕ) (word : UInt64) : PvaBitSet :=
  if wordIdx < inlineWords then
    { inline := bs.inline.set wordIdx word
      overflow := bs.overflow
      bitCount := bs.bitCount
      inline_length := by rw [List.length_set]; exact bs.inline_length }
  else
    let ow := wordIdx - inlineWords
    if ow < bs.overflow.length then { bs with overflow := bs.overflow.set ow word } else bs

/-- The locals of the loop of `decode` (lines 215-218). -/
structure WordLoop where
  bs : PvaBitSet
  wordIdx : ℕ
  byteInWord : ℕ
  currentWord : UInt64

/-- One byte of the loop of `decode` (lines 220-235). -/
def WordLoop.push (l : WordLoop) (byteVal : UInt8) : WordLoop :=
  let word := l.currentWord ||| (byteVal.toUInt64 <<< UInt64.ofNat (l.byteInWord * 8))
  if l.byteInWord + 1 = 8 then
    { bs := l.bs.storeWord l.wordIdx word
      wordIdx := l.wordIdx + 1
      byteInWord := 0
      currentWord := 0 }
  else { l with byteInWord := l.byteInWord + 1, currentWord := word }

/-- `PvaBitSet::decode` (lines 206-249). -/
def decode : Read PvaBitSet := do
  let byteCount ← Read.sizeNonNull
  if byteCount = 0 then return new
  let raw ← Read.bytes byteCount
  let l := raw.foldl WordLoop.push ⟨withCapacity (byteCount * 8), 0, 0, 0⟩
  return if 0 < l.byteInWord then l.bs.storeWord l.wordIdx l.currentWord else l.bs

/-! ## Membership and iteration -/

theorem toNat_mask {j : ℕ} (hj : j < 64) : (1 <<< UInt64.ofNat j : UInt64).toNat = 2 ^ j := by
  have hlt : 2 ^ j < 2 ^ 64 := Nat.pow_lt_pow_right (by omega) hj
  have hshift : (UInt64.ofNat j).toNat = j := UInt64.toNat_ofNat_of_lt (Nat.lt_trans hj (by decide))
  rw [UInt64.toNat_shiftLeft, hshift, Nat.mod_eq_of_lt hj, UInt64.toNat_one, Nat.one_shiftLeft,
    Nat.mod_eq_of_lt hlt]

theorem and_mask_ne_zero (w : UInt64) {j : ℕ} (hj : j < 64) :
    decide (w &&& (1 <<< UInt64.ofNat j) ≠ 0) = w.toNat.testBit j := by
  have hzero : (w &&& (1 <<< UInt64.ofNat j) ≠ 0) ↔ w.toNat &&& 2 ^ j ≠ 0 := by
    rw [not_iff_not, ← UInt64.toNat_inj, UInt64.toNat_and, toNat_mask hj]; rfl
  rw [Bool.eq_iff_iff, decide_eq_true_iff, hzero, Nat.and_two_pow]
  cases w.toNat.testBit j <;> simp

theorem bitWordIter_eq (base fuel : ℕ) (word : UInt64) :
    bitWordIter base fuel word = (Bits.setBits 64 fuel word.toNat).map (base + ·) := by
  induction fuel generalizing word with
  | zero => rfl
  | succ fuel ih =>
    unfold bitWordIter Bits.setBits
    by_cases h0 : word = 0
    · subst h0; rfl
    · have hn : word.toNat ≠ 0 := by rwa [← UInt64.toNat_inj] at h0
      have hsub : (word - 1).toNat = word.toNat - 1 := by
        rw [UInt64.toNat_sub_of_le]
        · rfl
        · rw [UInt64.le_iff_toNat_le]; show 1 ≤ _; omega
      rw [if_neg h0, if_neg hn, ih, UInt64.toNat_and, hsub, List.map_cons]

/-- All words, inline first. -/
def words (bs : PvaBitSet) : List UInt64 := bs.inline ++ bs.overflow

theorem isSet_eq_testBit (bs : PvaBitSet) (i : ℕ) :
    bs.isSet i = (bs.words.getD (i / 64) 0).toNat.testBit (i % 64) := by
  have hlen : bs.inline.length = 2 := bs.inline_length
  have hmod : i % 64 < 64 := Nat.mod_lt _ (by omega)
  unfold isSet wordMask words
  dsimp only
  by_cases hi : i < inlineBits
  · have hword : i / 64 < bs.inline.length := by simp only [inlineBits, inlineWords] at hi; omega
    rw [if_pos hi, List.getD_append _ _ _ _ hword]
    exact and_mask_ne_zero _ hmod
  · have hword : bs.inline.length ≤ i / 64 := by simp only [inlineBits, inlineWords] at hi; omega
    rw [if_neg hi, List.getD_append_right _ _ _ _ hword, bs.inline_length]
    by_cases ho : i / 64 - inlineWords < bs.overflow.length
    · simp only [ho, decide_true, Bool.true_and]
      exact and_mask_ne_zero _ hmod
    · rw [List.getD_eq_default _ _ (Nat.le_of_not_lt ho)]
      simp [ho]

theorem iterSet_eq_words (bs : PvaBitSet) :
    bs.iterSet =
      bs.words.zipIdx.flatMap fun p => (Bits.setBits 64 64 p.1.toNat).map (p.2 * 64 + ·) := by
  have hlen : bs.inline.length = 0 + 1 + 1 := bs.inline_length
  rw [iterSet, words, List.zipIdx_append, List.flatMap_append, hlen, Nat.zero_add,
    List.zipIdx_succ, List.zipIdx_succ, List.map_map, List.flatMap_map]
  simp only [bitWordIter_eq]
  refine congrArg (_ ++ ·) (List.flatMap_congr fun p _ => ?_)
  refine List.map_congr_left fun j _ => ?_
  simp only [Function.comp_apply, inlineBits, inlineWords]
  omega

theorem mem_iterSet (bs : PvaBitSet) (i : ℕ) : i ∈ bs.iterSet ↔ bs.isSet i = true := by
  rw [iterSet_eq_words, isSet_eq_testBit]
  simp only [List.mem_flatMap, List.mem_map, Prod.exists, List.mem_zipIdx_iff_getElem?]
  constructor
  · rintro ⟨w, wi, hw, j, hj, rfl⟩
    rw [Bits.mem_setBits w.toNat_lt] at hj
    have hj64 := Bits.lt_of_testBit w.toNat_lt hj
    rw [show (wi * 64 + j) / 64 = wi by omega, show (wi * 64 + j) % 64 = j by omega,
      List.getD_eq_getElem?_getD, hw]
    exact hj
  · intro h
    have hlt : i / 64 < bs.words.length := by
      by_contra hge
      rw [List.getD_eq_default _ _ (by omega)] at h
      simp at h
    refine ⟨bs.words[i / 64], i / 64, List.getElem?_eq_getElem hlt, i % 64, ?_, by omega⟩
    rw [List.getD_eq_getElem _ _ hlt] at h
    exact (Bits.mem_setBits (UInt64.toNat_lt _)).mpr h

theorem iterSet_pairwise (bs : PvaBitSet) : bs.iterSet.Pairwise (· < ·) := by
  rw [iterSet_eq_words, List.pairwise_flatMap]
  constructor
  · intro p _
    rw [List.pairwise_map]
    exact (Bits.setBits_pairwise p.1.toNat_lt).imp fun h => by omega
  · -- words with a smaller index hold smaller bits, since a word has 64 of them
    have hidx : bs.words.zipIdx.Pairwise fun p q => p.2 < q.2 := by
      have := List.pairwise_lt_range' (s := 0) (n := bs.words.length)
      rw [← List.zipIdx_map_snd, List.pairwise_map] at this
      exact this
    refine hidx.imp fun {p q} hpq a ha b hb => ?_
    simp only [List.mem_map] at ha hb
    obtain ⟨j, hj, rfl⟩ := ha
    obtain ⟨l, _, rfl⟩ := hb
    rw [Bits.mem_setBits p.1.toNat_lt] at hj
    have hj64 := Bits.lt_of_testBit p.1.toNat_lt hj
    omega

/-- **Main theorem**: `iter_set` over bits all below `n` is the range filtered
    by `is_set`. -/
theorem iterSet_eq_filter (bs : PvaBitSet) {n : ℕ} (hn : ∀ i, bs.isSet i = true → i < n) :
    bs.iterSet = (List.range n).filter bs.isSet := by
  refine bs.iterSet_pairwise.eq_of_mem_iff (List.pairwise_lt_range.filter _) fun i => ?_
  rw [mem_iterSet, List.mem_filter, List.mem_range]
  exact ⟨fun h => ⟨hn i h, h⟩, And.right⟩

/-! ## Setting bits -/

theorem getD_set (l : List UInt64) {m : ℕ} (hm : m < l.length) (x : UInt64) (k : ℕ) :
    (l.set m x).getD k 0 = if k = m then x else l.getD k 0 := by
  rw [List.getD_eq_getElem?_getD, List.getElem?_set]
  by_cases hk : m = k
  · subst hk; simp [hm]
  · simp [hk, Ne.symm hk, List.getD_eq_getElem?_getD]

theorem getD_resize {l : List UInt64} {n : ℕ} (hn : l.length ≤ n) (k : ℕ) :
    (resize l n).getD k 0 = l.getD k 0 := by
  rw [resize, List.take_of_length_le hn]
  by_cases hk : k < l.length
  · rw [List.getD_append _ _ _ _ hk]
  · rw [List.getD_append_right _ _ _ _ (by omega), List.getD_eq_default l _ (by omega),
      List.getD_eq_getElem?_getD, List.getElem?_replicate]
    split_ifs <;> rfl

theorem getD_words (bs : PvaBitSet) (k : ℕ) :
    bs.words.getD k 0 =
      if k < inlineWords then bs.inline.getD k 0 else bs.overflow.getD (k - inlineWords) 0 := by
  have hlen : bs.inline.length = inlineWords := bs.inline_length
  unfold words
  split_ifs with hk
  · exact List.getD_append _ _ _ _ (by omega)
  · rw [List.getD_append_right _ _ _ _ (by omega), hlen]

/-- Changing an inline word. -/
theorem words_setInline (bs : PvaBitSet) {w : ℕ} (hw : w < inlineWords) (f : UInt64 → UInt64)
    (bitCount : ℕ) (hlen : (bs.inline.set w (f (bs.inline.getD w 0))).length = inlineWords)
    (k : ℕ) :
    (words ⟨bs.inline.set w (f (bs.inline.getD w 0)), bs.overflow, bitCount, hlen⟩).getD k 0 =
      if k = w then f (bs.words.getD k 0) else bs.words.getD k 0 := by
  rw [getD_words, getD_words bs]
  dsimp only
  rw [getD_set _ (by rwa [bs.inline_length])]
  by_cases hk : k = w
  · rw [hk, if_pos hw, if_pos rfl, if_pos rfl, if_pos hw]
  · rw [if_neg hk, if_neg hk]

/-- Changing a word of the overflow vector, which may have been grown before. -/
theorem words_setOverflow (bs : PvaBitSet) {ov : List UInt64}
    (hov : ∀ n, ov.getD n 0 = bs.overflow.getD n 0) {w : ℕ} (hw : inlineWords ≤ w)
    (hin : w - inlineWords < ov.length) (f : UInt64 → UInt64) (bitCount k : ℕ) :
    (words ⟨bs.inline, ov.set (w - inlineWords) (f (ov.getD (w - inlineWords) 0)), bitCount,
      bs.inline_length⟩).getD k 0 =
      if k = w then f (bs.words.getD k 0) else bs.words.getD k 0 := by
  have hnot : ¬w < inlineWords := Nat.not_lt.2 hw
  rw [getD_words, getD_words bs]
  dsimp only
  rw [getD_set _ hin, hov, hov]
  by_cases hk : k = w
  · rw [hk, if_neg hnot, if_pos rfl, if_pos rfl, if_neg hnot]
  · rw [if_neg hk]
    split_ifs <;> first | rfl | omega

/-- Growing the overflow vector adds zero words, which read as the default. -/
theorem getD_grown (l : List UInt64) (n : ℕ) :
    (n < (if l.length ≤ n then resize l (n + 1) else l).length) ∧
      ∀ k, (if l.length ≤ n then resize l (n + 1) else l).getD k 0 = l.getD k 0 := by
  split_ifs with hn
  · refine ⟨?_, fun k => getD_resize (by omega) k⟩
    simp [resize]
    omega
  · exact ⟨by omega, fun _ => rfl⟩

/-- Change the word of bit `index` by `f`, after growing the overflow vector up to it. -/
def modifyWord (bs : PvaBitSet) (index : ℕ) (f : UInt64 → UInt64) : PvaBitSet :=
  let word := index / 64
  let bitCount := if bs.bitCount ≤ index then index + 1 else bs.bitCount
  if index < inlineBits then
    { inline := bs.inline.set word (f (bs.inline.getD word 0))
      overflow := bs.overflow
      bitCount := bitCount
      inline_length := by rw [List.length_set]; exact bs.inline_length }
  else
    let ow := word - inlineWords
    let overflow := if bs.overflow.length ≤ ow then resize bs.overflow (ow + 1) else bs.overflow
    { bs with
      overflow := overflow.set ow (f (overflow.getD ow 0))
      bitCount := bitCount }

theorem set_eq_modifyWord (bs : PvaBitSet) (i : ℕ) :
    bs.set i = bs.modifyWord i fun w => w ||| (wordMask i).2 := rfl

theorem lt_inlineBits_iff {i : ℕ} : i < inlineBits ↔ i / 64 < inlineWords := by
  simp only [inlineBits, inlineWords]
  omega

theorem words_modifyWord (bs : PvaBitSet) (i : ℕ) (f : UInt64 → UInt64) (k : ℕ) :
    (bs.modifyWord i f).words.getD k 0 =
      if k = i / 64 then f (bs.words.getD k 0) else bs.words.getD k 0 := by
  unfold modifyWord
  dsimp only
  by_cases hi : i < inlineBits
  · rw [if_pos hi]
    exact words_setInline bs (lt_inlineBits_iff.1 hi) f _ _ k
  · have hw : inlineWords ≤ i / 64 := Nat.not_lt.1 fun hw => hi (lt_inlineBits_iff.2 hw)
    obtain ⟨hin, hget⟩ := getD_grown bs.overflow (i / 64 - inlineWords)
    rw [if_neg hi]
    exact words_setOverflow bs hget hw hin f _ k

theorem testBit_mask (i j : ℕ) : (wordMask i).2.toNat.testBit j = decide (j = i % 64) := by
  have hi : i % 64 < 64 := Nat.mod_lt _ (by omega)
  rw [wordMask, toNat_mask hi, Nat.testBit_two_pow, decide_eq_decide]
  exact eq_comm

/-- A change of the word of bit `i` that combines its bits with the mask by `g` is a change of
    bit `i` by `g`. -/
theorem isSet_of_words {bs bs' : PvaBitSet} {i : ℕ} {f : UInt64 → UInt64} {g : Bool → Bool → Bool}
    (hwords : ∀ k, bs'.words.getD k 0 =
      if k = i / 64 then f (bs.words.getD k 0) else bs.words.getD k 0)
    (hf : ∀ w j, j < 64 → (f w).toNat.testBit j = g (w.toNat.testBit j) (decide (j = i % 64)))
    (hg : ∀ b, g b false = b) (j : ℕ) : bs'.isSet j = g (bs.isSet j) (decide (j = i)) := by
  rw [isSet_eq_testBit, isSet_eq_testBit, hwords]
  by_cases hword : j / 64 = i / 64
  · have hj : j % 64 < 64 := Nat.mod_lt _ (by omega)
    rw [if_pos hword, hf _ _ hj]
    congr 1
    rw [decide_eq_decide]
    omega
  · have hne : j ≠ i := by
      rintro rfl
      exact hword rfl
    rw [if_neg hword, decide_eq_false hne, hg]

theorem isSet_set (bs : PvaBitSet) (i j : ℕ) :
    (bs.set i).isSet j = (bs.isSet j || decide (j = i)) := by
  rw [set_eq_modifyWord]
  refine isSet_of_words (words_modifyWord bs i _) (fun w j _ => ?_) Bool.or_false j
  rw [UInt64.toNat_or, Nat.testBit_or, testBit_mask]

theorem isSet_foldl_set (bits : List ℕ) (bs : PvaBitSet) (j : ℕ) :
    (bits.foldl set bs).isSet j = (bs.isSet j || decide (j ∈ bits)) := by
  induction bits generalizing bs with
  | nil => simp
  | cons b bits ih =>
    rw [List.foldl_cons, ih, isSet_set, Bool.or_assoc]
    congr 1
    rw [← Bool.decide_or]
    simp [List.mem_cons]

theorem isSet_new (j : ℕ) : new.isSet j = false := by
  rw [isSet_eq_testBit]
  rcases j / 64 with _ | _ | n <;> simp [words, new]

theorem getD_of_all_zero {l : List UInt64} (h : ∀ w ∈ l, w = 0) (k : ℕ) : l.getD k 0 = 0 := by
  rw [List.getD_eq_getElem?_getD]
  cases hget : l[k]? with
  | none => rfl
  | some w => exact h w (List.mem_of_getElem? hget)

theorem words_withCapacity (n k : ℕ) : (withCapacity n).words.getD k 0 = 0 := by
  refine getD_of_all_zero (fun w hw => ?_) k
  simp only [words, withCapacity, new, List.mem_append] at hw
  rcases hw with hw | hw
  · simpa using hw
  · split_ifs at hw
    · exact List.eq_of_mem_replicate hw
    · cases hw

theorem isSet_withCapacity (n j : ℕ) : (withCapacity n).isSet j = false := by
  rw [isSet_eq_testBit, words_withCapacity]
  exact Nat.zero_testBit _

/-- `from_bits` sets exactly the listed bits. -/
theorem isSet_fromBits (bits : List ℕ) (j : ℕ) : (fromBits bits).isSet j = decide (j ∈ bits) := by
  unfold fromBits
  split_ifs with hnil
  · subst hnil; simp [isSet_new]
  · rw [isSet_foldl_set, isSet_withCapacity, Bool.false_or]

example : (fromBits [7, 1, 130]).iterSet = [1, 7, 130] := by decide +kernel

end PvaBitSet

end AuraEpics.Codec

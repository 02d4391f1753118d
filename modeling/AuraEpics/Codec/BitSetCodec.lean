import AuraEpics.Codec.BitSetOps
import AuraEpics.Codec.PvWriter
import AuraEpics.Lib.Digits

/-!
# Bit sets on the wire

`PvaBitSet::encode` next to `decode` (`crates/aura-net/src/codec/bitset.rs`, lines 206-313): a
size, then the bytes of the words with the zero bytes at the end left out.

The bits of a bit set are the bits of one number, its `value`, whatever its capacity is. The
encoder writes the shortest bytes of that number and the decoder collects the number its bytes
stand for; a round trip is then a fact about numbers.

Results:
* `encode_eq`, what the encoder writes;
* `value_ofBytes`, what the decoder builds;
* `codec_exact`, the round trip, the canonical form and what becomes of accepted bytes.
-/

namespace AuraEpics.Codec

open Numeric

namespace PvaBitSet

/-! ## Encoding -/

/-- `PvaBitSet::get_word` (lines 300-312). -/
def getWord (bs : PvaBitSet) (idx : ℕ) : UInt64 :=
  if idx < inlineWords then bs.inline.getD idx 0
  else
    let ow := idx - inlineWords
    if ow < bs.overflow.length then bs.overflow.getD ow 0 else 0

/-- The loop over `(0..n).rev()` of `encode` (lines 257-263): one more than the last index of a
    word that is not zero. -/
def lastWordBelow (bs : PvaBitSet) : ℕ → ℕ
  | 0 => 0
  | i + 1 => if bs.getWord i ≠ 0 then i + 1 else bs.lastWordBelow i

/-- The number of bytes of the last word to write (lines 271-276). -/
def bytesInLast (lastW : UInt64) : ℕ :=
  if lastW = 0 then 0 else 8 - Bits.leadingZeros 64 lastW.toNat / 8

/-- The inner loop of `encode` (lines 289-291). -/
def wordBytes (w : UInt64) (bytesToWrite : ℕ) : List UInt8 :=
  (List.range bytesToWrite).map fun bi => ((w >>> UInt64.ofNat (bi * 8)) &&& 0xFF).toUInt8

/-- `PvaBitSet::encode` (lines 252-293). -/
def encode (order : ByteOrder) (bs : PvaBitSet) : List UInt8 :=
  let totalWords := inlineWords + bs.overflow.length
  let lastWord := bs.lastWordBelow totalWords
  if lastWord = 0 then Write.size order 0
  else
    let inLast := bytesInLast (bs.getWord (lastWord - 1))
    let totalBytes := (lastWord - 1) * 8 + inLast
    Write.size order totalBytes ++ (List.range lastWord).flatMap fun wi =>
      wordBytes (bs.getWord wi) (if wi = lastWord - 1 then inLast else 8)

/-! ## The number a bit set stands for -/

/-- The words as the digits of one number. -/
def value (bs : PvaBitSet) : ℕ := Nat.ofDigits (2 ^ 64) (bs.words.map UInt64.toNat)

theorem getD_map_toNat (l : List UInt64) (k : ℕ) :
    (l.map UInt64.toNat).getD k 0 = (l.getD k 0).toNat :=
  List.getD_map l 0 UInt64.toNat

theorem isSet_eq_value (bs : PvaBitSet) (i : ℕ) : bs.isSet i = bs.value.testBit i := by
  have hdigit : ∀ x ∈ bs.words.map UInt64.toNat, x < 2 ^ 64 := by
    intro x hx
    obtain ⟨w, -, rfl⟩ := List.mem_map.1 hx
    exact w.toNat_lt
  rw [isSet_eq_testBit, value, testBit_ofDigits (by decide) hdigit, getD_map_toNat]

theorem value_eq_of_isSet {a b : PvaBitSet} (h : ∀ i, a.isSet i = b.isSet i) :
    a.value = b.value := by
  refine Nat.eq_of_testBit_eq fun i => ?_
  rw [← isSet_eq_value, ← isSet_eq_value, h]

theorem getWord_eq (bs : PvaBitSet) (k : ℕ) : bs.getWord k = bs.words.getD k 0 := by
  rw [getD_words]
  unfold getWord
  dsimp only
  split_ifs with hk hover
  · rfl
  · rfl
  · exact (List.getD_eq_default _ _ (Nat.le_of_not_lt hover)).symm

theorem length_words (bs : PvaBitSet) : bs.words.length = inlineWords + bs.overflow.length := by
  rw [words, List.length_append, bs.inline_length]

/-- The words from `m` on are zero, and may be left out of the number. -/
theorem value_eq_range (bs : PvaBitSet) {m : ℕ} (hm : ∀ k, m ≤ k → bs.getWord k = 0) :
    bs.value = Nat.ofDigits (2 ^ 64) ((List.range m).map fun k => (bs.getWord k).toNat) := by
  refine ofDigits_congr fun k => ?_
  rw [getD_map_toNat, getD_map_range, ← getWord_eq]
  by_cases hk : k < m
  · rw [if_pos hk]
  · rw [if_neg hk, hm k (Nat.le_of_not_lt hk)]
    rfl

/-! ## What the encoder writes -/

theorem getWord_of_lastWordBelow_le (bs : PvaBitSet) {n k : ℕ} (hk : bs.lastWordBelow n ≤ k)
    (hn : k < n) : bs.getWord k = 0 := by
  induction n with
  | zero => omega
  | succ n ih =>
    unfold lastWordBelow at hk
    by_cases hw : bs.getWord n ≠ 0
    · rw [if_pos hw] at hk
      omega
    · rw [if_neg hw] at hk
      by_cases hkn : k = n
      · rw [hkn]
        exact not_not.1 hw
      · exact ih hk (by omega)

theorem getWord_lastWordBelow (bs : PvaBitSet) {n m : ℕ} (h : bs.lastWordBelow n = m + 1) :
    bs.getWord m ≠ 0 := by
  induction n with
  | zero => cases h
  | succ n ih =>
    unfold lastWordBelow at h
    by_cases hw : bs.getWord n ≠ 0
    · rw [if_pos hw] at h
      rwa [← Nat.succ.inj h]
    · rw [if_neg hw] at h
      exact ih h

/-- Beyond the last word that is not zero every word reads as zero. -/
theorem getWord_beyond (bs : PvaBitSet) {k : ℕ}
    (hk : bs.lastWordBelow (inlineWords + bs.overflow.length) ≤ k) : bs.getWord k = 0 := by
  by_cases hlen : k < inlineWords + bs.overflow.length
  · exact getWord_of_lastWordBelow_le bs hk hlen
  · rw [getWord_eq]
    exact List.getD_eq_default _ _ (by rw [length_words]; omega)

/-- The last byte written of a word that is not zero is its highest byte that is not zero. -/
theorem bytesInLast_spec {w : UInt64} (hw : w ≠ 0) :
    ∃ b < 8, bytesInLast w = b + 1 ∧ 256 ^ b ≤ w.toNat ∧ w.toNat < 256 ^ (b + 1) := by
  have hne : w.toNat ≠ 0 := fun hzero => hw (UInt64.toNat_inj.1 hzero)
  have hlog : w.toNat.log2 < 64 := (Nat.log2_lt hne).2 w.toNat_lt
  have hpow : ∀ n, 256 ^ n = 2 ^ (8 * n) := fun n => by rw [Nat.pow_mul]
  refine ⟨w.toNat.log2 / 8, by omega, ?_, ?_, ?_⟩
  · unfold bytesInLast Bits.leadingZeros
    rw [if_neg hw, if_neg hne]
    omega
  · rw [hpow]
    exact (Nat.pow_le_pow_right (by decide) (by omega)).trans (Nat.log2_self_le hne)
  · rw [hpow]
    exact Nat.lt_log2_self.trans_le (Nat.pow_le_pow_right (by decide) (by omega))

theorem wordBytes_eq (w : UInt64) {n : ℕ} (hn : n ≤ 8) : wordBytes w n = leBytes n w.toNat := by
  rw [leBytes_eq_map]
  refine List.map_congr_left fun i hi => ?_
  have hlt : i < n := List.mem_range.1 hi
  have hshift : (UInt64.ofNat (i * 8)).toNat = i * 8 :=
    UInt64.toNat_ofNat_of_lt (show i * 8 < 2 ^ 64 by omega)
  have hmask : (0xFF : UInt64).toNat = 2 ^ 8 - 1 := rfl
  rw [← UInt8.toNat_inj, UInt64.toNat_toUInt8, UInt64.toNat_and, UInt64.toNat_shiftRight, hshift,
    Nat.mod_eq_of_lt (show i * 8 < 64 by omega), Nat.shiftRight_eq_div_pow, hmask,
    Nat.and_two_pow_sub_one_eq_mod, UInt8.toNat_ofNat', Nat.mod_mod, Nat.mul_comm i 8, Nat.pow_mul]

/-- The bytes of the words below `m`, all eight of each. -/
def fullWords (bs : PvaBitSet) (m : ℕ) : List UInt8 :=
  (List.range m).flatMap fun wi => leBytes 8 (bs.getWord wi).toNat

theorem length_fullWords (bs : PvaBitSet) (m : ℕ) : (bs.fullWords m).length = m * 8 := by
  rw [fullWords, List.length_flatMap]
  simp

theorem leNat_fullWords (bs : PvaBitSet) (m : ℕ) :
    leNat (bs.fullWords m) =
      Nat.ofDigits (2 ^ 64) ((List.range m).map fun k => (bs.getWord k).toNat) :=
  leNat_flatMap_leBytes (w := 8) _ (fun k => (bs.getWord k).toNat_lt) m

/-- The outer loop of `encode` writes all words but the last in full. -/
theorem flatMap_wordBytes (bs : PvaBitSet) (m : ℕ) {n : ℕ} (hn : n ≤ 8) :
    ((List.range (m + 1)).flatMap fun wi =>
        wordBytes (bs.getWord wi) (if wi = m then n else 8)) =
      bs.fullWords m ++ leBytes n (bs.getWord m).toNat := by
  have hfull : ((List.range m).flatMap fun wi =>
      wordBytes (bs.getWord wi) (if wi = m then n else 8)) = bs.fullWords m := by
    refine List.flatMap_congr fun wi hwi => ?_
    have hne : wi ≠ m := Nat.ne_of_lt (List.mem_range.1 hwi)
    rw [if_neg hne, wordBytes_eq _ (Nat.le_refl 8)]
  rw [List.range_succ, List.flatMap_append, hfull, List.flatMap_singleton, if_pos rfl,
    wordBytes_eq _ hn]

/-- Eight bytes are the place of a word. -/
theorem pow_word (m : ℕ) : 256 ^ (m * 8) = (2 ^ 64) ^ m := by
  have hbase : 256 ^ 8 = 2 ^ 64 := by norm_num
  rw [Nat.mul_comm, Nat.pow_mul, hbase]

theorem value_eq_last (bs : PvaBitSet) {m : ℕ} (hm : ∀ k, m + 1 ≤ k → bs.getWord k = 0) :
    bs.value = leNat (bs.fullWords m) + 256 ^ (m * 8) * (bs.getWord m).toNat := by
  rw [value_eq_range bs hm, leNat_fullWords, pow_word, List.range_succ, List.map_append,
    Nat.ofDigits_append, List.length_map, List.length_range, List.map_singleton,
    Nat.ofDigits_singleton]

/-- What the two loops of `encode` write are the shortest bytes of the number. -/
theorem fullWords_append (bs : PvaBitSet) {m : ℕ}
    (h : bs.lastWordBelow (inlineWords + bs.overflow.length) = m + 1) :
    bytesInLast (bs.getWord m) ≤ 8 ∧
      bs.fullWords m ++ leBytes (bytesInLast (bs.getWord m)) (bs.getWord m).toNat =
        minBytes bs.value := by
  obtain ⟨b, hb, hlast, htop, hlt⟩ := bytesInLast_spec (getWord_lastWordBelow bs h)
  have hvalue := value_eq_last bs fun k hk => getWord_beyond bs (h.le.trans hk)
  rw [hlast]
  refine ⟨hb, eq_minBytes ?_ fun _ => ?_⟩
  · rw [leNat_append, length_fullWords, leNat_leBytes, Nat.mod_eq_of_lt hlt, hvalue]
  · have hpow : 256 ^ (m * 8 + (b + 1) - 1) = 256 ^ (m * 8) * 256 ^ b := by
      rw [← Nat.add_assoc, Nat.add_sub_cancel, Nat.pow_add]
    rw [List.length_append, length_fullWords, length_leBytes, hpow, hvalue]
    exact (Nat.mul_le_mul_left _ htop).trans (Nat.le_add_left _ _)

/-- `encode` writes the size and the shortest bytes of the number. -/
theorem encode_eq (order : ByteOrder) (bs : PvaBitSet) :
    bs.encode order =
      Write.size order (minBytes bs.value).length ++ minBytes bs.value := by
  unfold encode
  dsimp only
  cases h : bs.lastWordBelow (inlineWords + bs.overflow.length) with
  | zero =>
    have hzero : bs.value = 0 := value_eq_range bs (m := 0) fun k _ =>
      getWord_beyond bs (h.le.trans (Nat.zero_le k))
    rw [if_pos rfl, hzero]
    simp [minBytes]
  | succ m =>
    obtain ⟨hle, hbytes⟩ := fullWords_append bs h
    have hlen : m * 8 + bytesInLast (bs.getWord m) = (minBytes bs.value).length := by
      rw [← hbytes, List.length_append, length_fullWords, length_leBytes]
    rw [if_neg (Nat.succ_ne_zero m), Nat.add_sub_cancel, flatMap_wordBytes bs m hle, hbytes, hlen]

/-! ## What the decoder builds -/

/-- What `decode` builds from the bytes it reads (lines 213-246). -/
def ofBytes (raw : List UInt8) : PvaBitSet :=
  let l := raw.foldl WordLoop.push ⟨withCapacity (raw.length * 8), 0, 0, 0⟩
  if 0 < l.byteInWord then l.bs.storeWord l.wordIdx l.currentWord else l.bs

/-- The loop of `decode` with room for `n` bytes has read `done`. -/
structure WordLoop.Collected (n : ℕ) (done : List UInt8) (l : WordLoop) : Prop where
  room : n ≤ l.bs.words.length * 8
  position : l.wordIdx * 8 + l.byteInWord = done.length
  partialWord : l.byteInWord < 8
  current : l.currentWord.toNat < 256 ^ l.byteInWord
  rest : ∀ k, l.wordIdx ≤ k → l.bs.words.getD k 0 = 0
  value : l.bs.value + 256 ^ (l.wordIdx * 8) * l.currentWord.toNat = leNat done

theorem value_storeWord (bs : PvaBitSet) {w : ℕ} (hw : w < bs.words.length)
    (hzero : bs.words.getD w 0 = 0) (x : UInt64) :
    (bs.storeWord w x).value = bs.value + 256 ^ (w * 8) * x.toNat := by
  have hlen : w < (bs.words.map UInt64.toNat).length := by rwa [List.length_map]
  have hdigit : (bs.words.map UInt64.toNat).getD w 0 = 0 := by
    rw [getD_map_toNat, hzero]
    rfl
  rw [pow_word]
  refine Eq.trans ?_ (ofDigits_set hlen hdigit x.toNat)
  refine ofDigits_congr fun k => ?_
  rw [← List.map_set, getD_map_toNat, getD_map_toNat, words_storeWord bs hw, getD_set _ hw]

/-- A byte above the ones a word already has. -/
theorem toNat_or_byte {w : UInt64} {j : ℕ} (hj : j < 8) (hw : w.toNat < 256 ^ j) (b : UInt8) :
    (w ||| b.toUInt64 <<< UInt64.ofNat (j * 8)).toNat = w.toNat + 256 ^ j * b.toNat := by
  have hpow : 256 ^ j = 2 ^ (j * 8) := by rw [Nat.mul_comm, Nat.pow_mul]
  have hshift : (UInt64.ofNat (j * 8)).toNat = j * 8 :=
    UInt64.toNat_ofNat_of_lt (show j * 8 < 2 ^ 64 by omega)
  have hfit : 2 ^ (j * 8) * b.toNat < 2 ^ 64 := by
    calc 2 ^ (j * 8) * b.toNat < 2 ^ (j * 8) * 2 ^ 8 :=
          Nat.mul_lt_mul_of_pos_left b.toNat_lt (Nat.two_pow_pos _)
      _ = 2 ^ (j * 8 + 8) := (Nat.pow_add ..).symm
      _ ≤ 2 ^ 64 := Nat.pow_le_pow_right (by decide) (by omega)
  rw [hpow] at hw ⊢
  rw [UInt64.toNat_or, UInt64.toNat_shiftLeft, hshift, Nat.mod_eq_of_lt (show j * 8 < 64 by omega),
    UInt8.toNat_toUInt64, Nat.shiftLeft_eq, Nat.mul_comm b.toNat, Nat.mod_eq_of_lt hfit,
    Nat.or_comm, ← Nat.two_pow_add_eq_or_of_lt hw, Nat.add_comm]

theorem WordLoop.Collected.push {n : ℕ} {done : List UInt8} {l : WordLoop}
    (h : l.Collected n done) (hn : done.length < n) (b : UInt8) :
    (l.push b).Collected n (done ++ [b]) := by
  obtain ⟨room, position, partialWord, current, rest, value⟩ := h
  have hword := toNat_or_byte partialWord current b
  have hplace : 256 ^ done.length = 256 ^ (l.wordIdx * 8) * 256 ^ l.byteInWord := by
    rw [← Nat.pow_add, position]
  have hnumber : l.bs.value + 256 ^ (l.wordIdx * 8) *
      (l.currentWord.toNat + 256 ^ l.byteInWord * b.toNat) = leNat (done ++ [b]) := by
    rw [leNat_append, leNat_singleton, hplace, ← value]
    ring
  unfold WordLoop.push
  dsimp only
  by_cases hfull : l.byteInWord + 1 = 8
  · -- the word is complete and takes its place
    have hin : l.wordIdx < l.bs.words.length := by omega
    rw [if_pos hfull]
    refine ⟨?_, ?_, by simp, by simp, fun k hk => ?_, ?_⟩
    · dsimp only
      rwa [length_words_storeWord]
    · simp only [List.length_append, List.length_singleton]
      omega
    · dsimp only at hk ⊢
      rw [words_storeWord _ hin, if_neg (by omega)]
      exact rest k (by omega)
    · dsimp only
      rw [value_storeWord _ hin (rest _ (Nat.le_refl _)), hword, hnumber]
      simp
  · rw [if_neg hfull]
    refine ⟨room, ?_, by dsimp only; omega, ?_, rest, ?_⟩
    · simp only [List.length_append, List.length_singleton]
      omega
    · dsimp only
      rw [hword, Nat.pow_succ]
      have hb : b.toNat < 256 := b.toNat_lt
      calc l.currentWord.toNat + 256 ^ l.byteInWord * b.toNat
          < 256 ^ l.byteInWord + 256 ^ l.byteInWord * b.toNat := Nat.add_lt_add_right current _
        _ = 256 ^ l.byteInWord * (b.toNat + 1) := by ring
        _ ≤ 256 ^ l.byteInWord * 256 := Nat.mul_le_mul_left _ hb
    · dsimp only
      rw [hword, hnumber]

theorem WordLoop.Collected.foldl {n : ℕ} {done : List UInt8} {l : WordLoop}
    (h : l.Collected n done) (bs : List UInt8) (hn : done.length + bs.length ≤ n) :
    (bs.foldl WordLoop.push l).Collected n (done ++ bs) := by
  induction bs generalizing done l with
  | nil => rwa [List.append_nil]
  | cons b bs ih =>
    rw [List.length_cons] at hn
    have hstep := h.push (by omega) b
    rw [List.foldl_cons, List.append_cons]
    refine ih hstep ?_
    rw [List.length_append, List.length_singleton]
    omega

theorem value_withCapacity (n : ℕ) : (withCapacity n).value = 0 := by
  refine ofDigits_eq_zero fun k => ?_
  rw [getD_map_toNat, words_withCapacity]
  rfl

/-- The bit set `decode` builds stands for the number of the bytes. -/
theorem value_ofBytes (raw : List UInt8) : (ofBytes raw).value = leNat raw := by
  have hcap := length_words_withCapacity (raw.length * 8)
  have hstart : (⟨withCapacity (raw.length * 8), 0, 0, 0⟩ : WordLoop).Collected raw.length [] := by
    refine ⟨by dsimp only; omega, rfl, by simp, by simp, fun k _ => words_withCapacity _ k, ?_⟩
    rw [value_withCapacity]
    rfl
  have hloop := hstart.foldl raw (by simp)
  unfold ofBytes
  dsimp only
  generalize raw.foldl WordLoop.push _ = l at hloop ⊢
  rw [List.nil_append] at hloop
  obtain ⟨room, position, partialWord, current, rest, value⟩ := hloop
  split_ifs with hflush
  · have hin : l.wordIdx < l.bs.words.length := by omega
    rw [value_storeWord _ hin (rest _ (Nat.le_refl _)), value]
  · have hzero : l.currentWord.toNat = 0 := by
      rw [Nat.eq_zero_of_not_pos hflush] at current
      omega
    rw [← value, hzero, Nat.mul_zero, Nat.add_zero]

/-! ## The codec -/

theorem yields_ofBytes (order : ByteOrder) {raw : List UInt8} (h : raw.length < 2 ^ 31) :
    Yields order decode (Write.size order raw.length ++ raw) (ofBytes raw) := by
  unfold decode
  refine (yields_sizeNonNull order h).bind ?_
  by_cases hempty : raw.length = 0
  · have hnil : raw = [] := List.length_eq_zero_iff.1 hempty
    rw [if_pos hempty, hnil]
    exact Yields.pure new
  · rw [if_neg hempty]
    refine (yields_bytes order raw).last ?_
    exact Yields.pure (ofBytes raw)

/-- What `decode` accepts is a size and as many bytes. -/
theorem decode_eq_ok {r r' : PvaReader} {bs : PvaBitSet} (h : decode r = (.ok bs, r')) :
    ∃ n r₁ raw, Read.sizeNonNull r = (.ok n, r₁) ∧ Read.bytes n r₁ = (.ok raw, r') ∧
      bs = ofBytes raw := by
  unfold decode at h
  obtain ⟨n, r₁, hsize, h⟩ := Read.bind_eq_ok.1 h
  by_cases hn : n = 0
  · rw [if_pos hn] at h
    obtain ⟨hbs, hr⟩ := Read.pure_eq_ok.1 h
    refine ⟨n, r₁, [], hsize, ?_, hbs.symm⟩
    rw [← hr, hn]
    exact dif_pos r₁.pos_le
  · rw [if_neg hn] at h
    obtain ⟨raw, r₂, hraw, h⟩ := Read.bind_eq_ok.1 h
    obtain ⟨hbs, hr⟩ := Read.pure_eq_ok.1 h
    subst hr
    have hlen : raw.length = n := by
      unfold Read.bytes at hraw
      split_ifs at hraw with hle
      · cases hraw
        rw [List.length_take, List.length_drop]
        omega
      · cases hraw
    refine ⟨n, r₁, raw, hsize, hraw, hbs.symm.trans ?_⟩
    rw [← hlen]
    rfl

theorem isSet_ofBytes_minBytes (bs : PvaBitSet) (i : ℕ) :
    (ofBytes (minBytes bs.value)).isSet i = bs.isSet i := by
  rw [isSet_eq_value, value_ofBytes, leNat_minBytes, ← isSet_eq_value]

theorem length_minBytes_value_le {bs : PvaBitSet} {n : ℕ}
    (h : ∀ i, bs.isSet i = true → i < 8 * n) : (minBytes bs.value).length ≤ n := by
  rw [length_minBytes_le, show 256 = 2 ^ 8 from rfl, ← Nat.pow_mul]
  refine Nat.lt_pow_two_of_testBit _ fun i hi => ?_
  rw [← isSet_eq_value, ← Bool.not_eq_true]
  intro hbit
  exact Nat.not_lt.2 hi (h i hbit)

theorem lt_length_minBytes_value {bs : PvaBitSet} {i : ℕ} (h : bs.isSet i = true) :
    i / 8 < (minBytes bs.value).length := by
  rw [isSet_eq_value] at h
  rw [lt_length_minBytes, show 256 = 2 ^ 8 from rfl, ← Nat.pow_mul]
  exact (Nat.pow_le_pow_right (by decide) (Nat.mul_div_le i 8)).trans (Nat.ge_two_pow_of_testBit h)

/-- **Main theorem.** A bit set whose bits are below `2 ^ 34 - 8` is read back off its encoding;
    the encoding depends on the bits alone and does not end in a zero byte; and accepted bytes
    are encoded again without the zero bytes at their end and with the shortest size. -/
theorem codec_exact (order : ByteOrder) :
    (∀ bs : PvaBitSet, (∀ i, bs.isSet i = true → i < 2 ^ 34 - 8) →
      ∃ bs' : PvaBitSet, (∀ i, bs'.isSet i = bs.isSet i) ∧
        Yields order decode (bs.encode order) bs') ∧
    (∀ a b : PvaBitSet, (∀ i, a.isSet i = b.isSet i) → a.encode order = b.encode order) ∧
    (∀ bs : PvaBitSet, ∃ raw, bs.encode order = Write.size order raw.length ++ raw ∧
      raw.getLast? ≠ some 0) ∧
    ∀ r bs r', decode r = (.ok bs, r') →
      ∃ n r₁ raw, Read.sizeNonNull r = (.ok n, r₁) ∧ Read.bytes n r₁ = (.ok raw, r') ∧
        bs.encode order = Write.size order (trim raw).length ++ trim raw := by
  refine ⟨fun bs h => ?_, fun a b h => ?_, fun bs => ?_, fun r bs r' h => ?_⟩
  · have hlen : (minBytes bs.value).length ≤ 2 ^ 31 - 1 := length_minBytes_value_le h
    refine ⟨ofBytes (minBytes bs.value), isSet_ofBytes_minBytes bs, ?_⟩
    rw [encode_eq]
    exact yields_ofBytes order (by omega)
  · rw [encode_eq, encode_eq, value_eq_of_isSet h]
  · exact ⟨minBytes bs.value, encode_eq order bs, getLast?_minBytes _⟩
  · obtain ⟨n, r₁, raw, hsize, hraw, hbs⟩ := decode_eq_ok h
    refine ⟨n, r₁, raw, hsize, hraw, ?_⟩
    rw [encode_eq, hbs, value_ofBytes, minBytes_leNat]

theorem codec_exact_overflow :
    (∀ i, (fromBits [3, 130]).isSet i = true → i < 2 ^ 34 - 8) ∧
      ∃ bs' : PvaBitSet, (∀ i, bs'.isSet i = (fromBits [3, 130]).isSet i) ∧
        Yields .bigEndian decode ((fromBits [3, 130]).encode .bigEndian) bs' := by
  have hbits : ∀ i, (fromBits [3, 130]).isSet i = true → i < 2 ^ 34 - 8 := by
    intro i hi
    rw [isSet_fromBits, decide_eq_true_iff] at hi
    simp only [List.mem_cons, List.not_mem_nil, or_false] at hi
    omega
  exact ⟨hbits, (codec_exact .bigEndian).1 (fromBits [3, 130]) hbits⟩

example : (fromBits [3, 130]).encode .bigEndian =
    [17, 8, 0, 0, 0, 0, 0, 0, 0, 0, 0, 0, 0, 0, 0, 0, 0, 4] := by decide +kernel

/-! ## Sizes that do not fit -/

/-- A size from `2 ^ 31` on reads as a negative number. -/
theorem encode_oversize (order : ByteOrder) {i : ℕ} (hi : i / 8 + 1 = 2 ^ 31) (rest : List UInt8) :
    (decode (.at order [] ((new.set i).encode order ++ rest))).1 =
      .error (.invalidSize (-2147483648)) := by
  have hset : ∀ j, (new.set i).isSet j = true ↔ j = i := by
    intro j
    rw [isSet_set, isSet_new, Bool.false_or, decide_eq_true_iff]
  have hlen : (minBytes (new.set i).value).length = 2 ^ 31 := by
    refine Nat.le_antisymm (length_minBytes_value_le fun j hj => ?_) ?_
    · rw [(hset j).1 hj]
      omega
    · have hlt := lt_length_minBytes_value ((hset i).2 rfl)
      omega
  have hneg : Int32.ofNat (2 ^ 31) < 0 := by decide
  rw [encode_eq, hlen, List.append_assoc]
  unfold decode Read.sizeNonNull
  rw [Read.run_bind, Read.run_bind, size_negative order (by decide) hneg]
  rfl

/-- The bound of the round trip is not `2 ^ 34`: the last eight bits below it take a size of
    `2 ^ 31` bytes. -/
theorem codec_bound_inexact : ¬∀ (order : ByteOrder) (bs : PvaBitSet),
    (∀ i, bs.isSet i = true → i < 2 ^ 34) →
      ∃ bs' : PvaBitSet, (∀ i, bs'.isSet i = bs.isSet i) ∧
        Yields order decode (bs.encode order) bs' := by
  intro h
  have hbits : ∀ j, (new.set (2 ^ 34 - 1)).isSet j = true → j < 2 ^ 34 := by
    intro j hj
    rw [isSet_set, isSet_new, Bool.false_or, decide_eq_true_iff] at hj
    omega
  obtain ⟨bs', -, hyields⟩ := h .littleEndian (new.set (2 ^ 34 - 1)) hbits
  have hfail := encode_oversize .littleEndian (i := 2 ^ 34 - 1) (by norm_num) []
  rw [hyields] at hfail
  cases hfail

end PvaBitSet

end AuraEpics.Codec

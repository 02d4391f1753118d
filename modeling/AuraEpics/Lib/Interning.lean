import Mathlib.Data.List.Nodup
import Mathlib.Data.List.Perm.Subperm
import Mathlib.Tactic.Common

/-!
# Tables that number names

A table gives a name a number of a sequence when it is first offered. The sequence is not part of
any transaction: every name offered draws a number, also one that has a number and also one of a
statement that fails, and where the sequence is at its end an offer fails.

* `offer`, `offerAll`: statements with one name and with several, which are done as a whole;
* `Extends`: a later state of a table;
* `Copy`: a partial map all of whose entries are rows of a table.

Results:
* `find_injective` and the fields of `Table`: a name has one number and a number one name;
* `Copy.eq_iff`, copies made at different times agree on what both have.
-/

namespace Interning

variable {ν : Type*} {limit : ℕ}

/-- A table with the numbers drawn so far; its rows are in the order of their numbers. -/
@[ext] structure Table (ν : Type*) (limit : ℕ) where
  rows : List (ν × ℕ)
  drawn : ℕ
  names : (rows.map Prod.fst).Nodup
  sorted : rows.Pairwise fun r s => r.2 < s.2
  within : ∀ r ∈ rows, 0 < r.2 ∧ r.2 ≤ drawn
  bounded : drawn ≤ limit

namespace Table

/-- The empty table. -/
def empty : Table ν limit := ⟨[], 0, List.nodup_nil, .nil, fun _ h => absurd h List.not_mem_nil,
  Nat.zero_le _⟩

/-- The table after `n` more draws. -/
def draw (t : Table ν limit) (n : ℕ) (h : t.drawn + n ≤ limit) : Table ν limit :=
  { t with
    drawn := t.drawn + n
    within := fun r hr => ⟨(t.within r hr).1, Nat.le_add_right_of_le (t.within r hr).2⟩
    bounded := h }

/-- The table with its sequence at the end. -/
def exhaust (t : Table ν limit) : Table ν limit :=
  { t with
    drawn := limit
    within := fun r hr => ⟨(t.within r hr).1, Nat.le_trans (t.within r hr).2 t.bounded⟩
    bounded := Nat.le_refl _ }

/-- The table with a new name under the next number. -/
def add (t : Table ν limit) (name : ν) (hnew : name ∉ t.rows.map Prod.fst)
    (hroom : t.drawn < limit) : Table ν limit where
  rows := t.rows ++ [(name, t.drawn + 1)]
  drawn := t.drawn + 1
  names := by
    rw [List.map_append]
    exact List.nodup_append'.2 ⟨t.names, List.nodup_singleton _,
      List.disjoint_singleton.2 hnew⟩
  sorted := by
    refine List.pairwise_append.2 ⟨t.sorted, List.pairwise_singleton _ _, fun r hr s hs => ?_⟩
    rw [List.mem_singleton.1 hs]
    exact Nat.lt_succ_of_le (t.within r hr).2
  within := by
    intro r hr
    obtain hr | hr := List.mem_append.1 hr
    · exact ⟨(t.within r hr).1, Nat.le_succ_of_le (t.within r hr).2⟩
    · rw [List.mem_singleton.1 hr]
      exact ⟨Nat.succ_pos _, Nat.le_refl _⟩
  bounded := hroom

/-- The second table is a later state of the first. -/
structure Extends (t t' : Table ν limit) : Prop where
  rows : t.rows <+: t'.rows
  drawn : t.drawn ≤ t'.drawn

theorem Extends.refl (t : Table ν limit) : Extends t t := ⟨List.prefix_rfl, Nat.le_refl _⟩

theorem Extends.trans {t t' t'' : Table ν limit} (h : Extends t t') (h' : Extends t' t'') :
    Extends t t'' :=
  ⟨h.rows.trans h'.rows, Nat.le_trans h.drawn h'.drawn⟩

variable [DecidableEq ν]

/-- The number of a name. -/
def find (t : Table ν limit) (name : ν) : Option ℕ := t.rows.lookup name

theorem find_eq_none {t : Table ν limit} {name : ν} :
    t.find name = none ↔ name ∉ t.rows.map Prod.fst := by
  unfold find
  rw [List.lookup_eq_none_iff]
  simp only [List.mem_map, Prod.exists, exists_and_right, exists_eq_right, not_exists]
  constructor
  · intro h number hmem
    have := h (name, number) hmem
    simp at this
  · rintro h ⟨other, number⟩ hmem
    have hne : name ≠ other := by
      rintro rfl
      exact h number hmem
    simpa using hne

theorem lookup_eq_some_iff {rows : List (ν × ℕ)} (hnodup : (rows.map Prod.fst).Nodup) {name : ν}
    {number : ℕ} : rows.lookup name = some number ↔ (name, number) ∈ rows := by
  induction rows with
  | nil => simp
  | cons r rows ih =>
    obtain ⟨other, n⟩ := r
    rw [List.map_cons, List.nodup_cons] at hnodup
    rw [List.lookup_cons, List.mem_cons, Prod.mk.injEq]
    by_cases heq : name = other
    · subst heq
      have hnot : (name, number) ∉ rows :=
        fun hmem => hnodup.1 (List.mem_map.2 ⟨(name, number), hmem, rfl⟩)
      simp [hnot, eq_comm]
    · have hbeq : (name == other) = false := by simpa using heq
      simp only [hbeq, ih hnodup.2, heq, false_and, false_or]

theorem find_eq_some {t : Table ν limit} {name : ν} {number : ℕ} :
    t.find name = some number ↔ (name, number) ∈ t.rows :=
  lookup_eq_some_iff t.names

/-- A number has one name. -/
theorem find_injective {t : Table ν limit} {a b : ν} {number : ℕ} (ha : t.find a = some number)
    (hb : t.find b = some number) : a = b := by
  rw [find_eq_some] at ha hb
  have hnumbers : (t.rows.map Prod.snd).Nodup :=
    List.pairwise_map.2 (t.sorted.imp Nat.ne_of_lt)
  exact (Prod.mk.inj (List.inj_on_of_nodup_map hnumbers ha hb rfl)).1

/-- Names that have numbers are the same exactly if the numbers are. -/
theorem find_eq_iff {t : Table ν limit} {a b : ν} {m n : ℕ} (ha : t.find a = some m)
    (hb : t.find b = some n) : a = b ↔ m = n := by
  constructor
  · rintro rfl
    exact Option.some.inj (ha.symm.trans hb)
  · rintro rfl
    exact find_injective ha hb

/-- One name offered: its number, or none where the sequence is at its end. -/
def offer (t : Table ν limit) (name : ν) : Option ℕ × Table ν limit :=
  if hroom : t.drawn < limit then
    match hfind : t.find name with
    | some number => (some number, t.draw 1 hroom)
    | none => (some (t.drawn + 1), t.add name (find_eq_none.1 hfind) hroom)
  else (none, t)

/-- Several names offered as a whole. -/
def offerAll (t : Table ν limit) (names : List ν) : Bool × Table ν limit :=
  if t.drawn + names.length ≤ limit then (true, names.foldl (fun t name => (t.offer name).2) t)
  else (false, t.exhaust)

/-- What is numbered stays so. -/
theorem Extends.find {t t' : Table ν limit} (h : Extends t t') {name : ν} {number : ℕ}
    (hfind : t.find name = some number) : t'.find name = some number :=
  find_eq_some.2 (h.rows.subset (find_eq_some.1 hfind))

/-- What an offer does. -/
structure OfferSpec (t : Table ν limit) (name : ν) (answer : Option ℕ) (t' : Table ν limit) :
    Prop where
  extend : Extends t t'
  drawn : t'.drawn = min limit (t.drawn + 1)
  some_iff : answer.isSome ↔ t.drawn < limit
  found : ∀ number, answer = some number → t'.find name = some number
  others : ∀ other, other ≠ name → t'.find other = t.find other

theorem offer_spec (t : Table ν limit) (name : ν) :
    OfferSpec t name (t.offer name).1 (t.offer name).2 := by
  unfold offer
  by_cases hroom : t.drawn < limit
  · rw [dif_pos hroom]
    have hmin : t.drawn + 1 = min limit (t.drawn + 1) := (Nat.min_eq_right hroom).symm
    split
    · rename_i number hfind
      refine ⟨⟨List.prefix_rfl, Nat.le_succ _⟩, hmin, by simp [hroom], ?_, fun _ _ => rfl⟩
      rintro _ ⟨rfl⟩
      exact hfind
    · rename_i hfind
      refine ⟨⟨List.prefix_append _ _, Nat.le_succ _⟩, hmin, by simp [hroom], ?_, ?_⟩
      · rintro _ ⟨rfl⟩
        exact find_eq_some.2 (List.mem_append_right _ (List.mem_singleton_self _))
      · intro other hne
        have hbeq : (other == name) = false := by simpa using hne
        show (t.rows ++ [(name, t.drawn + 1)]).lookup other = t.rows.lookup other
        rw [List.lookup_append, List.lookup_cons, hbeq]
        simp
  · rw [dif_neg hroom]
    refine ⟨.refl t, ?_, by simp [hroom], fun _ h => absurd h (Option.some_ne_none _).symm,
      fun _ _ => rfl⟩
    have := t.bounded
    show t.drawn = _
    omega

theorem offers_spec (names : List ν) (t : Table ν limit) :
    let t' := names.foldl (fun t name => (t.offer name).2) t
    Extends t t' ∧ t'.drawn = min limit (t.drawn + names.length) ∧
      (t.drawn + names.length ≤ limit → ∀ name ∈ names, (t'.find name).isSome) ∧
      ∀ other, other ∉ names → t'.find other = t.find other := by
  induction names generalizing t with
  | nil => exact ⟨.refl t, (Nat.min_eq_right t.bounded).symm, fun _ _ h => absurd h List.not_mem_nil,
      fun _ _ => rfl⟩
  | cons name names ih =>
    have hoffer := offer_spec t name
    obtain ⟨hextend, hdrawn, hfound, hothers⟩ := ih (t.offer name).2
    refine ⟨hoffer.extend.trans hextend, ?_, fun hroom other hother => ?_, fun other hother => ?_⟩
    · show Table.drawn (names.foldl _ (t.offer name).2) = _
      rw [hdrawn, hoffer.drawn, List.length_cons]
      omega
    · rw [List.length_cons] at hroom
      obtain rfl | hother := List.mem_cons.1 hother
      · have hsome : (t.offer other).1.isSome := hoffer.some_iff.2 (by omega)
        obtain ⟨number, hnumber⟩ := Option.isSome_iff_exists.1 hsome
        exact Option.isSome_iff_exists.2 ⟨number, hextend.find (hoffer.found number hnumber)⟩
      · refine hfound ?_ other hother
        rw [hoffer.drawn]
        omega
    · rw [List.mem_cons, not_or] at hother
      exact (hothers other hother.2).trans (hoffer.others other hother.1)

/-- What a statement with several names does. -/
theorem offerAll_spec (t : Table ν limit) (names : List ν) :
    Extends t (t.offerAll names).2 ∧
      (t.offerAll names).2.drawn = min limit (t.drawn + names.length) ∧
      ((t.offerAll names).1 = true → ∀ name ∈ names, ((t.offerAll names).2.find name).isSome) ∧
      ∀ other, other ∉ names → (t.offerAll names).2.find other = t.find other := by
  unfold offerAll
  by_cases hroom : t.drawn + names.length ≤ limit
  · rw [if_pos hroom]
    obtain ⟨hextend, hdrawn, hfound, hothers⟩ := offers_spec names t
    exact ⟨hextend, hdrawn, fun _ => hfound hroom, hothers⟩
  · rw [if_neg hroom]
    refine ⟨⟨List.prefix_rfl, t.bounded⟩, ?_, fun h => absurd h Bool.false_ne_true, fun _ _ => rfl⟩
    show limit = _
    omega

omit [DecidableEq ν] in
theorem length_le_drawn (t : Table ν limit) : t.rows.length ≤ t.drawn := by
  have hnodup : (t.rows.map Prod.snd).Nodup := List.pairwise_map.2 (t.sorted.imp Nat.ne_of_lt)
  have hsub : t.rows.map Prod.snd ⊆ List.range' 1 t.drawn := by
    intro number hnumber
    obtain ⟨r, hr, rfl⟩ := List.mem_map.1 hnumber
    have := t.within r hr
    exact List.mem_range'_1.2 (by omega)
  have hlen := (List.subperm_of_subset hnodup hsub).length_le
  rwa [List.length_map, List.length_range'] at hlen

end Table

/-! ## Copies -/

section Copies

variable [DecidableEq ν] {t t' : Table ν limit} {f g : ν → Option ℕ}

/-- Every entry of the map is a row of the table. -/
def Copy (t : Table ν limit) (f : ν → Option ℕ) : Prop :=
  ∀ name number, f name = some number → t.find name = some number

theorem Copy.mono (h : Copy t f) (hextend : t.Extends t') : Copy t' f :=
  fun name number hf => hextend.find (h name number hf)

/-- Two copies give a name one number and a number one name. -/
theorem Copy.eq_iff (hf : Copy t f) (hg : Copy t g) {a b : ν} {m n : ℕ} (ha : f a = some m)
    (hb : g b = some n) : a = b ↔ m = n :=
  Table.find_eq_iff (hf a m ha) (hg b n hb)

/-- The number of a name put into a copy. -/
theorem Copy.insert (h : Copy t f) {name : ν} {number : ℕ} (hfind : t.find name = some number) :
    Copy t (Function.update f name (some number)) := by
  intro other n hother
  by_cases heq : other = name
  · subst heq
    rw [Function.update_self] at hother
    rw [← hother]
    exact hfind
  · rw [Function.update_of_ne heq] at hother
    exact h other n hother

end Copies

end Interning

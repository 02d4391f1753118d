import Mathlib.Data.List.Induction
import Mathlib.Logic.Function.Basic

/-!
# Histories of keyed values

A history is a list of key-value pairs, oldest first.

* `latest l k`: the value last given for `k`;
* `distinctKeys l`: the keys in the order of their first appearance.
-/

namespace Latest

variable {K V : Type} [DecidableEq K]

/-- The value the history last gives for `k`. -/
def latest (l : List (K × V)) (k : K) : Option V := l.reverse.lookup k

/-- The keys of the history, each once, in the order of their first appearance. -/
def distinctKeys (l : List (K × V)) : List K := (l.map Prod.fst).eraseDups

@[simp] theorem latest_nil (k : K) : latest ([] : List (K × V)) k = none := rfl

theorem latest_concat (l : List (K × V)) (e : K × V) (k : K) :
    latest (l ++ [e]) k = if k = e.1 then some e.2 else latest l k := by
  unfold latest
  rw [List.reverse_append, List.reverse_singleton, List.singleton_append, List.lookup_cons]
  by_cases h : k = e.1
  · simp [h]
  · have hne : (k == e.1) = false := beq_eq_false_iff_ne.2 h
    rw [hne, if_neg h]

theorem latest_append (l l' : List (K × V)) (k : K) :
    latest (l ++ l') k = (latest l' k).or (latest l k) := by
  induction l' using List.reverseRecOn with
  | nil => simp
  | append_singleton l' e ih =>
    rw [← List.append_assoc, latest_concat, latest_concat, ih]
    split_ifs <;> rfl

theorem latest_eq_none_iff {l : List (K × V)} {k : K} :
    latest l k = none ↔ k ∉ l.map Prod.fst := by
  induction l using List.reverseRecOn with
  | nil => simp
  | append_singleton l e ih =>
    rw [latest_concat]
    split_ifs with h
    · simp [h]
    · simp only [ih, List.map_append, List.map_cons, List.map_nil, List.mem_append,
        List.mem_singleton, h, or_false]

theorem latest_isSome_iff {l : List (K × V)} {k : K} :
    (latest l k).isSome ↔ k ∈ l.map Prod.fst := by
  rw [Option.isSome_iff_ne_none, Ne, latest_eq_none_iff, not_not]

theorem mem_of_latest {l : List (K × V)} {k : K} {v : V} (h : latest l k = some v) :
    (k, v) ∈ l := by
  induction l using List.reverseRecOn with
  | nil => cases h
  | append_singleton l e ih =>
    rw [latest_concat] at h
    split_ifs at h with hk
    · cases h
      rw [hk]
      simp
    · exact List.mem_append_left _ (ih h)

/-- A key whose values all agree. -/
theorem latest_eq_some {l : List (K × V)} {k : K} {v : V} (hmem : (k, v) ∈ l)
    (hval : ∀ v', (k, v') ∈ l → v' = v) : latest l k = some v := by
  cases h : latest l k with
  | none => exact absurd (List.mem_map_of_mem hmem) (latest_eq_none_iff.1 h)
  | some v' => rw [hval v' (mem_of_latest h)]

theorem mem_distinctKeys {l : List (K × V)} {k : K} :
    k ∈ distinctKeys l ↔ k ∈ l.map Prod.fst := List.mem_eraseDups

theorem distinctKeys_concat_of_mem {l : List (K × V)} {e : K × V} (h : e.1 ∈ l.map Prod.fst) :
    distinctKeys (l ++ [e]) = distinctKeys l := by
  unfold distinctKeys
  rw [List.map_append, List.eraseDups_append]
  simp [List.removeAll, h]

theorem distinctKeys_concat_of_notMem {l : List (K × V)} {e : K × V} (h : e.1 ∉ l.map Prod.fst) :
    distinctKeys (l ++ [e]) = distinctKeys l ++ [e.1] := by
  unfold distinctKeys
  rw [List.map_append, List.eraseDups_append]
  simp [List.removeAll, h, List.eraseDups_cons]

/-- A table in which the pairs are put one after another, where the second value put for a key
    makes of the row what it makes of the row before the first. -/
theorem foldl_update_apply {R : Type} {f : Option R → V → R}
    (hf : ∀ r v v', f (some (f r v)) v' = f r v') (t : K → Option R) (l : List (K × V)) (k : K) :
    (l.foldl (fun (t : K → Option R) e => Function.update t e.1 (some (f (t e.1) e.2))) t) k =
      (latest l k).elim (t k) fun v => some (f (t k) v) := by
  induction l using List.reverseRecOn with
  | nil => rfl
  | append_singleton l e ih =>
    rw [List.foldl_append, latest_concat]
    show Function.update _ e.1 _ k = _
    by_cases hk : k = e.1
    · subst hk
      rw [Function.update_self, if_pos rfl, ih, Option.elim_some]
      cases latest l e.1 with
      | none => rfl
      | some v => exact congrArg some (hf (t e.1) v e.2)
    · rw [Function.update_of_ne hk, if_neg hk, ih]

end Latest

import Mathlib.Data.List.AList

/-!
# Answers matched to what is pending by a key

A table holds what waits for an answer under keys. An answer names a key: what is pending under
it is taken out of the table and done, and a key that is not in the table is passed over.

Results:
* `answerAll_perm`, what is done are the entries of the table that some answer names;
* `done_perm` and `done_subperm`, the same for the entries put into a new table, where the keys
  are distinct and where they are not.
-/

namespace Pending

variable {κ υ : Type*} [DecidableEq κ]

/-- What is pending, by its key. -/
abbrev Table (κ υ : Type*) := AList fun _ : κ => υ

/-- Entries put into a table one after the other; a later one replaces an earlier. -/
def register (t : Table κ υ) (entries : List (κ × υ)) : Table κ υ :=
  entries.foldl (fun t e => t.insert e.1 e.2) t

theorem register_append (t : Table κ υ) (entries entries' : List (κ × υ)) :
    register t (entries ++ entries') = register (register t entries) entries' :=
  List.foldl_append

/-- One answer: the table and what is done after it. -/
def answer (p : Table κ υ × List υ) (k : κ) : Table κ υ × List υ :=
  match p.1.lookup k with
  | some v => (p.1.erase k, p.2 ++ [v])
  | none => p

/-- Some answers. -/
def answerAll (p : Table κ υ × List υ) (ks : List κ) : Table κ υ × List υ := ks.foldl answer p

theorem answerAll_append (p : Table κ υ × List υ) (ks ks' : List κ) :
    answerAll p (ks ++ ks') = answerAll (answerAll p ks) ks' :=
  List.foldl_append

/-- The values of the entries whose key is named. -/
def named (t : Table κ υ) (ks : List κ) : List υ :=
  (t.entries.filter fun e => decide (e.1 ∈ ks)).map Sigma.snd

/-- An entry is the first of its table, up to the order. -/
theorem entries_perm {t : Table κ υ} {k : κ} {v : υ} (h : t.lookup k = some v) :
    t.entries.Perm (⟨k, v⟩ :: (t.erase k).entries) := by
  have hmem : k ∈ t.entries.keys := by
    rw [← List.dlookup_isSome]
    show (t.lookup k).isSome
    rw [h]
    rfl
  obtain ⟨v', before, after, -, hentries, herase⟩ := List.exists_of_kerase hmem
  have hvalue : v' = v := by
    have hfound : t.lookup k = some v' :=
      AList.mem_lookup_iff.2 (hentries ▸ List.mem_append_right _ List.mem_cons_self)
    exact Option.some.inj (hfound.symm.trans h)
  subst hvalue
  show t.entries.Perm (_ :: List.kerase k t.entries)
  rw [herase, hentries]
  exact List.perm_middle

theorem named_cons_of_lookup {t : Table κ υ} {k : κ} {v : υ} (ks : List κ)
    (h : t.lookup k = some v) : (named t (k :: ks)).Perm (v :: named (t.erase k) ks) := by
  let names : ((_ : κ) × υ) → Bool := fun e => decide (e.1 ∈ k :: ks)
  have hhead : names ⟨k, v⟩ = true := decide_eq_true List.mem_cons_self
  refine (((entries_perm h).filter names).map Sigma.snd).trans ?_
  rw [List.filter_cons_of_pos hhead, List.map_cons]
  refine List.Perm.cons v (List.Perm.of_eq (congrArg (List.map _) ?_))
  refine List.filter_congr fun e he => decide_eq_decide.2 ?_
  -- what is left in the table has another key
  have hne : e.1 ≠ k := by
    rintro rfl
    have hin : e.1 ∈ (t.erase e.1) := AList.mem_keys.2 (List.mem_map_of_mem he)
    exact (AList.mem_erase.1 hin).1 rfl
  rw [List.mem_cons]
  exact or_iff_right hne

theorem named_cons_of_not_mem {t : Table κ υ} {k : κ} (ks : List κ) (h : t.lookup k = none) :
    named t (k :: ks) = named t ks := by
  refine congrArg (List.map _) (List.filter_congr fun e he => decide_eq_decide.2 ?_)
  have hne : e.1 ≠ k := by
    rintro rfl
    exact AList.lookup_eq_none.1 h (AList.mem_keys.2 (List.mem_map_of_mem he))
  rw [List.mem_cons]
  exact or_iff_right hne

/-- The answers take the entries they name out of the table, in some order. -/
theorem answerAll_perm (t : Table κ υ) (out : List υ) (ks : List κ) :
    (answerAll (t, out) ks).2.Perm (out ++ named t ks) := by
  induction ks generalizing t out with
  | nil =>
    show out.Perm (out ++ named t [])
    have hnone : named t ([] : List κ) = [] := by simp [named]
    rw [hnone, List.append_nil]
  | cons k ks ih =>
    show (answerAll (answer (t, out) k) ks).2.Perm _
    unfold answer
    cases h : t.lookup k with
    | none =>
      rw [named_cons_of_not_mem ks h]
      exact ih t out
    | some v =>
      refine (ih (t.erase k) (out ++ [v])).trans ?_
      rw [List.append_assoc]
      exact (named_cons_of_lookup ks h).symm.append_left out

/-! ## What was registered -/

/-- Values registered are values of the entries, each at most as often. -/
theorem register_subperm (t : Table κ υ) (entries : List (κ × υ)) :
    ((register t entries).entries.map Sigma.snd).Subperm
      (t.entries.map Sigma.snd ++ entries.map Prod.snd) := by
  induction entries generalizing t with
  | nil =>
    show (t.entries.map Sigma.snd).Subperm _
    rw [List.map_nil, List.append_nil]
  | cons e entries ih =>
    refine (ih (t.insert e.1 e.2)).trans ?_
    rw [AList.entries_insert, List.map_cons, List.map_cons, List.cons_append]
    have herase : ((List.kerase e.1 t.entries).map Sigma.snd).Sublist (t.entries.map Sigma.snd) :=
      (List.kerase_sublist e.1 t.entries).map _
    refine List.Subperm.trans ?_ List.perm_middle.symm.subperm
    exact ((herase.append_right _).cons_cons e.2).subperm

/-- With distinct keys nothing is replaced. -/
theorem register_perm {t : Table κ υ} {entries : List (κ × υ)}
    (hnodup : (entries.map Prod.fst).Nodup) (hnew : ∀ e ∈ entries, e.1 ∉ t) :
    (register t entries).entries.Perm
      (t.entries ++ entries.map fun e => (⟨e.1, e.2⟩ : (_ : κ) × υ)) := by
  induction entries generalizing t with
  | nil =>
    show t.entries.Perm _
    rw [List.map_nil, List.append_nil]
  | cons e entries ih =>
    rw [List.map_cons, List.nodup_cons] at hnodup
    have hnew' : ∀ e' ∈ entries, e'.1 ∉ t.insert e.1 e.2 := by
      intro e' he' hin
      obtain heq | hin := (AList.mem_insert t).1 hin
      · exact hnodup.1 (heq ▸ List.mem_map_of_mem he')
      · exact hnew e' (List.mem_cons_of_mem _ he') hin
    refine (ih hnodup.2 hnew').trans ?_
    rw [AList.entries_insert_of_notMem (hnew e List.mem_cons_self), List.map_cons,
      List.cons_append]
    exact List.perm_middle.symm

/-- Of a new table with distinct keys the answers take the entries they name. -/
theorem done_perm {entries : List (κ × υ)} (hnodup : (entries.map Prod.fst).Nodup) (ks : List κ) :
    (answerAll (register ∅ entries, []) ks).2.Perm
      ((entries.filter fun e => decide (e.1 ∈ ks)).map Prod.snd) := by
  refine (answerAll_perm _ [] ks).trans ?_
  have hperm := register_perm (t := ∅) hnodup fun e _ => AList.notMem_empty e.1
  refine ((hperm.filter fun e => decide (e.1 ∈ ks)).map Sigma.snd).trans (List.Perm.of_eq ?_)
  rw [AList.empty_entries, List.nil_append, List.filter_map, List.map_map]
  rfl

/-- Whatever the keys, nothing is done that was not registered, nor more often. -/
theorem done_subperm (entries : List (κ × υ)) (ks : List κ) :
    (answerAll (register ∅ entries, []) ks).2.Subperm (entries.map Prod.snd) := by
  refine (answerAll_perm _ [] ks).subperm.trans ?_
  have hsub : (named (register ∅ entries) ks).Subperm
      ((register ∅ entries).entries.map Sigma.snd) :=
    (List.Sublist.map _ List.filter_sublist).subperm
  exact hsub.trans (register_subperm ∅ entries)

end Pending

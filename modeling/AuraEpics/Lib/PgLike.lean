import Mathlib.Data.List.Infix
import AuraEpics.Lib.Substitution

/-!
# Patterns of LIKE

PostgreSQL's `LIKE`: `%` stands for any text, `_` for any character, and a backslash for the
character after it. A backslash at the end is an error there and matches nothing here.

* `escapes`: the replacements that make a text stand for itself.

Results:
* `like_flatMap_escape`, an escaped text matches itself and nothing else;
* `like_contains_iff`, between two `%` it matches what contains the text.
-/

namespace PgLike

open Substitution

/-- Whether a text matches a pattern. -/
def like : List Char → List Char → Bool
  | [], t => t.isEmpty
  | c :: p, t =>
    if c = '%' then t.tails.any (like p)
    else if c = '_' then
      match t with
      | [] => false
      | _ :: t => like p t
    else if c = '\\' then
      match p with
      | [] => false
      | e :: p =>
        match t with
        | [] => false
        | x :: t => x == e && like p t
    else
      match t with
      | [] => false
      | x :: t => x == c && like p t

/-- A backslash is put before the characters that have a meaning. -/
def escapes : List (Char × List Char) :=
  [('\\', ['\\', '\\']), ('%', ['\\', '%']), ('_', ['\\', '_'])]

theorem pairwise_escapes : escapes.Pairwise fun p q => q.1 ∉ p.2 := by decide

/-! ## Matching -/

theorem like_percent (p t : List Char) :
    like ('%' :: p) t = true ↔ ∃ u, u <:+ t ∧ like p u = true := by
  have hany : like ('%' :: p) t = t.tails.any (like p) := by
    rw [like.eq_def]
    exact if_pos rfl
  rw [hany, List.any_eq_true]
  simp only [List.mem_tails]

/-- `%` at the end matches anything. -/
theorem like_percent_nil (t : List Char) : like ['%'] t = true :=
  (like_percent [] t).2 ⟨[], List.nil_suffix, rfl⟩

theorem like_backslash (e : Char) (p t : List Char) :
    like ('\\' :: e :: p) t = true ↔ ∃ u, t = e :: u ∧ like p u = true := by
  cases t with
  | nil => simp [like]
  | cons x t => simp [like, and_comm]

theorem like_cons {c : Char} (hc : c ≠ '%' ∧ c ≠ '_' ∧ c ≠ '\\') (p t : List Char) :
    like (c :: p) t = true ↔ ∃ u, t = c :: u ∧ like p u = true := by
  obtain ⟨hpercent, hunderscore, hbackslash⟩ := hc
  rw [like.eq_def]
  dsimp only
  rw [if_neg hpercent, if_neg hunderscore, if_neg hbackslash]
  cases t with
  | nil => simp
  | cons x t => simp

/-- What is made of a character matches that character. -/
theorem like_image (c : Char) (p t : List Char) :
    like (image escapes c ++ p) t = true ↔ ∃ u, t = c :: u ∧ like p u = true := by
  by_cases hspecial : c = '\\' ∨ c = '%' ∨ c = '_'
  · have himage : image escapes c = ['\\', c] := by
      rcases hspecial with rfl | rfl | rfl <;> rfl
    rw [himage]
    exact like_backslash c p t
  · push Not at hspecial
    obtain ⟨hbackslash, hpercent, hunderscore⟩ := hspecial
    have himage : image escapes c = [c] := by
      unfold escapes
      rw [image_cons_of_ne hbackslash, image_cons_of_ne hpercent, image_cons_of_ne hunderscore]
      rfl
    rw [himage]
    exact like_cons ⟨hpercent, hunderscore, hbackslash⟩ p t

/-- An escaped text matches itself. -/
theorem like_flatMap_escape (s p t : List Char) :
    like (s.flatMap (image escapes) ++ p) t = true ↔ ∃ u, t = s ++ u ∧ like p u = true := by
  induction s generalizing t with
  | nil => simp
  | cons c s ih =>
    rw [List.flatMap_cons, List.append_assoc, like_image]
    constructor
    · rintro ⟨v, rfl, hv⟩
      obtain ⟨u, rfl, hu⟩ := (ih v).1 hv
      exact ⟨u, rfl, hu⟩
    · rintro ⟨u, rfl, hu⟩
      exact ⟨s ++ u, rfl, (ih _).2 ⟨u, rfl, hu⟩⟩

/-- Between two `%` an escaped text matches the texts that contain it. -/
theorem like_contains_iff (s t : List Char) :
    like ('%' :: (substitute escapes s ++ ['%'])) t = true ↔ s <:+: t := by
  rw [like_percent, substitute_eq_flatMap pairwise_escapes]
  constructor
  · rintro ⟨v, ⟨pre, rfl⟩, hv⟩
    obtain ⟨u, rfl, -⟩ := (like_flatMap_escape s ['%'] v).1 hv
    exact ⟨pre, u, List.append_assoc ..⟩
  · rintro ⟨pre, post, rfl⟩
    refine ⟨s ++ post, ⟨pre, (List.append_assoc ..).symm⟩, ?_⟩
    exact (like_flatMap_escape s ['%'] _).2 ⟨post, rfl, like_percent_nil post⟩

end PgLike

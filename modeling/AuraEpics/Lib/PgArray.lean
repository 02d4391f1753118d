import Mathlib.Data.List.Basic
import AuraEpics.Lib.Substitution

/-!
# Array literals

The text form PostgreSQL reads an array of texts from: elements between braces, separated by
commas, with space around them. An element in double quotes is what stands between the quotes;
without quotes it ends before a comma or a brace, space at its end is dropped, and the word
NULL is no text. A backslash takes the character after it as it is. Arrays of one dimension
without explicit bounds are read, nothing else is.

* `parse`: the elements of a literal;
* `render`: the literal with every element in quotes.

Result: `parse_render`.
-/

namespace PgArray

open Substitution

/-! ## The grammar -/

/-- The characters that are skipped. -/
def isSpace (c : Char) : Bool :=
  c == ' ' || c == '\t' || c == '\n' || c == '\r' || c == '\x0b' || c == '\x0c'

def skip (s : List Char) : List Char := s.dropWhile isSpace

inductive Token where
  | levelStart
  | levelEnd
  | delim
  | elem (text : List Char)
  | null
  deriving DecidableEq, Repr

/-- A quoted element after its first quote: its text, and what follows its last quote. -/
def quoted : List Char → Option (List Char × List Char)
  | [] => none
  | c :: s =>
    if c = '"' then some ([], s)
    else if c = '\\' then
      match s with
      | [] => none
      | e :: s => (quoted s).map fun r => (e :: r.1, r.2)
    else (quoted s).map fun r => (c :: r.1, r.2)

/-- An unquoted element: its characters, with whether each was escaped, and what follows. -/
def unquoted : List Char → Option (List (Char × Bool) × List Char)
  | [] => none
  | c :: s =>
    if c = ',' ∨ c = '}' then some ([], c :: s)
    else if c = '{' ∨ c = '"' then none
    else if c = '\\' then
      match s with
      | [] => none
      | e :: s => (unquoted s).map fun r => ((e, true) :: r.1, r.2)
    else (unquoted s).map fun r => ((c, false) :: r.1, r.2)

/-- The token of an unquoted element. -/
def ofUnquoted (cs : List (Char × Bool)) : Token :=
  let text := (cs.reverse.dropWhile fun c => !c.2 && isSpace c.1).reverse.map Prod.fst
  if (cs.all fun c => !c.2) ∧ text.map Char.toUpper = ['N', 'U', 'L', 'L'] then .null
  else .elem text

/-- The next token and what follows it. A quoted element is followed by a comma or a brace. -/
def token (s : List Char) : Option (Token × List Char) :=
  match skip s with
  | [] => none
  | c :: s =>
    if c = '{' then some (.levelStart, s)
    else if c = '}' then some (.levelEnd, s)
    else if c = ',' then some (.delim, s)
    else if c = '"' then
      (quoted s).bind fun r =>
        match skip r.2 with
        | [] => none
        | d :: rest =>
          if d = ',' ∨ d = '}' ∨ d = '{' then some (.elem r.1, d :: rest) else none
    else (unquoted (c :: s)).map fun r => (ofUnquoted r.1, r.2)

/-- An element; `none` in the place of a text is NULL. -/
def item (s : List Char) : Option (Option (List Char) × List Char) :=
  match token s with
  | some (.elem text, s) => some (some text, s)
  | some (.null, s) => some (none, s)
  | _ => none

/-- At most `fuel` elements up to the closing brace. -/
def items : ℕ → List Char → Option (List (Option (List Char)) × List Char)
  | 0, _ => none
  | fuel + 1, s =>
    (item s).bind fun r =>
      match token r.2 with
      | some (.delim, s) => (items fuel s).map fun rs => (r.1 :: rs.1, rs.2)
      | some (.levelEnd, s) => some ([r.1], s)
      | _ => none

/-- The elements of a literal. Each takes a character at least, so the length of the literal
    bounds their number. -/
def parse (s : List Char) : Option (List (Option (List Char))) :=
  match token s with
  | some (.levelStart, s) =>
    match token s with
    | some (.levelEnd, rest) => if skip rest = [] then some [] else none
    | _ => (items s.length s).bind fun r => if skip r.2 = [] then some r.1 else none
  | _ => none

/-! ## Writing -/

/-- A backslash is put before the characters that have a meaning between quotes. -/
def escapes : List (Char × List Char) := [('\\', ['\\', '\\']), ('"', ['\\', '"'])]

theorem pairwise_escapes : escapes.Pairwise fun p q => q.1 ∉ p.2 := by decide

/-- An element in quotes. -/
def quote (s : List Char) : List Char := '"' :: (substitute escapes s ++ ['"'])

/-- The literal of a list. -/
def render (xs : List (List Char)) : List Char :=
  '{' :: ([','].intercalate (xs.map quote) ++ ['}'])

/-! ## Reading what is written -/

theorem quoted_cons_escape (c : Char) (s : List Char) :
    quoted (image escapes c ++ s) = (quoted s).map fun r => (c :: r.1, r.2) := by
  by_cases hspecial : c = '\\' ∨ c = '"'
  · have himage : image escapes c = ['\\', c] := by
      rcases hspecial with rfl | rfl <;> rfl
    rw [himage]
    show quoted ('\\' :: c :: s) = _
    rw [quoted.eq_def]
    rfl
  · rw [not_or] at hspecial
    have himage : image escapes c = [c] := by
      unfold escapes
      rw [image_cons_of_ne hspecial.1, image_cons_of_ne hspecial.2]
      rfl
    rw [himage]
    show quoted (c :: s) = _
    rw [quoted.eq_def]
    dsimp only
    rw [if_neg hspecial.2, if_neg hspecial.1]

theorem quoted_escaped (s rest : List Char) :
    quoted (substitute escapes s ++ '"' :: rest) = some (s, rest) := by
  rw [substitute_eq_flatMap pairwise_escapes]
  induction s with
  | nil =>
    show quoted ('"' :: rest) = _
    rw [quoted.eq_def]
    rfl
  | cons c s ih =>
    rw [List.flatMap_cons, List.append_assoc, quoted_cons_escape, ih]
    rfl

/-- An element in quotes is read back, whatever its characters. -/
theorem token_quote (s rest : List Char) {d : Char} (hd : d = ',' ∨ d = '}') :
    token (quote s ++ d :: rest) = some (.elem s, d :: rest) := by
  have hlist : quote s ++ d :: rest = '"' :: (substitute escapes s ++ '"' :: (d :: rest)) := by
    simp [quote]
  have hskip : skip (d :: rest) = d :: rest := by
    rcases hd with rfl | rfl <;> rfl
  rw [hlist]
  show (quoted (substitute escapes s ++ '"' :: (d :: rest))).bind _ = _
  rw [quoted_escaped, Option.bind_some]
  dsimp only
  rw [hskip]
  apply if_pos
  tauto

theorem item_quote (s rest : List Char) {d : Char} (hd : d = ',' ∨ d = '}') :
    item (quote s ++ d :: rest) = some (some s, d :: rest) := by
  unfold item
  rw [token_quote s rest hd]

/-- What follows the first element of a list. -/
theorem join_cons (x : List Char) (xs : List (List Char)) (rest : List Char) :
    ∃ d tail, (d = ',' ∨ d = '}') ∧
      [','].intercalate ((x :: xs).map quote) ++ '}' :: rest = quote x ++ d :: tail := by
  cases xs with
  | nil => exact ⟨'}', rest, .inr rfl, by simp⟩
  | cons y ys =>
    refine ⟨',', [','].intercalate ((y :: ys).map quote) ++ '}' :: rest, .inl rfl, ?_⟩
    simp [List.intercalate_cons_cons]

theorem length_le_join (xs : List (List Char)) :
    xs.length ≤ ([','].intercalate (xs.map quote)).length := by
  induction xs with
  | nil => exact Nat.le_refl 0
  | cons x xs ih =>
    have hquote : 1 ≤ (quote x).length := by simp [quote]
    cases xs with
    | nil => simpa using hquote
    | cons y ys =>
      rw [List.map_cons, List.map_cons, List.intercalate_cons_cons, ← List.map_cons]
      simp only [List.length_append, List.length_cons] at ih ⊢
      omega

theorem items_render (x : List Char) (xs : List (List Char)) {fuel : ℕ} (hfuel : xs.length < fuel)
    (rest : List Char) :
    items fuel ([','].intercalate ((x :: xs).map quote) ++ '}' :: rest) =
      some ((x :: xs).map some, rest) := by
  induction xs generalizing x fuel with
  | nil =>
    obtain ⟨fuel, rfl⟩ := Nat.exists_eq_succ_of_ne_zero (Nat.ne_of_gt hfuel)
    have hjoin : [','].intercalate ([x].map quote) = quote x := List.intercalate_singleton
    rw [hjoin, items, item_quote x rest (.inr rfl)]
    rfl
  | cons y xs ih =>
    obtain ⟨fuel, rfl⟩ := Nat.exists_eq_succ_of_ne_zero (Nat.ne_of_gt (Nat.zero_lt_of_lt hfuel))
    have hjoin : [','].intercalate ((x :: y :: xs).map quote) ++ '}' :: rest =
        quote x ++ ',' :: ([','].intercalate ((y :: xs).map quote) ++ '}' :: rest) := by
      simp [List.intercalate_cons_cons]
    rw [hjoin, items, item_quote x _ (.inl rfl)]
    show ((items fuel ([','].intercalate ((y :: xs).map quote) ++ '}' :: rest)).map _) = _
    rw [ih y (Nat.lt_of_succ_lt_succ hfuel)]
    rfl

/-- A list is read back from its literal. -/
theorem parse_render (xs : List (List Char)) : parse (render xs) = some (xs.map some) := by
  cases xs with
  | nil => decide
  | cons x xs =>
    let body := [','].intercalate ((x :: xs).map quote) ++ ['}']
    have hfirst : ∃ tail, token body = some (.elem x, tail) := by
      obtain ⟨d, tail, hd, hbody⟩ := join_cons x xs []
      exact ⟨d :: tail, (congrArg token hbody).trans (token_quote x tail hd)⟩
    have hfuel : xs.length < body.length := by
      have hlen := length_le_join (x :: xs)
      simp only [body, List.length_append, List.length_cons] at hlen ⊢
      omega
    have hitems : items body.length body = some ((x :: xs).map some, []) :=
      items_render x xs hfuel []
    obtain ⟨tail, htoken⟩ := hfirst
    have hopen : token (render (x :: xs)) = some (.levelStart, body) := rfl
    unfold parse
    rw [hopen]
    dsimp only
    rw [htoken]
    dsimp only
    rw [hitems, Option.bind_some]
    rfl

end PgArray

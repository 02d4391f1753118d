import AuraEpics.Lib.PgLike

/-!
# IOC search

Model of the search pattern of `GET /api/v1/iocs` (`crates/aura-api/src/iocs.rs`, lines
280-292): the query is trimmed and its LIKE metacharacters are escaped by three replacements.
The statement compares with `ILIKE`, here the pattern is matched as it is.

Result: `pattern_like_iff`.
-/

namespace AuraEpics.Api

open PgLike Substitution

/-- `char::is_whitespace`, the property `White_Space` of Unicode. -/
def isWhitespace (c : Char) : Bool :=
  let n := c.toNat
  (0x9 ≤ n && n ≤ 0xD) || n == 0x20 || n == 0x85 || n == 0xA0 || n == 0x1680 ||
    (0x2000 ≤ n && n ≤ 0x200A) || n == 0x2028 || n == 0x2029 || n == 0x202F || n == 0x205F ||
    n == 0x3000

/-- `str::trim`. -/
def trim (s : String) : String :=
  let front := s.toList.dropWhile isWhitespace
  String.ofList (front.reverse.dropWhile isWhitespace).reverse

/-- The replacements of lines 286-289. -/
def escaped (s : String) : String :=
  String.ofList (replace '_' ['\\', '_'] (replace '%' ['\\', '%'] (replace '\\' ['\\', '\\']
    s.toList)))

/-- The pattern of `list` (lines 280-292). -/
def pattern (q : Option String) : Option String :=
  ((q.map trim).filter fun s => s ≠ "").map fun s => "%" ++ escaped s ++ "%"

theorem pattern_some {q : String} (h : trim q ≠ "") :
    pattern (some q) = some ("%" ++ escaped (trim q) ++ "%") := by
  unfold pattern
  rw [Option.map_some, Option.filter_some, if_pos (by simpa using h), Option.map_some]

theorem toList_escaped (s : String) : (escaped s).toList = substitute escapes s.toList :=
  String.toList_ofList

/-- **Main theorem.** The pattern of a query matches the texts that contain the trimmed query
    as it is. -/
theorem pattern_like_iff (q : String) (h : trim q ≠ "") :
    ∃ p, pattern (some q) = some p ∧
      ∀ t : String, like p.toList t.toList = true ↔ (trim q).toList <:+: t.toList := by
  refine ⟨_, pattern_some h, fun t => ?_⟩
  have hlist : ("%" ++ escaped (trim q) ++ "%").toList =
      '%' :: (substitute escapes (trim q).toList ++ ['%']) := by
    have hpercent : "%".toList = ['%'] := by decide +kernel
    rw [String.toList_append, String.toList_append, toList_escaped, hpercent,
      List.append_assoc, List.singleton_append]
  rw [hlist]
  exact like_contains_iff (trim q).toList t.toList

/-- `pattern_like_iff` for a query of metacharacters. -/
theorem pattern_like_iff_special :
    trim " 5%_\\ " = "5%_\\" ∧ ∃ p, pattern (some " 5%_\\ ") = some p ∧
      ∀ t : String, like p.toList t.toList = true ↔
        (trim " 5%_\\ ").toList <:+: t.toList :=
  ⟨by decide +kernel, pattern_like_iff " 5%_\\ " (by decide +kernel)⟩

end AuraEpics.Api

import AuraEpics.Lib.Numeric

/-!
# JSON trees

The value tree of `serde_json` as the store uses it: lookup of a member, the
accessors the table builders call, and the size estimate of the JSON writer
(`crates/aura-store/src/writer/json.rs`, lines 86-108).
-/

namespace AuraEpics.Core

open Numeric

/-- `serde_json::Number`: an integer keeps its sign class, everything else is a
    finite `f64`. -/
inductive JsonNumber where
  | posInt (n : UInt64)
  | negInt (n : Int64)
  | float (x : Binary64)
  deriving DecidableEq, Repr

/-- `serde_json::Value`. The members of an object have distinct names. -/
inductive Json where
  | null
  | bool (b : Bool)
  | number (n : JsonNumber)
  | string (s : String)
  | array (xs : List Json)
  | object (members : List (String × Json))

namespace Json

/-- `Value::get` with a string index. -/
def get (v : Json) (key : String) : Option Json :=
  match v with
  | object ms => (ms.find? fun m => m.1 == key).map Prod.snd
  | _ => none

/-- `Value::as_array`. -/
def asArray : Json → Option (List Json)
  | array xs => some xs
  | _ => none

/-- `Value::as_str`. -/
def asStr : Json → Option String
  | string s => some s
  | _ => none

/-- `Value::as_f64`. -/
def asF64 : Json → Option Binary64
  | number (.posInt n) => some (.ofInt n.toNat)
  | number (.negInt n) => some (.ofInt n.toInt)
  | number (.float x) => some x
  | _ => none

/-- `Value::as_i64`: a positive integer above `i64::MAX` and a float have none. -/
def asI64 : Json → Option Int64
  | number (.posInt n) => if n.toNat < 2 ^ 63 then some n.toInt64 else none
  | number (.negInt n) => some n
  | _ => none

/-- `parsed.get(key).and_then(|v| v.as_array())`. -/
def arrayAt (v : Json) (key : String) : Option (List Json) := (v.get key).bind asArray

mutual

/-- `estimate_json_size` (lines 86-108). -/
def estimateJsonSize : Json → ℕ
  | null => 4
  | bool b => if b then 4 else 5
  | number _ => 8
  | string s => s.utf8ByteSize + 2
  | array xs => 2 + estimateElements xs + (xs.length - 1)
  | object ms => 2 + estimateMembers ms + (ms.length - 1)

/-- The sum over the elements of an array. -/
def estimateElements : List Json → ℕ
  | [] => 0
  | x :: xs => estimateJsonSize x + estimateElements xs

/-- The sum over the members of an object. -/
def estimateMembers : List (String × Json) → ℕ
  | [] => 0
  | (k, v) :: ms => k.utf8ByteSize + 3 + estimateJsonSize v + estimateMembers ms

end

end Json

end AuraEpics.Core

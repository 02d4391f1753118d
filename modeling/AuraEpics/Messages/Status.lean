import AuraEpics.Codec.PvWriter

/-!
# Statuses

Model of `crates/aura-net/src/messages/status.rs`: the status every response carries. A plain OK
is one byte; any other status is a type code, with a bit that says whether a call tree follows,
and one or two strings.

* `Built`: the statuses of the constructors and `with_call_tree`;
* `Exact`: the status is read back off its encoding, and its `wire_size` is the encoding's length.

Results:
* `yields_iff`, only an OK that carries a call tree is not read back: the short form drops it;
* `wireSize_eq_iff`, `wire_size` counts one byte for the size of each string;
* `roundTrip_size_iff`, both together.
-/

namespace AuraEpics.Messages

open Codec

/-- `StatusType` (lines 20-25). -/
inductive StatusType where
  | ok
  | warning
  | error
  | fatal
  deriving DecidableEq, Repr

namespace StatusType

/-- `StatusType::from_code` (lines 28-36). -/
def fromCode (code : UInt8) : Option StatusType :=
  let severity := code &&& 0x07
  if severity = 0 then some .ok
  else if severity = 1 then some .warning
  else if severity = 2 then some .error
  else if severity = 3 then some .fatal
  else none

/-- `StatusType::to_code` (lines 38-45). -/
def toCode : StatusType → UInt8
  | .ok => 0
  | .warning => 1
  | .error => 2
  | .fatal => 3

end StatusType

/-- `STATUS_OK_CODE` and `HAS_CALL_TREE_BIT` (lines 68-69). -/
def statusOkCode : UInt8 := 0xFF
def hasCallTreeBit : UInt8 := 0x08

/-- `{code:02X}`. -/
def hexByte (code : UInt8) : String :=
  let digit := fun n => (Nat.digitChar n).toUpper
  String.ofList [digit (code.toNat / 16), digit (code.toNat % 16)]

/-- `PvaStatus` (lines 73-77). -/
structure PvaStatus where
  statusType : StatusType
  message : String
  callTree : Option String
  deriving DecidableEq, Repr

namespace PvaStatus

/-- The constructors (lines 80-110). -/
def ok : PvaStatus := ⟨.ok, "", none⟩
def warning (message : String) : PvaStatus := ⟨.warning, message, none⟩
def error (message : String) : PvaStatus := ⟨.error, message, none⟩
def fatal (message : String) : PvaStatus := ⟨.fatal, message, none⟩

/-- `PvaStatus::with_call_tree` (lines 112-115). -/
def withCallTree (s : PvaStatus) (tree : String) : PvaStatus := { s with callTree := some tree }

/-- `PvaStatus::is_ok` (lines 125-127). -/
def isOk (s : PvaStatus) : Bool := s.statusType = .ok && s.message.isEmpty

/-- `PvaStatus::decode` (lines 129-150). -/
def decode : Read PvaStatus := do
  let code ← Read.u8
  if code = statusOkCode then return ok
  match StatusType.fromCode code with
  | none => Read.fail (.protocol s!"unknown status type: 0x{hexByte code}")
  | some statusType =>
    let hasCallTree : Bool := code &&& hasCallTreeBit ≠ 0
    let message ← Read.string
    let callTree ← (if hasCallTree then some <$> Read.string else pure none : Read (Option String))
    return { statusType, message, callTree }

/-- The type code `encode` writes (lines 157-160). -/
def code (s : PvaStatus) : UInt8 :=
  let code := s.statusType.toCode
  if s.callTree.isSome then code ||| hasCallTreeBit else code

/-- `PvaStatus::encode` (lines 152-166). -/
def encode (order : ByteOrder) (s : PvaStatus) : List UInt8 :=
  if s.isOk then [statusOkCode]
  else
    [s.code] ++ Write.string order s.message ++
      match s.callTree with
      | some tree => Write.string order tree
      | none => []

/-- `PvaStatus::wire_size` (lines 169-175). -/
def wireSize (s : PvaStatus) : ℕ :=
  if s.isOk then 1
  else
    1 + 1 + s.message.utf8ByteSize +
      match s.callTree with
      | some tree => 1 + tree.utf8ByteSize
      | none => 0

/-- The statuses that the constructors and `with_call_tree` build. -/
inductive Built : PvaStatus → Prop where
  | ok : Built ok
  | warning (message : String) : Built (warning message)
  | error (message : String) : Built (error message)
  | fatal (message : String) : Built (fatal message)
  | withCallTree {s : PvaStatus} (h : Built s) (tree : String) : Built (s.withCallTree tree)

/-- The strings of the status are shorter than `n` bytes. -/
structure Below (n : ℕ) (s : PvaStatus) : Prop where
  message : s.message.utf8ByteSize < n
  callTree : ∀ tree ∈ s.callTree, tree.utf8ByteSize < n

/-- The status is read back off its encoding, and `wire_size` is the length of the encoding. -/
def Exact (order : ByteOrder) (s : PvaStatus) : Prop :=
  Yields order decode (s.encode order) s ∧ s.wireSize = (s.encode order).length

/-! ## Reading back -/

theorem isOk_iff {s : PvaStatus} : s.isOk = true ↔ s.statusType = .ok ∧ s.message = "" := by
  unfold isOk
  rw [Bool.and_eq_true, decide_eq_true_iff, String.isEmpty_iff]

/-- The type code gives back the type and whether there is a call tree. -/
theorem code_spec (s : PvaStatus) :
    s.code ≠ statusOkCode ∧ StatusType.fromCode s.code = some s.statusType ∧
      decide (s.code &&& hasCallTreeBit ≠ 0) = s.callTree.isSome := by
  unfold code
  cases s.statusType <;> cases s.callTree.isSome <;> decide

theorem yields_ok (order : ByteOrder) : Yields order decode [statusOkCode] ok := by
  refine (yields_u8 order statusOkCode).last ?_
  exact Yields.pure ok

theorem yields_of_not_isOk (order : ByteOrder) {s : PvaStatus} (hok : s.isOk ≠ true)
    (hfit : s.Below (2 ^ 31)) : Yields order decode (s.encode order) s := by
  obtain ⟨hcode, htype, htree⟩ := s.code_spec
  unfold decode encode
  rw [if_neg hok, List.append_assoc]
  refine (yields_u8 order s.code).bind ?_
  rw [if_neg hcode, htype]
  dsimp only
  refine (yields_string order hfit.message).bind ?_
  rw [htree]
  cases hs : s.callTree with
  | none =>
    refine (Yields.pure none).last ?_
    rw [← hs]
    exact Yields.pure s
  | some tree =>
    refine ((yields_string order (hfit.callTree tree hs)).map some).last ?_
    rw [← hs]
    exact Yields.pure s

/-- A status whose strings fit is read back, unless it is an OK with a call tree. -/
theorem yields_iff (order : ByteOrder) {s : PvaStatus} (hfit : s.Below (2 ^ 31)) :
    Yields order decode (s.encode order) s ↔ (s.isOk = true → s.callTree = none) := by
  by_cases hok : s.isOk = true
  · have hshort : s.encode order = [statusOkCode] := if_pos hok
    obtain ⟨htype, hmessage⟩ := isOk_iff.1 hok
    rw [hshort]
    constructor
    · -- the short form reads as the plain OK
      intro h _
      have hread := (h [] []).symm.trans (yields_ok order [] [])
      cases hread
      rfl
    · intro h
      have hs : s = ok := by
        cases s with
        | mk statusType message callTree =>
          cases htype
          cases hmessage
          cases h hok
          rfl
      rw [hs]
      exact yields_ok order
  · exact ⟨fun _ h => absurd h hok, fun _ => yields_of_not_isOk order hok hfit⟩

/-! ## Sizes -/

theorem length_size (order : ByteOrder) (n : ℕ) :
    (Write.size order n).length = if n < 254 then 1 else 5 := by
  have hext : Read.sizeExtended.toNat = 254 := rfl
  unfold Write.size
  rw [hext]
  split_ifs
  · rfl
  · simp [Write.i32, ByteOrder.writeI32]

/-- A string takes one byte more than its own, or five more from 254 bytes on. -/
theorem length_string (order : ByteOrder) (s : String) :
    1 + s.utf8ByteSize ≤ (Write.string order s).length ∧
      ((Write.string order s).length = 1 + s.utf8ByteSize ↔ s.utf8ByteSize < 254) := by
  have hlen : s.toByteArray.data.toList.length = s.utf8ByteSize := rfl
  rw [Write.string, List.length_append, length_size, hlen]
  split_ifs <;> omega

theorem Below.mono {m n : ℕ} {s : PvaStatus} (h : s.Below m) (hle : m ≤ n) : s.Below n :=
  ⟨h.message.trans_le hle, fun tree htree => (h.callTree tree htree).trans_le hle⟩

theorem below_none {n : ℕ} {s : PvaStatus} (hs : s.callTree = none) :
    s.Below n ↔ s.message.utf8ByteSize < n := by
  refine ⟨Below.message, fun h => ⟨h, ?_⟩⟩
  rw [hs]
  intro tree htree
  cases htree

theorem below_some {n : ℕ} {s : PvaStatus} {tree : String} (hs : s.callTree = some tree) :
    s.Below n ↔ s.message.utf8ByteSize < n ∧ tree.utf8ByteSize < n := by
  refine ⟨fun h => ⟨h.message, h.callTree tree hs⟩, fun h => ⟨h.1, ?_⟩⟩
  rw [hs]
  intro tree' htree
  cases htree
  exact h.2

/-- `wire_size` is right as long as the size of each string takes one byte. -/
theorem wireSize_eq_iff (order : ByteOrder) (s : PvaStatus) :
    s.wireSize = (s.encode order).length ↔ (s.isOk ≠ true → s.Below 254) := by
  unfold wireSize encode
  by_cases hok : s.isOk = true
  · rw [if_pos hok, if_pos hok]
    exact ⟨fun _ h => absurd hok h, fun _ => rfl⟩
  · obtain ⟨hmessage, hmessageExact⟩ := length_string order s.message
    rw [if_neg hok, if_neg hok, imp_iff_right hok, List.length_append, List.length_append,
      List.length_singleton]
    cases hs : s.callTree with
    | none =>
      rw [below_none hs]
      dsimp only
      rw [List.length_nil]
      omega
    | some tree =>
      obtain ⟨htree, htreeExact⟩ := length_string order tree
      rw [below_some hs]
      dsimp only
      omega

/-- **Main theorem.** A status whose strings fit is read back with the size `wire_size` says just
    when it is an OK without a call tree, or not a plain OK and its strings are shorter than 254
    bytes. -/
theorem roundTrip_size_iff (order : ByteOrder) {s : PvaStatus} (hfit : s.Below (2 ^ 31)) :
    s.Exact order ↔
      (s.isOk = true → s.callTree = none) ∧ (s.isOk ≠ true → s.Below 254) := by
  unfold Exact
  rw [yields_iff order hfit, wireSize_eq_iff]

theorem exact_callTree :
    ((error "not found").withCallTree "line 10").Exact .bigEndian := by
  have hsmall : ((error "not found").withCallTree "line 10").Below 254 :=
    (below_some rfl).2 ⟨by decide, by decide⟩
  have hfit := hsmall.mono (show 254 ≤ 2 ^ 31 by decide)
  exact (roundTrip_size_iff .bigEndian hfit).2
    ⟨fun hok => absurd hok (by decide), fun _ => hsmall⟩

/-- An OK with a call tree comes back without it, and an error message of 254 bytes takes four
    bytes more than `wire_size` counts. -/
theorem built_inexact :
    (Built (ok.withCallTree "line 10") ∧ (ok.withCallTree "line 10").Below (2 ^ 31) ∧
      ¬(ok.withCallTree "line 10").Exact .littleEndian) ∧
    (Built (error ("".pushn 'x' 254)) ∧ (error ("".pushn 'x' 254)).Below (2 ^ 31) ∧
      (error ("".pushn 'x' 254)).wireSize = 256 ∧
      ((error ("".pushn 'x' 254)).encode .littleEndian).length = 260) := by
  have hfit : (ok.withCallTree "line 10").Below (2 ^ 31) :=
    (below_some rfl).2 ⟨by decide, by decide⟩
  have hlong : (error ("".pushn 'x' 254)).Below (2 ^ 31) :=
    (below_none rfl).2 (by decide +kernel)
  refine ⟨⟨.withCallTree .ok _, hfit, ?_⟩, .error _, hlong, by decide +kernel, by decide +kernel⟩
  rintro ⟨hyields, -⟩
  have hread := (hyields [] []).symm.trans (yields_ok .littleEndian [] [])
  cases hread

end PvaStatus

end AuraEpics.Messages

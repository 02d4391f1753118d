import AuraEpics.Codec.FieldDescCodec
import AuraEpics.Lib.Latest

/-!
# The introspection registry of a connection

A connection decodes one type description after another with the same
`IntrospectionRegistry` (`crates/aura-net/src/codec/field_desc.rs`, lines 232-255 and
444-479). The registry is bounded: once it holds `max_entries` ids, `register` refuses
and `decode` goes on without it. Ids inside a structure or union are read and dropped.

`announced` says what a message announces at its top level, from its bytes alone.
`registryAfter` is the registry after a run of messages.

Results:
* `get_registryAfter`: the registry holds the first `max_entries` ids announced, each
  with the description last announced for it;
* `decode_onlyId_registryAfter`: so `ONLY_ID(id)` is decoded to that description.

Both are about runs in which no id that is already held is announced again to a full
registry.
-/

namespace AuraEpics.Codec

open Latest

/-- The id and the description of a message with `FULL_WITH_ID_CODE` at its top level. -/
def announced (r : PvaReader) : Option (Int16 × FieldDesc) :=
  let read : Read (Option (Int16 × FieldDesc)) := do
    let tag ← Read.u8
    if tag = fullWithIdCode then
      let id ← Read.i16
      let desc ← FieldDesc.decodeFullRest
      return some (id, desc)
    else return none
  match read r with
  | (.ok a, _) => a
  | (.error _, _) => none

/-- What a run of messages announces, in order. -/
def announcements (msgs : List PvaReader) : List (Int16 × FieldDesc) := msgs.filterMap announced

/-- The registry after `decode` has read one message. An error leaves it as it was. -/
def decodeMessage (registry : IntrospectionRegistry) (r : PvaReader) : IntrospectionRegistry :=
  match FieldDesc.decode registry r with
  | (.ok (_, registry'), _) => registry'
  | (.error _, _) => registry

/-- The registry of a connection after its messages so far. -/
def registryAfter (maxEntries : ℕ) (msgs : List PvaReader) : IntrospectionRegistry :=
  msgs.foldl decodeMessage (.new maxEntries)

/-! ## One message -/

/-- `decode` changes the registry by what the message announces, and in no other way. -/
theorem decodeMessage_eq (registry : IntrospectionRegistry) (r : PvaReader) :
    decodeMessage registry r =
      match announced r with
      | some (id, desc) => (registry.register id desc).2
      | none => registry := by
  unfold decodeMessage FieldDesc.decode announced
  simp only [Read.run_bind]
  rcases Read.u8 r with ⟨e | tag, r₁⟩
  · rfl
  dsimp only
  by_cases hfull : tag = fullWithIdCode
  · subst hfull
    rw [if_neg (by decide), if_neg (by decide), if_pos rfl, if_pos rfl]
    simp only [Read.run_bind]
    rcases Read.i16 r₁ with ⟨e | id, r₂⟩
    · rfl
    dsimp only
    rcases FieldDesc.decodeFullRest r₂ with ⟨e | desc, r₃⟩
    · rfl
    · rfl
  -- no other message announces anything, and none of their branches registers
  rw [if_neg hfull, if_neg hfull, Read.run_pure]
  dsimp only
  split_ifs
  · rfl
  · rw [Read.run_bind]
    rcases Read.i16 r₁ with ⟨e | id, r₂⟩
    · rfl
    dsimp only
    cases registry.get id with
    | none => rfl
    | some desc => rfl
  · rw [Read.run_bind]
    rcases FieldDesc.decodeTypeCode (FieldDesc.decodeFull (r₁.buf.length - r₁.pos)) tag r₁
      with ⟨e | desc, r₂⟩
    · rfl
    · rfl

theorem registryAfter_concat (maxEntries : ℕ) (msgs : List PvaReader) (r : PvaReader) :
    registryAfter maxEntries (msgs ++ [r]) = decodeMessage (registryAfter maxEntries msgs) r := by
  unfold registryAfter
  rw [List.foldl_append]
  rfl

/-! ## Runs -/

/-- The ids a registry of `maxEntries` entries keeps of a history. -/
def keptIds (maxEntries : ℕ) (anns : List (Int16 × FieldDesc)) : List Int16 :=
  (distinctKeys anns).take maxEntries

/-- The registry holds the kept ids, each with its last description. -/
structure Holds (maxEntries : ℕ) (anns : List (Int16 × FieldDesc)) (r : IntrospectionRegistry) :
    Prop where
  maxEntries_eq : r.maxEntries = maxEntries
  len_eq : r.len = min maxEntries (distinctKeys anns).length
  get_eq : ∀ id, r.get id = if id ∈ keptIds maxEntries anns then latest anns id else none

/-- No id that the registry holds is announced again once the registry is full. -/
def NoRefusedUpdate (maxEntries : ℕ) (msgs : List PvaReader) : Prop :=
  ∀ before r after, msgs = before ++ r :: after → ∀ a, announced r = some a →
    a.1 ∈ keptIds maxEntries (announcements before) →
      (distinctKeys (announcements before)).length < maxEntries

section Step

variable {maxEntries : ℕ} {anns : List (Int16 × FieldDesc)} {r : IntrospectionRegistry}

theorem Holds.new (maxEntries : ℕ) : Holds maxEntries [] (.new maxEntries) where
  maxEntries_eq := rfl
  len_eq := by simp [IntrospectionRegistry.len, IntrospectionRegistry.new, distinctKeys]
  get_eq := by intro id; simp [keptIds, distinctKeys, IntrospectionRegistry.get,
    IntrospectionRegistry.new]

theorem Holds.register_full (h : Holds maxEntries anns r)
    (hfull : maxEntries ≤ (distinctKeys anns).length) {a : Int16 × FieldDesc}
    (ha : a.1 ∉ keptIds maxEntries anns) :
    Holds maxEntries (anns ++ [a]) (r.register a.1 a.2).2 := by
  have hrefused : (r.register a.1 a.2).2 = r := by
    unfold IntrospectionRegistry.register
    rw [if_pos (by rw [h.maxEntries_eq, h.len_eq]; omega)]
  have hkept : keptIds maxEntries (anns ++ [a]) = keptIds maxEntries anns := by
    unfold keptIds
    by_cases hmem : a.1 ∈ anns.map Prod.fst
    · rw [distinctKeys_concat_of_mem hmem]
    · rw [distinctKeys_concat_of_notMem hmem, List.take_append_of_le_length hfull]
  have hlen : (distinctKeys anns).length ≤ (distinctKeys (anns ++ [a])).length := by
    by_cases hmem : a.1 ∈ anns.map Prod.fst
    · rw [distinctKeys_concat_of_mem hmem]
    · rw [distinctKeys_concat_of_notMem hmem, List.length_append]
      omega
  rw [hrefused]
  refine ⟨h.maxEntries_eq, by rw [h.len_eq]; omega, fun id => ?_⟩
  rw [h.get_eq id, hkept, latest_concat]
  split_ifs with hid heq
  · rw [heq] at hid
    exact absurd hid ha
  · rfl
  · rfl

/-- While the registry has room for every id, the last description is what counts. -/
theorem kept_eq_latest (hfit : (distinctKeys anns).length ≤ maxEntries) (id : Int16) :
    (if id ∈ keptIds maxEntries anns then latest anns id else none) = latest anns id := by
  split_ifs with hid
  · rfl
  · symm
    rw [keptIds, List.take_of_length_le hfit, mem_distinctKeys] at hid
    exact latest_eq_none_iff.2 hid

theorem Holds.mem_byId_iff (h : Holds maxEntries anns r)
    (hroom : (distinctKeys anns).length < maxEntries) (id : Int16) :
    id ∈ r.byId ↔ id ∈ anns.map Prod.fst := by
  rw [← AList.lookup_isSome]
  show (r.get id).isSome ↔ _
  rw [h.get_eq, kept_eq_latest hroom.le, latest_isSome_iff]

theorem Holds.register_room (h : Holds maxEntries anns r)
    (hroom : (distinctKeys anns).length < maxEntries) (a : Int16 × FieldDesc) :
    Holds maxEntries (anns ++ [a]) (r.register a.1 a.2).2 := by
  have hmem := h.mem_byId_iff hroom
  have hlen : r.byId.keys.length = (distinctKeys anns).length := by
    have := h.len_eq
    rw [min_eq_right hroom.le] at this
    exact this
  have htaken : (r.register a.1 a.2).2 = { r with byId := r.byId.insert a.1 a.2 } := by
    unfold IntrospectionRegistry.register
    rw [if_neg (by rw [h.maxEntries_eq, IntrospectionRegistry.len, hlen]; omega)]
  have hdistinct : (distinctKeys (anns ++ [a])).length ≤ maxEntries ∧
      (r.byId.insert a.1 a.2).keys.length = (distinctKeys (anns ++ [a])).length := by
    rw [AList.keys_insert, List.length_cons]
    by_cases ha : a.1 ∈ anns.map Prod.fst
    · have hkey : a.1 ∈ r.byId.keys := AList.mem_keys.1 ((hmem a.1).2 ha)
      have hpos := List.length_pos_of_mem hkey
      rw [distinctKeys_concat_of_mem ha, List.length_erase_of_mem hkey]
      omega
    · have hkey : a.1 ∉ r.byId.keys := fun hk => ha ((hmem a.1).1 (AList.mem_keys.2 hk))
      rw [distinctKeys_concat_of_notMem ha, List.erase_of_not_mem hkey, List.length_append]
      simp only [List.length_singleton]
      omega
  rw [htaken]
  refine ⟨h.maxEntries_eq, ?_, fun id => ?_⟩
  · rw [min_eq_right hdistinct.1]
    exact hdistinct.2
  · show (r.byId.insert a.1 a.2).lookup id = _
    rw [kept_eq_latest hdistinct.1, latest_concat]
    by_cases hid : id = a.1
    · subst hid
      rw [AList.lookup_insert, if_pos rfl]
    · have hget : r.byId.lookup id = _ := h.get_eq id
      rw [AList.lookup_insert_ne hid, hget, kept_eq_latest hroom.le, if_neg hid]

end Step

theorem announcements_concat_none {msgs : List PvaReader} {r : PvaReader}
    (h : announced r = none) : announcements (msgs ++ [r]) = announcements msgs := by
  simp [announcements, h]

theorem announcements_concat_some {msgs : List PvaReader} {r : PvaReader} {a : Int16 × FieldDesc}
    (h : announced r = some a) : announcements (msgs ++ [r]) = announcements msgs ++ [a] := by
  simp [announcements, h]

theorem NoRefusedUpdate.init {maxEntries : ℕ} {msgs : List PvaReader} {r : PvaReader}
    (h : NoRefusedUpdate maxEntries (msgs ++ [r])) : NoRefusedUpdate maxEntries msgs := by
  intro before m after hsplit
  exact h before m (after ++ [r]) (by rw [hsplit]; simp)

/-- Induction over the run, with one step for each message. -/
theorem holds_registryAfter {maxEntries : ℕ} {msgs : List PvaReader}
    (h : NoRefusedUpdate maxEntries msgs) :
    Holds maxEntries (announcements msgs) (registryAfter maxEntries msgs) := by
  induction msgs using List.reverseRecOn with
  | nil => exact Holds.new maxEntries
  | append_singleton msgs r ih =>
    have hbefore := ih h.init
    rw [registryAfter_concat, decodeMessage_eq]
    cases ha : announced r with
    | none =>
      rw [announcements_concat_none ha]
      exact hbefore
    | some a =>
      rw [announcements_concat_some ha]
      rcases Nat.lt_or_ge (distinctKeys (announcements msgs)).length maxEntries with hroom | hfull
      · exact hbefore.register_room hroom a
      · refine hbefore.register_full hfull fun hkept => ?_
        have hroom := h msgs r [] rfl a ha hkept
        omega

theorem get_registryAfter {maxEntries : ℕ} {msgs : List PvaReader}
    (h : NoRefusedUpdate maxEntries msgs) (id : Int16) :
    (registryAfter maxEntries msgs).get id =
      if id ∈ keptIds maxEntries (announcements msgs) then latest (announcements msgs) id
      else none :=
  (holds_registryAfter h).get_eq id

/-! ## Decoding an id -/

/-- A message that holds `ONLY_ID(id)` and then `rest`. -/
def onlyId (order : ByteOrder) (id : Int16) (rest : List UInt8) : PvaReader :=
  .new (onlyIdTypeCode :: Write.i16 order id ++ rest) order

/-- A message that holds `FULL_WITH_ID(id, desc)` and then `rest`. -/
def fullWithId (order : ByteOrder) (id : Int16) (desc : FieldDesc) (rest : List UInt8) :
    PvaReader :=
  .new (fullWithIdCode :: Write.i16 order id ++ desc.encode order ++ rest) order

theorem decode_onlyId (registry : IntrospectionRegistry) (order : ByteOrder) (id : Int16)
    (rest : List UInt8) :
    (FieldDesc.decode registry (onlyId order id rest)).1 =
      match registry.get id with
      | some desc => .ok (some desc, registry)
      | none => .error (.protocol ("unknown introspection ID: " ++ toString id.toInt)) := by
  have htag := yields_u8 order onlyIdTypeCode [] (Write.i16 order id ++ rest)
  have hid := yields_i16 order id [onlyIdTypeCode] rest
  show (FieldDesc.decode registry
    (.at order [] ([onlyIdTypeCode] ++ (Write.i16 order id ++ rest)))).1 = _
  unfold FieldDesc.decode
  rw [Read.run_bind, htag]
  dsimp only
  rw [if_neg (by decide), if_pos rfl, Read.run_bind, List.nil_append, hid]
  dsimp only
  cases registry.get id with
  | none => rfl
  | some desc => rfl

/-- A description sent with an id is announced as what was sent. -/
theorem announced_fullWithId {desc : FieldDesc} (hd : desc.Constructed) (hfit : desc.SizesFit)
    (order : ByteOrder) (id : Int16) (rest : List UInt8) :
    announced (fullWithId order id desc rest) = some (id, desc) := by
  obtain ⟨tag, body, h⟩ := hd.tagYields order hfit
  have hdesc : Yields order FieldDesc.decodeFullRest (desc.encode order) desc := by
    intro done rest
    refine h.yields_decodeFull _ ?_ done rest
    simp [PvaReader.at]
  have hread : Yields order (do
      let tag ← Read.u8
      if tag = fullWithIdCode then
        let id ← Read.i16
        let desc ← FieldDesc.decodeFullRest
        return some (id, desc)
      else return none)
      ([fullWithIdCode] ++ (Write.i16 order id ++ desc.encode order)) (some (id, desc)) := by
    refine (yields_u8 order fullWithIdCode).bind ?_
    rw [if_pos rfl]
    exact (yields_i16 order id).bind (hdesc.last (Yields.pure (some (id, desc))))
  have hrun := hread [] rest
  unfold announced
  have hat : fullWithId order id desc rest = PvaReader.at order []
      ([fullWithIdCode] ++ (Write.i16 order id ++ desc.encode order) ++ rest) := rfl
  rw [hat]
  dsimp only
  rw [hrun]

/-- **Main theorem**: after any run of messages, in which no id the registry holds is
    announced again once it is full, `ONLY_ID(id)` is decoded to the description last
    announced for `id` if `id` is among the first `maxEntries` ids announced, and is
    refused as unknown otherwise. -/
theorem decode_onlyId_registryAfter {maxEntries : ℕ} {msgs : List PvaReader}
    (h : NoRefusedUpdate maxEntries msgs) (order : ByteOrder) (id : Int16) (rest : List UInt8) :
    (FieldDesc.decode (registryAfter maxEntries msgs) (onlyId order id rest)).1 =
      match if id ∈ keptIds maxEntries (announcements msgs) then latest (announcements msgs) id
        else none with
      | some desc => .ok (some desc, registryAfter maxEntries msgs)
      | none => .error (.protocol ("unknown introspection ID: " ++ toString id.toInt)) := by
  rw [decode_onlyId, get_registryAfter h]

/-- A run with an update: the second description of id 7 is the one decoded. -/
theorem decode_onlyId_registryAfter_updated :
    let msgs := [fullWithId .littleEndian 7 (.scalar .int) [],
      fullWithId .littleEndian 7 (.scalar .double) []]
    NoRefusedUpdate 2 msgs ∧
      (FieldDesc.decode (registryAfter 2 msgs) (onlyId .littleEndian 7 [])).1 =
        .ok (some (.scalar .double), registryAfter 2 msgs) := by
  intro msgs
  have h : NoRefusedUpdate 2 msgs := by
    intro before r after hsplit a ha hkept
    rcases before with _ | ⟨b, _ | ⟨c, before⟩⟩
    · simp [keptIds, announcements, distinctKeys] at hkept
    · obtain rfl : fullWithId .littleEndian 7 (.scalar .int) [] = b := (List.cons.inj hsplit).1
      show 1 < 2
      decide
    · have hlen : 2 = (b :: c :: before ++ r :: after).length := congrArg List.length hsplit
      simp at hlen
  exact ⟨h, decode_onlyId_registryAfter h .littleEndian 7 []⟩

/-- A full registry forgets new ids, and an id sent inside a structure is not recorded:
    the older description is decoded. -/
theorem onlyId_after_full_or_nested :
    (FieldDesc.decode (registryAfter 1 [fullWithId .littleEndian 1 (.scalar .int) [],
        fullWithId .littleEndian 2 (.scalar .double) []]) (onlyId .littleEndian 2 [])).1 =
      .error (.protocol "unknown introspection ID: 2") ∧
    let nested : PvaReader := .new [0x80, 0, 1, 0, fullWithIdCode, 1, 0, 0x43] .littleEndian
    let registry := registryAfter 128 [fullWithId .littleEndian 1 (.scalar .int) []]
    (FieldDesc.decode registry nested).1 =
        .ok (some (.struct "" [("", .scalar .double)]), registry) ∧
      (FieldDesc.decode (decodeMessage registry nested) (onlyId .littleEndian 1 [])).1 =
        .ok (some (.scalar .int), registry) := by
  refine ⟨?_, ?_, ?_⟩
  · rw [decode_onlyId]
    rfl
  · rfl
  · rw [decode_onlyId]
    rfl

end AuraEpics.Codec

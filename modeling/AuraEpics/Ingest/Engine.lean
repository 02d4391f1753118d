import AuraEpics.Session.Monitor
import AuraEpics.Types.ToNormative

/-!
# Ingest engine

Model of `PvConverter` (`crates/aura-ingest/src/converter.rs`, lines 34-86) and of
`IngestEngine` (`engine.rs`, lines 27-96), which turn the events off the fast path into
updates. Metadata is kept as what `PvMetadata::from_initial_update` is computed from, the
name and the first value.

Result: `IngestEngine.processEvent_cases`, an event is converted exactly if its PV is
registered and it is a value that `toNormativeFromValue` recognises.
-/

namespace AuraEpics.Ingest

open AuraEpics.Core AuraEpics.Types AuraEpics.Session

/-! ## Converter -/

/-- `PvConverter` (converter.rs, lines 34-38). -/
structure PvConverter where
  pvName : String
  metadataExtracted : Bool
  deriving DecidableEq, Repr

/-- `ConvertResult` (converter.rs, lines 20-27). -/
inductive ConvertResult where
  | update (u : PvUpdate)
  | updateWithMetadata (u : PvUpdate) (initial : String × NormativeType)
  | skip

namespace PvConverter

/-- `PvConverter::new` (converter.rs, lines 41-46). -/
def new (pvName : String) : PvConverter := ⟨pvName, false⟩

/-- `maybe_attach_metadata` (converter.rs, lines 72-82). -/
def maybeAttachMetadata (c : PvConverter) (nt : NormativeType) : ConvertResult × PvConverter :=
  let update : PvUpdate := ⟨c.pvName, none, nt⟩
  if c.metadataExtracted then (.update update, c)
  else (.updateWithMetadata update (c.pvName, nt), { c with metadataExtracted := true })

/-- `convert_value` (converter.rs, lines 60-68). -/
def convertValue (c : PvConverter) (value : PvaValue) : ConvertResult × PvConverter :=
  if (value.field "value").isNone then (.skip, c)
  else
    match toNormativeFromValue value with
    | some nt => c.maybeAttachMetadata nt
    | none => (.skip, c)

/-- `convert` (converter.rs, lines 52-57). -/
def convert (c : PvConverter) (event : MonitorEvent) : ConvertResult × PvConverter :=
  match event with
  | .value value => c.convertValue value
  | _ => (.skip, c)

/-- `reset` (converter.rs, lines 89-91). -/
def reset (c : PvConverter) : PvConverter := { c with metadataExtracted := false }

end PvConverter

/-! ## Engine -/

/-- `IngestEngine` (engine.rs, lines 27-35). -/
structure IngestEngine where
  converters : String → Option PvConverter
  pendingMetadata : List (String × NormativeType)
  totalEvents : ℕ
  totalPublished : ℕ
  totalSkipped : ℕ

namespace IngestEngine

/-- `IngestEngine::new` (engine.rs, lines 38-46). -/
def new : IngestEngine := ⟨fun _ => none, [], 0, 0, 0⟩

/-- `register_pv` (engine.rs, lines 49-54). -/
def registerPv (e : IngestEngine) (pvName : String) : IngestEngine :=
  if (e.converters pvName).isNone then
    { e with converters := Function.update e.converters pvName (some (.new pvName)) }
  else e

/-- `unregister_pv` (engine.rs, lines 57-59). -/
def unregisterPv (e : IngestEngine) (pvName : String) : IngestEngine :=
  { e with converters := Function.update e.converters pvName none }

/-- `process_event` (engine.rs, lines 66-96): the sample, `none` for `Skip`. -/
def processEvent (e : IngestEngine) (pvName : String) (event : MonitorEvent) :
    Option PvUpdate × IngestEngine :=
  let e := { e with totalEvents := e.totalEvents + 1 }
  match e.converters pvName with
  | none => (none, { e with totalSkipped := e.totalSkipped + 1 })
  | some c =>
    let (result, c) := c.convert event
    let e := { e with converters := Function.update e.converters pvName (some c) }
    match result with
    | .update u => (some u, { e with totalPublished := e.totalPublished + 1 })
    | .updateWithMetadata u initial =>
      (some u, { e with
        pendingMetadata := e.pendingMetadata ++ [initial]
        totalPublished := e.totalPublished + 1 })
    | .skip => (none, { e with totalSkipped := e.totalSkipped + 1 })

/-- The PV has a converter. -/
def Registered (e : IngestEngine) (pvName : String) : Prop := (e.converters pvName).isSome

instance (e : IngestEngine) (pvName : String) : Decidable (e.Registered pvName) :=
  inferInstanceAs (Decidable ((e.converters pvName).isSome = true))

/-- Every converter is kept under the name of its PV. -/
def Named (e : IngestEngine) : Prop := ∀ name c, e.converters name = some c → c.pvName = name

end IngestEngine

/-- The value the converter makes of an event. -/
def converted : MonitorEvent → Option NormativeType
  | .value v => toNormativeFromValue v
  | _ => none

/-! ## What the converter does -/

theorem PvConverter.convert_value_eq (c : PvConverter) (v : PvaValue) :
    c.convert (.value v) = (toNormativeFromValue v).elim (.skip, c) c.maybeAttachMetadata := by
  show c.convertValue v = _
  unfold PvConverter.convertValue
  cases hnt : toNormativeFromValue v with
  | none => simp
  | some nt =>
    have hfield : (v.field "value").isNone = false := by
      cases hv : v.field "value" with
      | some _ => rfl
      | none => simp [toNormativeFromValue, hv] at hnt
    rw [hfield]
    rfl

/-- An event is converted if `converted` has a value for it, under the converter's name. -/
theorem PvConverter.convert_cases (c : PvConverter) (event : MonitorEvent) :
    (converted event = none ∧ c.convert event = (.skip, c)) ∨
    ∃ nt, converted event = some nt ∧
      (c.convert event = (.update ⟨c.pvName, none, nt⟩, c) ∨
        c.convert event = (.updateWithMetadata ⟨c.pvName, none, nt⟩ (c.pvName, nt),
          { c with metadataExtracted := true })) := by
  cases event with
  | value v =>
    rw [c.convert_value_eq]
    show (toNormativeFromValue v = none ∧ _) ∨ ∃ nt, toNormativeFromValue v = some nt ∧ _
    cases hnt : toNormativeFromValue v with
    | none => exact .inl ⟨rfl, rfl⟩
    | some nt =>
      refine .inr ⟨nt, rfl, ?_⟩
      dsimp only [Option.elim, maybeAttachMetadata]
      cases c.metadataExtracted with
      | true => exact .inl rfl
      | false => exact .inr rfl
  | _ => exact .inl ⟨rfl, rfl⟩

namespace IngestEngine

/-- What `e'` keeps of `e`: the registered PVs and their names. -/
structure SamePvs (e e' : IngestEngine) : Prop where
  registered : ∀ name, e'.Registered name ↔ e.Registered name
  named : e.Named → e'.Named

theorem SamePvs.rfl {e : IngestEngine} : SamePvs e e := ⟨fun _ => Iff.rfl, id⟩

theorem SamePvs.trans {e₁ e₂ e₃ : IngestEngine} (h : SamePvs e₁ e₂) (h' : SamePvs e₂ e₃) :
    SamePvs e₁ e₃ :=
  ⟨fun name => (h'.registered name).trans (h.registered name), fun hn => h'.named (h.named hn)⟩

theorem samePvs_update {e e' : IngestEngine} {pvName : String} {c c' : PvConverter}
    (hc : e.converters pvName = some c) (hname : c'.pvName = c.pvName)
    (he' : e'.converters = Function.update e.converters pvName (some c')) : SamePvs e e' := by
  constructor
  · intro name
    unfold Registered
    rw [he', Function.update_apply]
    split_ifs with heq
    · rw [heq, hc]
      exact Iff.rfl
    · exact Iff.rfl
  · intro hn name d hd
    rw [he', Function.update_apply] at hd
    split_ifs at hd with heq
    · rw [← Option.some.inj hd, hname, heq]
      exact hn pvName c hc
    · exact hn name d hd

/-- The event was skipped. -/
structure Skips (e e' : IngestEngine) : Prop where
  same : SamePvs e e'
  events : e'.totalEvents = e.totalEvents + 1
  published : e'.totalPublished = e.totalPublished
  skipped : e'.totalSkipped = e.totalSkipped + 1

/-- The event was converted and counted as published. -/
structure Publishes (e e' : IngestEngine) : Prop where
  same : SamePvs e e'
  events : e'.totalEvents = e.totalEvents + 1
  published : e'.totalPublished = e.totalPublished + 1
  skipped : e'.totalSkipped = e.totalSkipped

/-- An event is skipped, or converted to an update of its PV. -/
theorem processEvent_cases (e : IngestEngine) (he : e.Named) (pvName : String)
    (event : MonitorEvent) :
    ((¬e.Registered pvName ∨ converted event = none) ∧
      ∃ e', e.processEvent pvName event = (none, e') ∧ e.Skips e') ∨
    ∃ nt, e.Registered pvName ∧ converted event = some nt ∧
      ∃ e', e.processEvent pvName event = (some ⟨pvName, none, nt⟩, e') ∧ e.Publishes e' := by
  unfold processEvent
  dsimp only
  cases hc : e.converters pvName with
  | none =>
    have hnot : ¬e.Registered pvName := by simp [Registered, hc]
    exact .inl ⟨.inl hnot, _, rfl, ⟨fun _ => Iff.rfl, id⟩, rfl, rfl, rfl⟩
  | some c =>
    have hreg : e.Registered pvName := by simp [Registered, hc]
    have hname : c.pvName = pvName := he pvName c hc
    obtain ⟨hnone, hskip⟩ | ⟨nt, hnt, hupdate | hupdate⟩ := c.convert_cases event
    · dsimp only
      rw [hskip]
      exact .inl ⟨.inr hnone, _, rfl, samePvs_update hc rfl rfl, rfl, rfl, rfl⟩
    · dsimp only
      rw [hupdate, hname]
      exact .inr ⟨nt, hreg, hnt, _, rfl, samePvs_update hc rfl rfl, rfl, rfl, rfl⟩
    · dsimp only
      rw [hupdate, hname]
      exact .inr ⟨nt, hreg, hnt, _, rfl, samePvs_update hc hname.symm rfl, rfl, rfl, rfl⟩

/-! ## Registration -/

theorem registerPv_registered (e : IngestEngine) (pvName name : String) :
    (e.registerPv pvName).Registered name ↔ name = pvName ∨ e.Registered name := by
  unfold registerPv Registered
  split_ifs with hnone
  · dsimp only
    rw [Function.update_apply]
    split_ifs with heq
    · exact iff_of_true rfl (.inl heq)
    · exact ⟨.inr, fun h => h.resolve_left heq⟩
  · constructor
    · exact .inr
    · rintro (rfl | hname)
      · simpa [Option.isSome_iff_ne_none] using hnone
      · exact hname

theorem registerPv_named {e : IngestEngine} (h : e.Named) (pvName : String) :
    (e.registerPv pvName).Named := by
  unfold registerPv
  split_ifs
  · intro name c hc
    dsimp only at hc
    rw [Function.update_apply] at hc
    split_ifs at hc with heq
    · rw [← Option.some.inj hc, heq]
      rfl
    · exact h name c hc
  · exact h

/-- The engine of a shard: its PVs are registered one after the other. -/
theorem foldl_registerPv_named {e : IngestEngine} (h : e.Named) (names : List String) :
    (names.foldl registerPv e).Named := by
  induction names generalizing e with
  | nil => exact h
  | cons name names ih => exact ih (registerPv_named h name)

theorem unregisterPv_named {e : IngestEngine} (h : e.Named) (pvName : String) :
    (e.unregisterPv pvName).Named := by
  intro name c hc
  unfold unregisterPv at hc
  dsimp only at hc
  rw [Function.update_apply] at hc
  split_ifs at hc
  exact h name c hc

theorem foldl_registerPv_pending (e : IngestEngine) (names : List String) :
    (names.foldl registerPv e).pendingMetadata = e.pendingMetadata := by
  induction names generalizing e with
  | nil => rfl
  | cons name names ih =>
    refine (ih (e.registerPv name)).trans ?_
    unfold registerPv
    split_ifs <;> rfl

theorem foldl_registerPv_registered (e : IngestEngine) (names : List String) (name : String) :
    (names.foldl registerPv e).Registered name ↔ name ∈ names ∨ e.Registered name := by
  induction names generalizing e with
  | nil => exact ⟨.inr, fun h => h.resolve_left List.not_mem_nil⟩
  | cons n names ih =>
    show (names.foldl registerPv (e.registerPv n)).Registered name ↔ _
    rw [ih, registerPv_registered, List.mem_cons, ← or_assoc, or_comm (b := name = n)]

theorem foldl_registerPv_totals (e : IngestEngine) (names : List String) :
    (names.foldl registerPv e).totalEvents = e.totalEvents ∧
      (names.foldl registerPv e).totalPublished = e.totalPublished ∧
      (names.foldl registerPv e).totalSkipped = e.totalSkipped := by
  induction names generalizing e with
  | nil => exact ⟨rfl, rfl, rfl⟩
  | cons n names ih =>
    have hregister : (e.registerPv n).totalEvents = e.totalEvents ∧
        (e.registerPv n).totalPublished = e.totalPublished ∧
        (e.registerPv n).totalSkipped = e.totalSkipped := by
      unfold registerPv
      split_ifs <;> exact ⟨rfl, rfl, rfl⟩
    obtain ⟨hevents, hpublished, hskipped⟩ := ih (e.registerPv n)
    exact ⟨hevents.trans hregister.1, hpublished.trans hregister.2.1,
      hskipped.trans hregister.2.2⟩

end IngestEngine

end AuraEpics.Ingest

import Mathlib.Data.Set.Insert
import AuraEpics.Lib.Latest

/-!
# Commands to the ingest process

Model of `IngestCommand` (`crates/aura-discover/src/command_publisher.rs`, lines
13-34), the commands the orchestrator and the NOTIFY listener send to the main loop.

A command asks for some PVs to be subscribed or unsubscribed (`IngestCommand.requests`).
`applyCommand` says what a command means for the set of subscribed PVs when every
subscribe succeeds, and `mem_foldl_applyCommand_iff` that after a run of commands the
last request for a PV decides.
-/

namespace AuraEpics.Discover

open Latest

/-- `IngestCommand` (lines 15-34). -/
inductive IngestCommand where
  | subscribe (pv : String) (ioc : Option String)
  | subscribeBatch (pvs : List String) (ioc : Option String)
  | unsubscribe (pv : String)
  | unsubscribeBatch (pvs : List String)
  | reload
  deriving DecidableEq, Repr

namespace IngestCommand

/-- The PVs a command is about, with `true` for a subscribe and `false` for an
    unsubscribe. -/
def requests : IngestCommand → List (String × Bool)
  | subscribe pv _ => [(pv, true)]
  | subscribeBatch pvs _ => pvs.map fun pv => (pv, true)
  | unsubscribe pv => [(pv, false)]
  | unsubscribeBatch pvs => pvs.map fun pv => (pv, false)
  | reload => []

end IngestCommand

/-- The requests of a run of commands, in order. -/
def requestsOf (cmds : List IngestCommand) : List (String × Bool) :=
  cmds.flatMap IngestCommand.requests

/-- What a command means for the set of subscribed PVs, if subscribing succeeds. -/
def applyCommand (s : Set String) : IngestCommand → Set String
  | .subscribe pv _ => s ∪ {pv}
  | .subscribeBatch pvs _ => s ∪ {pv | pv ∈ pvs}
  | .unsubscribe pv => s \ {pv}
  | .unsubscribeBatch pvs => s \ {pv | pv ∈ pvs}
  | .reload => s

/-- A PV is subscribed if the history says so last, or never mentions it and it was
    subscribed before. -/
def Decided (s : Set String) (history : List (String × Bool)) (pv : String) : Prop :=
  match latest history pv with
  | some b => b = true
  | none => pv ∈ s

theorem decided_append (s : Set String) (h h' : List (String × Bool)) (pv : String) :
    Decided s (h ++ h') pv ↔ Decided {pv | Decided s h pv} h' pv := by
  unfold Decided
  rw [latest_append]
  cases latest h' pv with
  | some b => rfl
  | none => rfl

/-- Requests that are all of one kind decide for the PVs they name. -/
theorem decided_map (s : Set String) (pvs : List String) (b : Bool) (pv : String) :
    Decided s (pvs.map fun pv => (pv, b)) pv ↔ if pv ∈ pvs then b = true else pv ∈ s := by
  unfold Decided
  induction pvs using List.reverseRecOn with
  | nil => simp
  | append_singleton pvs q ih =>
    rw [List.map_append, List.map_singleton, latest_concat]
    by_cases h : pv = q
    · simp [h]
    · simp only [h, if_false, List.mem_append, List.mem_singleton, or_false]
      exact ih

theorem mem_applyCommand_iff (s : Set String) (cmd : IngestCommand) (pv : String) :
    pv ∈ applyCommand s cmd ↔ Decided s cmd.requests pv := by
  cases cmd with
  | subscribe q ioc =>
    show pv ∈ s ∪ {q} ↔ Decided s ([q].map fun pv => (pv, true)) pv
    rw [decided_map]
    by_cases h : pv = q <;> simp [h]
  | subscribeBatch pvs ioc =>
    show pv ∈ s ∪ {pv | pv ∈ pvs} ↔ Decided s (pvs.map fun pv => (pv, true)) pv
    rw [decided_map]
    by_cases h : pv ∈ pvs <;> simp [h]
  | unsubscribe q =>
    show pv ∈ s \ {q} ↔ Decided s ([q].map fun pv => (pv, false)) pv
    rw [decided_map]
    by_cases h : pv = q <;> simp [h]
  | unsubscribeBatch pvs =>
    show pv ∈ s \ {pv | pv ∈ pvs} ↔ Decided s (pvs.map fun pv => (pv, false)) pv
    rw [decided_map]
    by_cases h : pv ∈ pvs <;> simp [h]
  | reload => exact Iff.rfl

/-- After commands applied one at a time, the last request for a PV decides. -/
theorem mem_foldl_applyCommand_iff (s : Set String) (cmds : List IngestCommand) (pv : String) :
    pv ∈ cmds.foldl applyCommand s ↔ Decided s (requestsOf cmds) pv := by
  induction cmds generalizing s with
  | nil => exact Iff.rfl
  | cons cmd cmds ih =>
    have hset : applyCommand s cmd = {pv | Decided s cmd.requests pv} :=
      Set.ext fun q => mem_applyCommand_iff s cmd q
    rw [List.foldl_cons, ih, hset]
    exact (decided_append s cmd.requests (requestsOf cmds) pv).symm

end AuraEpics.Discover

import Mathlib
import AuraEpics.Lib.Runs

/-!
# The data-loss alert

Model of the alert block of the stats timer (`src/main.rs`, lines 666-706). Three static
counters outlive a tick: the total of the last tick, the tick of the last alert and the number
of ticks. The counters of drops and of ticks are natural numbers. A tick before the first event
does not reach the block and is not counted; `events_received` never decreases, so none follows
an alert.

The comment over the block has the alert raised when the total drop count grows, with at most
one row in about 5 minutes (30 ticks).

* `Due`: a tick outside the throttle that finds a larger total than the last alert did.

Result: `alerted_iff`, for which runs an alert is raised at every tick that is due.
-/

namespace AuraEpics.Main

open Runs

/-! ## Model -/

/-- What a tick reads (lines 666-670): `events_received`, the drops of the bus, of each buffer
    of the writer, and of the events of unknown PVs. -/
structure StatsTick where
  eventsReceived : ℕ
  busDrops : ℕ
  bufDrops : List ℕ
  droppedUnknownPv : ℕ
  deriving DecidableEq, Repr

/-- `total` (line 686). -/
def StatsTick.total (t : StatsTick) : ℕ := t.busDrops + t.bufDrops.sum + t.droppedUnknownPv

/-- The row for `alert_log` (lines 691-701). -/
structure DropAlert where
  message : String
  busChannelFull : ℕ
  sharedBufferFull : ℕ
  unknownPv : ℕ
  deriving DecidableEq, Repr

/-- The static counters (lines 682-684). -/
structure DropStatics where
  lastTotalDrops : ℕ
  lastAlertTick : ℕ
  dropTick : ℕ
  deriving DecidableEq, Repr

namespace DropStatics

/-- The condition of line 689, with `saturating_sub`. -/
def Raises (s : DropStatics) (t : StatsTick) : Prop :=
  s.lastTotalDrops < t.total ∧ (s.lastAlertTick = 0 ∨ 30 ≤ s.dropTick - s.lastAlertTick)

instance (s : DropStatics) (t : StatsTick) : Decidable (s.Raises t) :=
  inferInstanceAs (Decidable (_ ∧ _))

/-- The alert of a tick (lines 668-706), if it raises one. -/
def alert (s : DropStatics) (t : StatsTick) : Option DropAlert :=
  if 0 < t.eventsReceived ∧ s.Raises t then
    let total := t.total
    let grown := total - s.lastTotalDrops
    some {
      message :=
        s!"data loss: {total} events dropped since startup (+{grown} in last interval)"
      busChannelFull := t.busDrops
      sharedBufferFull := t.bufDrops.sum
      unknownPv := t.droppedUnknownPv }
  else none

/-- The counters after a tick (lines 668-706). -/
def tick (s : DropStatics) (t : StatsTick) : DropStatics :=
  if 0 < t.eventsReceived then
    { lastTotalDrops := t.total
      lastAlertTick := if s.Raises t then max s.dropTick 1 else s.lastAlertTick
      dropTick := s.dropTick + 1 }
  else s

end DropStatics

/-- The counters, with the tick and the total of the last alert. -/
structure DropLog where
  statics : DropStatics
  lastAlert : Option (ℕ × ℕ)
  deriving DecidableEq, Repr

namespace DropLog

def start : DropLog := ⟨⟨0, 0, 0⟩, none⟩

def step (s : DropLog) (t : StatsTick) : DropLog where
  statics := s.statics.tick t
  lastAlert :=
    if (s.statics.alert t).isSome then some (s.statics.dropTick, t.total) else s.lastAlert

/-! ## Property and condition -/

/-- No alert has been raised, or at least 30 ticks ago, and the total exceeds that of the last
    alert, or 0. -/
def Due (s : DropLog) (t : StatsTick) : Prop :=
  (∀ a ∈ s.lastAlert, a.1 + 30 ≤ s.statics.dropTick) ∧ s.lastAlert.elim 0 Prod.snd < t.total

instance (s : DropLog) (t : StatsTick) : Decidable (s.Due t) :=
  inferInstanceAs (Decidable (_ ∧ _))

/-- A tick that is due raises an alert. -/
def Alerts (s : DropLog) (t : StatsTick) : Prop := s.Due t → (s.statics.alert t).isSome

instance (s : DropLog) (t : StatsTick) : Decidable (s.Alerts t) :=
  inferInstanceAs (Decidable (_ → _))

/-- A tick that is due comes after the first event and finds a larger total than the tick
    before it did, and it is not the 30th after an alert of the first tick. -/
def Fresh (s : DropLog) (t : StatsTick) : Prop :=
  s.Due t → 0 < t.eventsReceived ∧ s.statics.lastTotalDrops < t.total ∧
    ¬(s.lastAlert.map Prod.fst = some 0 ∧ s.statics.dropTick = 30)

/-! ## The counters of the last alert -/

/-- `LAST_ALERT_TICK` is 0 before the first alert, then the tick of the last one, or 1 for the
    first tick. -/
def Recorded (s : DropLog) : Prop :=
  s.statics.lastAlertTick = s.lastAlert.elim 0 fun a => max a.1 1

theorem isSome_alert (s : DropStatics) (t : StatsTick) :
    (s.alert t).isSome ↔ 0 < t.eventsReceived ∧ s.Raises t := by
  unfold DropStatics.alert
  split_ifs with h
  · simp [h]
  · simp [h]

theorem Recorded.step {s : DropLog} (h : s.Recorded) (t : StatsTick) : (s.step t).Recorded := by
  unfold Recorded
  show (s.statics.tick t).lastAlertTick = _
  by_cases halert : (s.statics.alert t).isSome
  · obtain ⟨hevents, hraises⟩ := (isSome_alert _ _).1 halert
    have hlast : (s.step t).lastAlert = some (s.statics.dropTick, t.total) := if_pos halert
    unfold DropStatics.tick
    rw [hlast, if_pos hevents]
    exact if_pos hraises
  · have hlast : (s.step t).lastAlert = s.lastAlert := if_neg halert
    rw [hlast, ← h]
    rw [isSome_alert] at halert
    unfold DropStatics.tick
    by_cases hevents : 0 < t.eventsReceived
    · rw [if_pos hevents]
      exact if_neg fun hraises => halert ⟨hevents, hraises⟩
    · rw [if_neg hevents]

/-- The throttle holds back a tick that is due only 30 ticks after an alert of the first. -/
theorem throttle_iff {s : DropLog} (h : s.Recorded) {t : StatsTick} (hdue : s.Due t) :
    (s.statics.lastAlertTick = 0 ∨ 30 ≤ s.statics.dropTick - s.statics.lastAlertTick) ↔
      ¬(s.lastAlert.map Prod.fst = some 0 ∧ s.statics.dropTick = 30) := by
  unfold Recorded at h
  have hticks := hdue.1
  cases hlast : s.lastAlert with
  | none =>
    rw [hlast] at h
    simp [h]
  | some a =>
    rw [hlast] at h hticks
    have hpassed : a.1 + 30 ≤ s.statics.dropTick := hticks a rfl
    have hrecorded : s.statics.lastAlertTick = max a.1 1 := h
    rw [hrecorded, Option.map_some, Option.some_inj]
    omega

theorem alerts_iff {s : DropLog} (h : s.Recorded) (t : StatsTick) : s.Alerts t ↔ s.Fresh t := by
  refine forall_congr' fun hdue => ?_
  rw [isSome_alert]
  unfold DropStatics.Raises
  rw [throttle_iff h hdue]

/-- **Main theorem.** In a run of ticks from the start of the program, every tick that is due
    raises an alert, exactly if each of these comes after the first event, finds a larger total
    than the tick before it and is not the 30th after an alert of the first tick. -/
theorem alerted_iff (ticks : List StatsTick) :
    AlongSteps step Alerts start ticks ↔ AlongSteps step Fresh start ticks :=
  alongSteps_congr (fun _ t h _ => h.step t) (fun _ t h => alerts_iff h t) (by rfl) ticks

/-- Three events are dropped in the tick after an alert, and none later. No alert tells of
    them, at any of the 40 ticks that follow. -/
theorem dropsInWindow_unreported :
    let tick : ℕ → StatsTick := fun drops => ⟨100, drops, [], 0⟩
    let ticks := tick 5 :: List.replicate 40 (tick 8)
    ticks.Pairwise (fun t t' => t.total ≤ t'.total) ∧ ¬AlongSteps step Alerts start ticks := by
  decide +kernel

end DropLog

end AuraEpics.Main

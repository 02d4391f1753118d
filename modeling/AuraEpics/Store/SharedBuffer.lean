import AuraEpics.Store.Rows
import AuraEpics.Lib.BoundedQueue
import AuraEpics.Lib.Runs

/-!
# Shared buffer

Model of `SharedBuffer` (`crates/aura-store/src/writer/shared_buf.rs`, lines 23-106),
which the ingest threads and the main loop fill and the store loop empties.

A push runs in two steps: under the lock of the queue it appends the row or finds the
queue full; if it found it full, the drop is counted after the lock was released. The
steps of all producers and the takes of the store loop may interleave in any way.
`Shared` is a buffer with the producers that have been refused and not yet counted, and
with its history.

Result: `sharedBuffer_fifo`.
-/

namespace AuraEpics.Store

open Runs BoundedQueue

/-! ## The buffer -/

/-- `SharedBuffer` (lines 24-31). `storeNotify` is the permit of the `Notify`, which
    holds at most one; the capacity of the vectors is left out. -/
structure SharedBuffer (maxLen : ℕ) where
  scalars : BoundedQueue ScalarRow maxLen
  others : BoundedQueue WriterRow maxLen
  dropped : ℕ
  storeNotify : Bool

namespace SharedBuffer

variable {maxLen : ℕ}

/-- `SharedBuffer::new` (lines 34-46). -/
def new : SharedBuffer maxLen := ⟨.empty, .empty, 0, false⟩

/-- `push_scalar` under its lock (lines 50-57): `none` when the queue is full. -/
def lockScalar (b : SharedBuffer maxLen) (row : ScalarRow) : Option (SharedBuffer maxLen) :=
  (b.scalars.push row).map fun q =>
    { b with scalars := q, storeNotify := b.storeNotify || b.scalars.items.isEmpty }

/-- `push_other` under its lock (lines 67-74). -/
def lockOther (b : SharedBuffer maxLen) (row : WriterRow) : Option (SharedBuffer maxLen) :=
  (b.others.push row).map fun q =>
    { b with others := q, storeNotify := b.storeNotify || b.others.items.isEmpty }

/-- `dropped.fetch_add(1)` (lines 60 and 77). -/
def countDrop (b : SharedBuffer maxLen) : SharedBuffer maxLen := { b with dropped := b.dropped + 1 }

/-- `push_scalar` (lines 49-63) without another thread in between. -/
def pushScalar (b : SharedBuffer maxLen) (row : ScalarRow) : Bool × SharedBuffer maxLen :=
  match b.lockScalar row with
  | some b => (true, b)
  | none => (false, b.countDrop)

/-- `push_other` (lines 66-80) without another thread in between. -/
def pushOther (b : SharedBuffer maxLen) (row : WriterRow) : Bool × SharedBuffer maxLen :=
  match b.lockOther row with
  | some b => (true, b)
  | none => (false, b.countDrop)

/-- `take_scalars` (lines 83-87). -/
def takeScalars (b : SharedBuffer maxLen) : List ScalarRow × SharedBuffer maxLen :=
  (b.scalars.items, { b with scalars := .empty })

/-- `take_others` (lines 90-93). -/
def takeOthers (b : SharedBuffer maxLen) : List WriterRow × SharedBuffer maxLen :=
  (b.others.items, { b with others := .empty })

/-- `len` (lines 95-97). -/
def len (b : SharedBuffer maxLen) : ℕ := b.scalars.items.length + b.others.items.length

/-- `total_dropped` (lines 103-105). -/
def totalDropped (b : SharedBuffer maxLen) : ℕ := b.dropped

end SharedBuffer

/-! ## Producers and the store loop -/

/-- A buffer in use. `refusing` are the producers between the end of their lock and their
    `fetch_add`. The rest is history: the rows accepted, the vectors taken, how many pushes
    found their queue full and how many returned `false`. -/
structure Shared (maxLen : ℕ) where
  buf : SharedBuffer maxLen
  refusing : List ℕ
  acceptedScalars : List ScalarRow
  acceptedOthers : List WriterRow
  takenScalars : List (List ScalarRow)
  takenOthers : List (List WriterRow)
  refused : ℕ
  rejected : ℕ

/-- A step of a producer, or of the store loop. -/
inductive BufferAct where
  | pushScalar (producer : ℕ) (row : ScalarRow)
  | pushOther (producer : ℕ) (row : WriterRow)
  | countDrop (producer : ℕ)
  | takeScalars
  | takeOthers
  | notified

namespace Shared

variable {maxLen : ℕ}

/-- A new buffer. -/
def start : Shared maxLen := ⟨.new, [], [], [], [], [], 0, 0⟩

/-- The push found its queue full: its producer goes on to count the drop. -/
def refuse (s : Shared maxLen) (producer : ℕ) : Shared maxLen :=
  { s with refusing := producer :: s.refusing, refused := s.refused + 1 }

/-- One step. A producer that has been refused counts the drop before it pushes again. -/
def step (s : Shared maxLen) : BufferAct → Shared maxLen
  | .pushScalar producer row =>
    if producer ∈ s.refusing then s
    else
      match s.buf.lockScalar row with
      | some buf => { s with buf := buf, acceptedScalars := s.acceptedScalars ++ [row] }
      | none => s.refuse producer
  | .pushOther producer row =>
    if producer ∈ s.refusing then s
    else
      match s.buf.lockOther row with
      | some buf => { s with buf := buf, acceptedOthers := s.acceptedOthers ++ [row] }
      | none => s.refuse producer
  | .countDrop producer =>
    if producer ∈ s.refusing then
      { s with
        buf := s.buf.countDrop
        refusing := s.refusing.erase producer
        rejected := s.rejected + 1 }
    else s
  | .takeScalars =>
    let (rows, buf) := s.buf.takeScalars
    { s with buf := buf, takenScalars := s.takenScalars ++ [rows] }
  | .takeOthers =>
    let (rows, buf) := s.buf.takeOthers
    { s with buf := buf, takenOthers := s.takenOthers ++ [rows] }
  | .notified => { s with buf := { s.buf with storeNotify := false } }

/-! ## The invariant -/

/-- What every step keeps. -/
structure Lossless (s : Shared maxLen) : Prop where
  scalars : Fifo s.acceptedScalars s.takenScalars.flatten s.buf.scalars
  others : Fifo s.acceptedOthers s.takenOthers.flatten s.buf.others
  counted : s.buf.totalDropped = s.rejected
  refused : s.rejected + s.refusing.length = s.refused

theorem lossless_start : (start : Shared maxLen).Lossless := ⟨.start, .start, rfl, rfl⟩

variable {s : Shared maxLen}

theorem Lossless.refuse (hs : s.Lossless) (producer : ℕ) : (s.refuse producer).Lossless := by
  refine ⟨hs.scalars, hs.others, hs.counted, ?_⟩
  have := hs.refused
  simp only [Shared.refuse, List.length_cons]
  omega

theorem Lossless.pushScalar (hs : s.Lossless) (producer : ℕ) (row : ScalarRow) :
    (s.step (.pushScalar producer row)).Lossless := by
  unfold step SharedBuffer.lockScalar
  dsimp only
  split_ifs with hbusy
  · exact hs
  · cases hpush : s.buf.scalars.push row with
    | none => exact hs.refuse producer
    | some q => exact ⟨hs.scalars.push hpush, hs.others, hs.counted, hs.refused⟩

theorem Lossless.pushOther (hs : s.Lossless) (producer : ℕ) (row : WriterRow) :
    (s.step (.pushOther producer row)).Lossless := by
  unfold step SharedBuffer.lockOther
  dsimp only
  split_ifs with hbusy
  · exact hs
  · cases hpush : s.buf.others.push row with
    | none => exact hs.refuse producer
    | some q => exact ⟨hs.scalars, hs.others.push hpush, hs.counted, hs.refused⟩

theorem Lossless.countDrop (hs : s.Lossless) (producer : ℕ) :
    (s.step (.countDrop producer)).Lossless := by
  unfold step
  dsimp only
  split_ifs with hrefused
  · refine ⟨hs.scalars, hs.others, ?_, ?_⟩
    · show s.buf.totalDropped + 1 = s.rejected + 1
      rw [hs.counted]
    · show s.rejected + 1 + (s.refusing.erase producer).length = s.refused
      have hsum := hs.refused
      have hpos : 0 < s.refusing.length := List.length_pos_of_mem hrefused
      rw [List.length_erase_of_mem hrefused]
      omega
  · exact hs

theorem Lossless.takeScalars (hs : s.Lossless) : (s.step .takeScalars).Lossless := by
  refine ⟨?_, hs.others, hs.counted, hs.refused⟩
  show Fifo s.acceptedScalars (s.takenScalars ++ [s.buf.scalars.items]).flatten .empty
  rw [List.flatten_concat]
  exact hs.scalars.takeAll

theorem Lossless.takeOthers (hs : s.Lossless) : (s.step .takeOthers).Lossless := by
  refine ⟨hs.scalars, ?_, hs.counted, hs.refused⟩
  show Fifo s.acceptedOthers (s.takenOthers ++ [s.buf.others.items]).flatten .empty
  rw [List.flatten_concat]
  exact hs.others.takeAll

theorem Lossless.step (hs : s.Lossless) (act : BufferAct) : (s.step act).Lossless := by
  cases act with
  | pushScalar producer row => exact hs.pushScalar producer row
  | pushOther producer row => exact hs.pushOther producer row
  | countDrop producer => exact hs.countDrop producer
  | takeScalars => exact hs.takeScalars
  | takeOthers => exact hs.takeOthers
  | notified => exact ⟨hs.scalars, hs.others, hs.counted, hs.refused⟩

/-- What the buffer promises after any steps. -/
structure BoundedFifo (s : Shared maxLen) : Prop where
  scalars : s.takenScalars.flatten ++ s.buf.scalars.items = s.acceptedScalars
  others : s.takenOthers.flatten ++ s.buf.others.items = s.acceptedOthers
  scalarsBounded : s.buf.scalars.items.length ≤ maxLen
  othersBounded : s.buf.others.items.length ≤ maxLen
  dropped : s.buf.totalDropped = s.rejected
  refused : s.buf.totalDropped + s.refusing.length = s.refused

/-- **Main theorem**: in every state of every interleaving, the vectors taken and the rows
    held are the accepted rows of their kind in order, neither queue is over its limit,
    `total_dropped` is the number of pushes that returned `false`, and the pushes that found
    their queue full are these and the ones whose `fetch_add` is still to come. -/
theorem sharedBuffer_fifo (maxLen : ℕ) (acts : List BufferAct) :
    AlongStates step BoundedFifo (start : Shared maxLen) acts := by
  have hinv : AlongStates step Lossless (start : Shared maxLen) acts :=
    alongStates_of_step (fun s act hs => hs.step act) lossless_start acts
  refine hinv.mono fun s hs => ?_
  exact {
    scalars := hs.scalars
    others := hs.others
    scalarsBounded := s.buf.scalars.bounded
    othersBounded := s.buf.others.bounded
    dropped := hs.counted
    refused := by rw [hs.counted, hs.refused] }

end Shared

end AuraEpics.Store

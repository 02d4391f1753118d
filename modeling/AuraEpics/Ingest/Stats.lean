import AuraEpics.Ingest.Thread

/-!
# Per-PV statistics

`local_pv_stats` of an ingest thread and the snapshots it publishes
(`crates/aura-ingest/src/thread.rs`, lines 80-91 and 347-363). Only a `ScalarDelta` is
counted, and only under an id up to one million.

Results: `Batch.foldl_handle_countOf`, what the events of a pass do to the count of a PV, and
`Shard.flushStats_cases`, when a snapshot names it.
-/

namespace AuraEpics.Ingest

open Numeric AuraEpics.Session AuraEpics.Store

/-- The events of a PV since the last snapshot, in `local_pv_stats`. -/
def countOf (id : Int32) (stats : List PvStat) : ℕ := (stats.getD (asUsize id) ⟨0, .zero, 0⟩).count

/-- The ids `local_pv_stats` has entries for (line 81). -/
def HasEntry (id : Int32) : Prop := asUsize id ≤ 1000000

instance (id : Int32) : Decidable (HasEntry id) := inferInstanceAs (Decidable (_ ≤ _))

/-- The event is a `ScalarDelta`. -/
def isScalarDelta : MonitorEvent → Bool
  | .scalarDelta _ _ => true
  | _ => false

/-- The event is a `ScalarDelta` that is stored under the id. -/
def IsScalarOf (cache : String → Option Int32) (id : Int32) (t : TaggedEvent) : Prop :=
  isScalarDelta t.event = true ∧ pvIdOf cache t.pvId t.pvName = some id

instance (cache : String → Option Int32) (id : Int32) (t : TaggedEvent) :
    Decidable (IsScalarOf cache id t) :=
  inferInstanceAs (Decidable (_ ∧ _))

/-! ## Counts -/

theorem growModify_getD {α : Type} (fill : α) (idx : ℕ) (change : α → α) (v : List α) (j : ℕ) :
    (growModify fill idx change v).getD j fill =
      if idx = j then change (v.getD j fill) else v.getD j fill := by
  have hgrown : (v ++ List.replicate (idx + 1 - v.length) fill).getD j fill = v.getD j fill := by
    by_cases hj : j < v.length
    · exact List.getD_append v _ fill j hj
    · rw [List.getD_append_right v _ fill j (by omega), List.getD_eq_default v fill (by omega)]
      simp
  rw [← hgrown]
  unfold growModify
  generalize hw : v ++ List.replicate (idx + 1 - v.length) fill = w
  have hlen : idx < w.length := by
    rw [← hw, List.length_append, List.length_replicate]
    omega
  rw [List.getD_eq_getElem?_getD, List.getD_eq_getElem?_getD, List.getElem?_modify]
  split_ifs with heq
  · rw [← heq, List.getElem?_eq_getElem hlen]
    rfl
  · exact congrArg (Option.getD · fill) (id_map w[j]?)

theorem countOf_recordStat (id pvId : Int32) (stats : List PvStat) (value : Binary64)
    (severity : Int16) :
    countOf id (recordStat stats pvId value severity) =
      countOf id stats + if HasEntry pvId ∧ asUsize pvId = asUsize id then 1 else 0 := by
  unfold recordStat countOf
  by_cases hcounted : HasEntry pvId
  · rw [if_pos (show asUsize pvId ≤ 1000000 from hcounted), growModify_getD]
    by_cases heq : asUsize pvId = asUsize id
    · rw [if_pos heq, if_pos ⟨hcounted, heq⟩]
    · rw [if_neg heq, if_neg fun h => heq h.2, Nat.add_zero]
  · rw [if_neg (show ¬asUsize pvId ≤ 1000000 from hcounted), if_neg fun h => hcounted h.1,
      Nat.add_zero]

namespace Batch

variable (f : Formats) (cache : String → Option Int32) (now : ℕ)

theorem slow_localPvStats (b : Batch) (t : TaggedEvent) :
    (b.slow f cache t).localPvStats = b.localPvStats := by
  unfold slow
  dsimp only
  split
  · rfl
  · split <;> rfl

/-- Every `ScalarDelta` of the PV is counted, and no event takes a count back. -/
theorem handle_countOf (b : Batch) (t : TaggedEvent) (id : Int32) :
    countOf id b.localPvStats ≤ countOf id (b.handle f cache now t).localPvStats ∧
      (HasEntry id → IsScalarOf cache id t → 0 < countOf id (b.handle f cache now t).localPvStats) := by
  obtain ⟨name, tag, event⟩ := t
  -- only the branch of `ScalarDelta` touches the counts
  have hother (hstats : (b.handle f cache now ⟨name, tag, event⟩).localPvStats = b.localPvStats)
      (hevent : ¬IsScalarOf cache id ⟨name, tag, event⟩) :
      countOf id b.localPvStats ≤
          countOf id (b.handle f cache now ⟨name, tag, event⟩).localPvStats ∧
        (HasEntry id → IsScalarOf cache id ⟨name, tag, event⟩ →
          0 < countOf id (b.handle f cache now ⟨name, tag, event⟩).localPvStats) := by
    rw [hstats]
    exact ⟨le_rfl, fun _ h => absurd h hevent⟩
  cases event with
  | scalarDelta value time =>
    unfold handle IsScalarOf
    dsimp only
    cases hid : pvIdOf cache tag name with
    | none => exact ⟨le_rfl, fun _ h => by cases h.2⟩
    | some pvId =>
      show countOf id b.localPvStats ≤
          countOf id (recordStat b.localPvStats pvId value time.severity.toInt16) ∧
        (HasEntry id → _ ∧ some pvId = some id →
          0 < countOf id (recordStat b.localPvStats pvId value time.severity.toInt16))
      rw [countOf_recordStat]
      refine ⟨Nat.le_add_right _ _, fun hcounted h => ?_⟩
      obtain rfl : pvId = id := Option.some.inj h.2
      rw [if_pos ⟨hcounted, rfl⟩]
      omega
  | stringDelta value time | arrayDelta value time =>
    refine hother ?_ fun h => Bool.false_ne_true h.1
    unfold handle
    dsimp only
    split <;> rfl
  | _ => exact hother (b.slow_localPvStats f cache _) fun h => Bool.false_ne_true h.1

theorem foldl_handle_countOf (b : Batch) (ts : List TaggedEvent) (id : Int32) :
    countOf id b.localPvStats ≤ countOf id (ts.foldl (handle f cache now) b).localPvStats ∧
      (HasEntry id → (∃ t ∈ ts, IsScalarOf cache id t) →
        0 < countOf id (ts.foldl (handle f cache now) b).localPvStats) := by
  induction ts generalizing b with
  | nil => exact ⟨le_rfl, fun _ ⟨t, ht, _⟩ => absurd ht List.not_mem_nil⟩
  | cons t ts ih =>
    obtain ⟨hle, hpos⟩ := b.handle_countOf f cache now t id
    obtain ⟨hle', hpos'⟩ := ih (b.handle f cache now t)
    refine ⟨hle.trans hle', ?_⟩
    rintro hcounted ⟨u, hu, hscalar⟩
    obtain rfl | hu := List.mem_cons.1 hu
    · exact (hpos hcounted hscalar).trans_le hle'
    · exact hpos' hcounted ⟨u, hu, hscalar⟩

end Batch

/-! ## Snapshots -/

namespace Shard

variable (f : Formats) (before : ℕ → Binary32 → Bool)

theorem mem_snapshot {id : Int32} {stats : List PvStat} (h : 0 < countOf id stats) :
    id ∈ (snapshot stats).map Prod.fst := by
  unfold countOf at h
  rw [List.getD_eq_getElem?_getD] at h
  cases he : stats[asUsize id]? with
  | none =>
    rw [he] at h
    exact absurd h (Nat.lt_irrefl 0)
  | some e =>
    rw [he] at h
    refine List.mem_map.2 ⟨(id, e), List.mem_filterMap.2 ⟨(e, asUsize id), ?_, ?_⟩, rfl⟩
    · exact List.mk_mem_zipIdx_iff_getElem?.2 he
    · dsimp only
      rw [if_pos (show 0 < e.count from h), ofNat_asUsize]

/-- The counts are kept, or 30 s have passed and a snapshot is published that names every PV
    with a count. -/
theorem flushStats_cases (s : Shard) (now : ℕ) :
    s.flushStats now = s ∨
    (s.lastStatsFlush + 30 * 1000000000 < now ∧ (s.flushStats now).lastStatsFlush = now ∧
      ∀ id, 0 < countOf id s.localPvStats →
        ∃ snapshot ∈ (s.flushStats now).statsSink, id ∈ snapshot.map Prod.fst) := by
  unfold flushStats
  dsimp only
  split_ifs with helapsed hempty
  · refine .inr ⟨by omega, rfl, fun id hcount => ?_⟩
    have hmem := mem_snapshot hcount
    rw [hempty] at hmem
    exact absurd hmem List.not_mem_nil
  · refine .inr ⟨by omega, rfl, fun id hcount => ?_⟩
    exact ⟨_, List.mem_append_right _ List.mem_cons_self, mem_snapshot hcount⟩
  · exact .inl rfl

/-- The statistics after a pass are those of its batch, published if it is time. -/
theorem pass_stats (s : Shard) (p : Pass) (hrunning : s.running) :
    (s.pass f before p).1.localPvStats =
        ((s.flush (s.batch f p)).flushStats p.statsNow).localPvStats ∧
      (s.pass f before p).1.lastStatsFlush =
        ((s.flush (s.batch f p)).flushStats p.statsNow).lastStatsFlush ∧
      (s.pass f before p).1.statsSink =
        ((s.flush (s.batch f p)).flushStats p.statsNow).statsSink := by
  unfold pass scanHeartbeats
  rw [if_pos hrunning]
  dsimp only
  split_ifs <;> exact ⟨rfl, rfl, rfl⟩

end Shard

end AuraEpics.Ingest

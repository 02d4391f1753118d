import AuraEpics.Lib.Interning
import AuraEpics.Lib.Runs
import Mathlib.Data.List.AList
import Mathlib.Data.Finset.Card

/-!
# The ids of PVs

Model of the table `pv_lookup` (`migrations/002_pv_lookup.sql`), of the caches that each
`aura-store` instance keeps of it (`crates/aura-store/src/writer/pv_cache.rs`, lines 50-306) and
of the maps of the archiver processes, which they load when they start (`main.rs`, lines 411-430),
refresh when they subscribe PVs or recover them (`handlers.rs`, lines 41-67 and 96-114, and
`main.rs`, lines 923-935) and take PVs out of when these are unsubscribed (`main.rs`, lines
840-864 and 1007-1023).

A statement is one step, and between the two statements of one function any others can run. A
statement may fail before it does anything, and its reply may be lost. The table is numbered by a
sequence that ends at the greatest `int4`.

Results:
* `ids_agree`, a PV has one id and an id one PV, in all caches and maps and at all times;
* `ids_run_out`, how many ids have been used up, and what a cache answers then;
* `subscribed_known`, which PVs a process knows once it has subscribed them;
* `cache_bounded_iff`, when a cache stays within its limit, and that it evicts nothing;
* `lookups_accounted`, a PV costs a cache one statement.
-/

namespace AuraEpics.Store

open Interning

/-! ## Model -/

/-- The last value of the sequence of a `SERIAL` column. -/
def maxPvId : ℕ := 2147483647

/-- The table `pv_lookup`: its rows are `(pv_name, pv_id)`. -/
abbrev PvLookup := Table String maxPvId

/-- What a client sees of a statement: it is executed and answered, it is executed and the
    answer is lost, or it fails. -/
inductive Reply where
  | done
  | lost
  | failed
  deriving DecidableEq, Repr

/-- A `HashMap` from names to ids. -/
abbrev IdMap := AList fun _ : String => ℕ

/-- The rows put into the map. -/
def IdMap.insertAll (m : IdMap) (rows : List (String × ℕ)) : IdMap :=
  rows.foldl (fun m r => m.insert r.1 r.2) m

/-- The rows of some PVs, in no particular order. -/
structure RowOrder where
  yields : List (String × ℕ) → List (String × ℕ)
  perm : ∀ rows, (yields rows).Perm rows

/-- `SELECT … FROM pv_lookup WHERE pv_name = ANY(names)`. -/
def selectIds (t : PvLookup) (names : List String) (order : RowOrder) : List (String × ℕ) :=
  order.yields (t.rows.filter fun r => decide (r.1 ∈ names))

/-- `INSERT INTO pv_lookup (pv_name) SELECT unnest(names) ON CONFLICT DO NOTHING`. -/
def insertIds (t : PvLookup) (names : List String) : Reply → Bool × PvLookup
  | .done => t.offerAll names
  | .lost => (false, (t.offerAll names).2)
  | .failed => (false, t)

/-- `upsert_pv_lookup` (lines 297-306): the id of the row, new or not. -/
def upsertPvLookup (t : PvLookup) (name : String) : Reply → Option ℕ × PvLookup
  | .done => t.offer name
  | .lost => (none, (t.offer name).2)
  | .failed => (none, t)

/-- `PvCache` (lines 52-59). -/
structure PvCache where
  cache : IdMap
  maxEntries : ℕ
  hits : ℕ
  misses : ℕ
  saturations : ℕ

namespace PvCache

/-- `with_limits` (lines 66-75); the initial capacity is only reserved. -/
def withLimits (maxEntries : ℕ) : PvCache := ⟨∅, max maxEntries 1, 0, 0, 0⟩

/-- `new` (lines 62-64). -/
def new : PvCache := withLimits 8000000

/-- `len` (lines 210-212). -/
def len (c : PvCache) : ℕ := c.cache.keys.length

/-- `resolve` (lines 82-107). -/
def resolve (c : PvCache) (t : PvLookup) (name : String) (reply : Reply) :
    Option ℕ × PvCache × PvLookup :=
  match c.cache.lookup name with
  | some id => (some id, { c with hits := c.hits + 1 }, t)
  | none =>
    let answer := upsertPvLookup t name reply
    if c.maxEntries ≤ c.len then
      (answer.1, { c with saturations := c.saturations + 1, misses := c.misses + 1 }, answer.2)
    else
      let c := { c with misses := c.misses + 1 }
      match answer.1 with
      | none => (none, c, answer.2)
      | some id => (some id, { c with cache := c.cache.insert name id }, answer.2)

/-- The rows `warm` keeps of those it selects, by their ids (lines 121-138). -/
def warmRows (c : PvCache) (t : PvLookup) : List (String × ℕ) :=
  let rows := t.rows.take (c.maxEntries + 1)
  if c.maxEntries < rows.length then rows.take c.maxEntries else rows

/-- `warm` (lines 121-146). -/
def warm (c : PvCache) (t : PvLookup) : Reply → PvCache
  | .done => { c with cache := c.cache.insertAll (c.warmRows t) }
  | .lost => c
  | .failed => c

/-- The loop over the rows `bulk_upsert` has fetched (lines 189-195). -/
def insertFetched (c : PvCache) (rows : List (String × ℕ)) : PvCache :=
  rows.foldl (fun c r =>
    if c.len < c.maxEntries then { c with cache := c.cache.insert r.1 r.2 } else c) c

/-- `clear` (lines 267-272). -/
def clear (c : PvCache) : PvCache :=
  { c with cache := ∅, hits := 0, misses := 0, saturations := 0 }

end PvCache

/-- The table, the caches of the `aura-store` instances with the PVs a `bulk_upsert` between its
    two statements asks for, and the maps of the archiver processes. -/
structure LookupWorld (ι κ : Type) where
  table : PvLookup
  caches : ι → PvCache
  asked : ι → List String
  maps : κ → IdMap

/-- The steps of the instances and the processes. -/
inductive LookupStep (ι κ : Type) where
  | resolve (i : ι) (name : String) (reply : Reply)
  | warm (i : ι) (reply : Reply)
  | bulkUpsert (i : ι) (names : List String) (reply : Reply)
  | bulkFetch (i : ι) (order : RowOrder) (reply : Reply)
  | clear (i : ι)
  | load (k : κ) (reply : Reply)
  | register (k : κ) (names : List String) (reply : Reply)
  | refresh (k : κ) (names : List String) (order : RowOrder) (reply : Reply)
  | forget (k : κ) (names : List String)

namespace LookupWorld

variable {ι κ : Type} [DecidableEq ι] [DecidableEq κ]

/-- The world with another cache at `i`. -/
def setCache (w : LookupWorld ι κ) (i : ι) (c : PvCache) : LookupWorld ι κ :=
  { w with caches := Function.update w.caches i c }

/-- The world with another map at `k`. -/
def setMap (w : LookupWorld ι κ) (k : κ) (m : IdMap) : LookupWorld ι κ :=
  { w with maps := Function.update w.maps k m }

/-- The world after a step. -/
def step (w : LookupWorld ι κ) : LookupStep ι κ → LookupWorld ι κ
  | .resolve i name reply =>
    let (_, c, t) := (w.caches i).resolve w.table name reply
    { w with table := t, caches := Function.update w.caches i c }
  | .warm i reply => w.setCache i ((w.caches i).warm w.table reply)
  | .bulkUpsert i names reply =>
    -- nothing is done for no PVs, and where the insert fails nothing is fetched
    if names = [] then w
    else
      let (ok, t) := insertIds w.table names reply
      { w with table := t, asked := Function.update w.asked i (if ok then names else []) }
  | .bulkFetch i order reply =>
    let rows := if reply = .done then selectIds w.table (w.asked i) order else []
    { w.setCache i ((w.caches i).insertFetched rows) with
      asked := Function.update w.asked i [] }
  | .clear i => w.setCache i (w.caches i).clear
  | .load k reply => w.setMap k (IdMap.insertAll ∅ (if reply = .done then w.table.rows else []))
  | .register _ names reply => { w with table := (insertIds w.table names reply).2 }
  | .refresh k names order reply =>
    w.setMap k ((w.maps k).insertAll (if reply = .done then selectIds w.table names order else []))
  | .forget k names => w.setMap k (names.foldl (fun m name => m.erase name) (w.maps k))

/-- Nothing is done for no PVs; else the PVs are asked for if the insert is answered. -/
theorem step_bulkUpsert (w : LookupWorld ι κ) (i : ι) (names : List String) (reply : Reply) :
    w.step (.bulkUpsert i names reply) =
      if names = [] then w
      else { w with
        table := (insertIds w.table names reply).2
        asked := Function.update w.asked i
          (if (insertIds w.table names reply).1 then names else []) } := rfl

/-- What a resolve answers. -/
def answers (w : LookupWorld ι κ) : LookupStep ι κ → List (String × ℕ)
  | .resolve i name reply =>
    (((w.caches i).resolve w.table name reply).1.map fun id => (name, id)).toList
  | _ => []

/-- Caches as they are made and maps before they are loaded. -/
def start (table : PvLookup) (limits : ι → ℕ) : LookupWorld ι κ :=
  ⟨table, fun i => .withLimits (limits i), fun _ => [], fun _ => ∅⟩

/-! ## One id for a PV -/

/-- What an instance or a process knows of the ids. -/
def ids (w : LookupWorld ι κ) : ι ⊕ κ → String → Option ℕ
  | .inl i => fun name => (w.caches i).cache.lookup name
  | .inr k => fun name => (w.maps k).lookup name

/-- All of it is in the table. -/
def Coherent (w : LookupWorld ι κ) : Prop := ∀ p, Copy w.table (w.ids p)

end LookupWorld

/-- The entries of the map are rows of the table. -/
def IdMap.CopyOf (m : IdMap) (t : PvLookup) : Prop := Copy t fun name => m.lookup name

section Copies

variable {t : PvLookup} {m : IdMap}

theorem IdMap.CopyOf.mono {t' : PvLookup} (h : m.CopyOf t) (hextend : t.Extends t') :
    m.CopyOf t' := Copy.mono h hextend

theorem IdMap.CopyOf.insert (h : m.CopyOf t) {name : String} {id : ℕ}
    (hfind : t.find name = some id) : IdMap.CopyOf (m.insert name id) t := by
  have hlookup : (fun other => (m.insert name id).lookup other) =
      Function.update (fun other => m.lookup other) name (some id) := by
    funext other
    by_cases heq : other = name
    · subst heq
      rw [AList.lookup_insert, Function.update_self]
    · rw [AList.lookup_insert_ne heq, Function.update_of_ne heq]
  unfold IdMap.CopyOf
  rw [hlookup]
  exact Copy.insert h hfind

theorem IdMap.CopyOf.insertAll (h : m.CopyOf t) {rows : List (String × ℕ)}
    (hrows : ∀ r ∈ rows, r ∈ t.rows) : (m.insertAll rows).CopyOf t := by
  induction rows generalizing m with
  | nil => exact h
  | cons r rows ih =>
    refine ih (h.insert (Table.find_eq_some.2 (hrows r List.mem_cons_self))) fun s hs => ?_
    exact hrows s (List.mem_cons_of_mem _ hs)

theorem IdMap.copyOf_empty : IdMap.CopyOf ∅ t := by
  intro name id h
  replace h : AList.lookup name (∅ : IdMap) = some id := h
  rw [AList.lookup_empty] at h
  cases h

theorem IdMap.CopyOf.eraseAll (h : m.CopyOf t) (names : List String) :
    IdMap.CopyOf (names.foldl (fun m name => m.erase name) m) t := by
  induction names generalizing m with
  | nil => exact h
  | cons name names ih =>
    refine ih fun other id hother => ?_
    replace hother : (m.erase name).lookup other = some id := hother
    by_cases heq : other = name
    · subst heq
      rw [AList.lookup_erase] at hother
      cases hother
    · rw [AList.lookup_erase_ne heq] at hother
      exact h other id hother

theorem mem_rows_of_mem_selectIds {names : List String} {order : RowOrder} {r : String × ℕ}
    (h : r ∈ selectIds t names order) : r ∈ t.rows :=
  List.mem_of_mem_filter ((order.perm _).mem_iff.1 h)

theorem PvCache.mem_rows_of_mem_warmRows {c : PvCache} {r : String × ℕ} (h : r ∈ c.warmRows t) :
    r ∈ t.rows := by
  unfold PvCache.warmRows at h
  dsimp only at h
  split_ifs at h
  · exact List.mem_of_mem_take (List.mem_of_mem_take h)
  · exact List.mem_of_mem_take h

theorem PvCache.copyOf_insertFetched {c : PvCache} (h : c.cache.CopyOf t)
    {rows : List (String × ℕ)} (hrows : ∀ r ∈ rows, r ∈ t.rows) :
    (c.insertFetched rows).cache.CopyOf t := by
  induction rows generalizing c with
  | nil => exact h
  | cons r rows ih =>
    have hrest : ∀ s ∈ rows, s ∈ t.rows := fun s hs => hrows s (List.mem_cons_of_mem _ hs)
    show IdMap.CopyOf (PvCache.insertFetched (if c.len < c.maxEntries
      then { c with cache := c.cache.insert r.1 r.2 } else c) rows).cache t
    refine ih ?_ hrest
    split_ifs
    · exact h.insert (Table.find_eq_some.2 (hrows r List.mem_cons_self))
    · exact h

theorem insertIds_extends (t : PvLookup) (names : List String) (reply : Reply) :
    t.Extends (insertIds t names reply).2 := by
  cases reply with
  | done => exact (t.offerAll_spec names).1
  | lost => exact (t.offerAll_spec names).1
  | failed => exact .refl t

/-- What `resolve` does: the table goes on, what is answered is in it, and so is what the cache
    knows. -/
theorem PvCache.resolve_spec {c : PvCache} (h : c.cache.CopyOf t)
    (name : String) (reply : Reply) :
    t.Extends (c.resolve t name reply).2.2 ∧
      (∀ id, (c.resolve t name reply).1 = some id →
        (c.resolve t name reply).2.2.find name = some id) ∧
      (c.resolve t name reply).2.1.cache.CopyOf (c.resolve t name reply).2.2 := by
  have hoffer := t.offer_spec name
  have hupsert : t.Extends (upsertPvLookup t name reply).2 ∧
      ∀ id, (upsertPvLookup t name reply).1 = some id →
        (upsertPvLookup t name reply).2.find name = some id := by
    cases reply with
    | done => exact ⟨hoffer.extend, hoffer.found⟩
    | lost => exact ⟨hoffer.extend, fun id hid => by cases hid⟩
    | failed => exact ⟨.refl t, fun id hid => by cases hid⟩
  obtain ⟨hextend, hfound⟩ := hupsert
  unfold PvCache.resolve
  cases hcached : c.cache.lookup name with
  | some id =>
    refine ⟨.refl t, ?_, h⟩
    rintro _ ⟨rfl⟩
    exact h name id hcached
  | none =>
    dsimp only
    split_ifs
    · exact ⟨hextend, hfound, h.mono hextend⟩
    · split
      · exact ⟨hextend, fun id hid => (Option.some_ne_none id hid.symm).elim, h.mono hextend⟩
      · rename_i id hanswer
        have hrow := hfound id hanswer
        refine ⟨hextend, ?_, (h.mono hextend).insert hrow⟩
        rintro _ ⟨rfl⟩
        exact hrow

end Copies

namespace LookupWorld

variable {ι κ : Type} {w : LookupWorld ι κ}

/-- The caches and the maps but for one are the same, and the table goes on. -/
theorem Coherent.setCache [DecidableEq ι] (h : w.Coherent) {t : PvLookup}
    (hextend : w.table.Extends t) {i : ι} {c : PvCache} (hc : c.cache.CopyOf t)
    (asked : ι → List String) :
    Coherent { w with table := t, caches := Function.update w.caches i c, asked := asked } := by
  rintro (j | k)
  · show IdMap.CopyOf (Function.update w.caches i c j).cache t
    by_cases heq : j = i
    · subst heq
      rw [Function.update_self]
      exact hc
    · rw [Function.update_of_ne heq]
      exact (h (.inl j)).mono hextend
  · exact (h (.inr k)).mono hextend

theorem Coherent.setMap [DecidableEq κ] (h : w.Coherent) {k : κ} {m : IdMap}
    (hm : m.CopyOf w.table) : (w.setMap k m).Coherent := by
  rintro (i | l)
  · exact h (.inl i)
  · show IdMap.CopyOf (Function.update w.maps k m l) w.table
    by_cases heq : l = k
    · subst heq
      rw [Function.update_self]
      exact hm
    · rw [Function.update_of_ne heq]
      exact h (.inr l)

theorem Coherent.setTable (h : w.Coherent) {t : PvLookup} (hextend : w.table.Extends t)
    (asked : ι → List String) : Coherent { w with table := t, asked := asked } := by
  rintro (i | k)
  · exact (h (.inl i)).mono hextend
  · exact (h (.inr k)).mono hextend

theorem coherent_start (table : PvLookup) (limits : ι → ℕ) :
    (start table limits : LookupWorld ι κ).Coherent := by
  rintro (i | k) <;> exact IdMap.copyOf_empty

variable [DecidableEq ι] [DecidableEq κ]

/-- A step keeps the rows of the table, keeps all copies of them, and answers from them. -/
theorem Coherent.step (h : w.Coherent) (s : LookupStep ι κ) :
    w.table.Extends (w.step s).table ∧ (w.step s).Coherent ∧
      ∀ r ∈ w.answers s, (w.step s).table.find r.1 = some r.2 := by
  have hnone : ∀ {t : PvLookup}, ∀ r ∈ ([] : List (String × ℕ)), t.find r.1 = some r.2 :=
    fun r hr => absurd hr List.not_mem_nil
  cases s with
  | resolve i name reply =>
    obtain ⟨hextend, hanswer, hcopy⟩ := PvCache.resolve_spec (h (.inl i)) name reply
    refine ⟨hextend, h.setCache hextend hcopy w.asked, fun r hr => ?_⟩
    obtain ⟨id, hid, rfl⟩ := Option.map_eq_some_iff.1 (Option.mem_toList.1 hr)
    exact hanswer id hid
  | warm i reply =>
    refine ⟨.refl _, h.setCache (.refl _) ?_ w.asked, hnone⟩
    cases reply with
    | done => exact IdMap.CopyOf.insertAll (h (.inl i)) fun r => PvCache.mem_rows_of_mem_warmRows
    | lost => exact h (.inl i)
    | failed => exact h (.inl i)
  | bulkUpsert i names reply =>
    have hextend := insertIds_extends w.table names reply
    rw [step_bulkUpsert]
    by_cases hnil : names = []
    · rw [if_pos hnil]
      exact ⟨.refl _, h, hnone⟩
    · rw [if_neg hnil]
      exact ⟨hextend, h.setTable hextend _, hnone⟩
  | bulkFetch i order reply =>
    have hrows : ∀ r ∈ if reply = .done then selectIds w.table (w.asked i) order else [],
        r ∈ w.table.rows := by
      intro r hr
      split_ifs at hr
      · exact mem_rows_of_mem_selectIds hr
      · cases hr
    have hcopy := PvCache.copyOf_insertFetched (h (.inl i)) hrows
    exact ⟨.refl _, h.setCache (.refl _) hcopy _, hnone⟩
  | clear i => exact ⟨.refl _, h.setCache (.refl _) IdMap.copyOf_empty w.asked, hnone⟩
  | load k reply =>
    refine ⟨.refl _, h.setMap (IdMap.CopyOf.insertAll IdMap.copyOf_empty fun r hr => ?_), hnone⟩
    split_ifs at hr
    · exact hr
    · cases hr
  | register k names reply =>
    have hextend := insertIds_extends w.table names reply
    exact ⟨hextend, h.setTable hextend w.asked, hnone⟩
  | refresh k names order reply =>
    refine ⟨.refl _, h.setMap (IdMap.CopyOf.insertAll (h (.inr k)) fun r hr => ?_), hnone⟩
    split_ifs at hr
    · exact mem_rows_of_mem_selectIds hr
    · cases hr
  | forget k names => exact ⟨.refl _, h.setMap (IdMap.CopyOf.eraseAll (h (.inr k)) names), hnone⟩

theorem Coherent.run (h : w.Coherent) (steps : List (LookupStep ι κ)) :
    w.table.Extends (Runs.run LookupWorld.step w steps).table ∧
      (Runs.run LookupWorld.step w steps).Coherent ∧
      ∀ r ∈ Runs.outputs LookupWorld.step answers w steps,
        (Runs.run LookupWorld.step w steps).table.find r.1 = some r.2 := by
  induction steps generalizing w with
  | nil => exact ⟨.refl _, h, fun r hr => absurd hr List.not_mem_nil⟩
  | cons s steps ih =>
    obtain ⟨hextend, hcoherent, hanswers⟩ := h.step s
    obtain ⟨hextend', hcoherent', hanswers'⟩ := ih hcoherent
    refine ⟨hextend.trans hextend', hcoherent', fun r hr => ?_⟩
    obtain hr | hr := List.mem_append.1 hr
    · exact hextend'.find (hanswers r hr)
    · exact hanswers' r hr

/-- **Main theorem**: let instances and processes start on a table and take any steps. An id that
    any of them knows at one time and one that any of them knows at a later time, or that a
    `resolve` answers in between, are the same exactly if they are of the same PV; the rows of the
    table stay. -/
theorem ids_agree (table : PvLookup) (limits : ι → ℕ) (pre post : List (LookupStep ι κ)) :
    let w₁ := Runs.run step (start table limits : LookupWorld ι κ) pre
    let w₂ := Runs.run step w₁ post
    w₁.table.Extends w₂.table ∧
      (∀ p q a b m n, w₁.ids p a = some m → w₂.ids q b = some n → (a = b ↔ m = n)) ∧
      ∀ p a m, w₁.ids p a = some m → ∀ r ∈ Runs.outputs step answers w₁ post,
        (a = r.1 ↔ m = r.2) := by
  intro w₁ w₂
  obtain ⟨-, hcoherent, -⟩ := (coherent_start (κ := κ) table limits).run pre
  obtain ⟨hextend, hcoherent', hanswers⟩ := hcoherent.run post
  refine ⟨hextend, fun p q a b m n hp hq => ?_, fun p a m hp r hr => ?_⟩
  · exact ((hcoherent p).mono hextend).eq_iff (hcoherent' q) hp hq
  · exact Table.find_eq_iff (hextend.find (hcoherent p a m hp)) (hanswers r hr)

/-! ## How many ids are used up -/

/-- The PVs a step offers to the table. -/
def offered (w : LookupWorld ι κ) : LookupStep ι κ → List String
  | .resolve i name reply =>
    if ((w.caches i).cache.lookup name).isSome ∨ reply = .failed then [] else [name]
  | .bulkUpsert _ names reply => if reply = .failed then [] else names
  | .register _ names reply => if reply = .failed then [] else names
  | _ => []

theorem drawn_insertIds (t : PvLookup) (names : List String) (reply : Reply) :
    (insertIds t names reply).2.drawn =
      min maxPvId (t.drawn + (if reply = .failed then [] else names).length) := by
  cases reply with
  | done => exact (t.offerAll_spec names).2.1
  | lost => exact (t.offerAll_spec names).2.1
  | failed => exact (Nat.min_eq_right t.bounded).symm

theorem drawn_resolve (c : PvCache) (t : PvLookup) (name : String) (reply : Reply) :
    (c.resolve t name reply).2.2.drawn = min maxPvId (t.drawn +
      (if (c.cache.lookup name).isSome ∨ reply = .failed then [] else [name]).length) := by
  have hsame : t.drawn = min maxPvId (t.drawn + 0) := (Nat.min_eq_right t.bounded).symm
  have hupsert : (upsertPvLookup t name reply).2.drawn =
      min maxPvId (t.drawn + (if reply = .failed then [] else [name]).length) := by
    cases reply with
    | done => exact (t.offer_spec name).drawn
    | lost => exact (t.offer_spec name).drawn
    | failed => exact hsame
  unfold PvCache.resolve
  cases hcached : c.cache.lookup name with
  | some id => exact hsame
  | none =>
    simp only [Option.isSome_none, Bool.false_eq_true, false_or]
    split_ifs at hupsert ⊢
    all_goals
      first
      | exact hupsert
      | (split <;> exact hupsert)

theorem drawn_step (w : LookupWorld ι κ) (s : LookupStep ι κ) :
    (w.step s).table.drawn = min maxPvId (w.table.drawn + (w.offered s).length) := by
  have hsame : w.table.drawn = min maxPvId (w.table.drawn + 0) :=
    (Nat.min_eq_right w.table.bounded).symm
  cases s with
  | resolve i name reply => exact drawn_resolve (w.caches i) w.table name reply
  | bulkUpsert i names reply =>
    rw [step_bulkUpsert]
    by_cases hnil : names = []
    · rw [if_pos hnil]
      show _ = min maxPvId (w.table.drawn + (if reply = .failed then [] else names).length)
      rw [hnil, ite_self]
      exact hsame
    · rw [if_neg hnil]
      exact drawn_insertIds w.table names reply
  | register k names reply => exact drawn_insertIds w.table names reply
  | warm i reply => exact hsame
  | bulkFetch i order reply => exact hsame
  | clear i => exact hsame
  | load k reply => exact hsame
  | refresh k names order reply => exact hsame
  | forget k names => exact hsame

theorem drawn_run (w : LookupWorld ι κ) (steps : List (LookupStep ι κ)) :
    (Runs.run step w steps).table.drawn =
      min maxPvId (w.table.drawn + (Runs.outputs step offered w steps).length) := by
  induction steps generalizing w with
  | nil => exact (Nat.min_eq_right w.table.bounded).symm
  | cons s steps ih =>
    show (Runs.run step (w.step s) steps).table.drawn = min maxPvId
      (w.table.drawn + (w.offered s ++ Runs.outputs step offered (w.step s) steps).length)
    rw [ih, drawn_step, List.length_append]
    omega

/-- A `resolve` whose statement is answered has an id exactly if the cache has one or the
    sequence is not at its end. -/
theorem resolve_isSome (c : PvCache) (t : PvLookup) (name : String) :
    (c.resolve t name .done).1.isSome ↔ (c.cache.lookup name).isSome ∨ t.drawn < maxPvId := by
  have hoffer := (t.offer_spec name).some_iff
  unfold PvCache.resolve
  cases hcached : c.cache.lookup name with
  | some id => simp
  | none =>
    simp only [Option.isSome_none, Bool.false_eq_true, false_or]
    show Option.isSome (if c.maxEntries ≤ c.len then _ else _ : Option ℕ × PvCache × PvLookup).1 ↔ _
    rw [← hoffer]
    split_ifs
    · rfl
    · show Option.isSome (match (t.offer name).1 with | none => _ | some id => _ :
        Option ℕ × PvCache × PvLookup).1 ↔ _
      cases (t.offer name).1 <;> simp

/-- **Main theorem**: every PV a statement offers uses up an id, also one that has an id already.
    After any steps the ids used up are all that were offered, up to the end of the sequence, and
    the PVs with an id are at most as many. From then on a `resolve` that is answered has an id
    exactly if the cache has one or the sequence is not at its end: a PV of the table that no
    cache holds cannot be resolved any more. -/
theorem ids_run_out (w : LookupWorld ι κ) (steps : List (LookupStep ι κ)) :
    let w' := Runs.run step w steps
    let used := w.table.drawn + (Runs.outputs step offered w steps).length
    w'.table.drawn = min maxPvId used ∧ w'.table.rows.length ≤ w'.table.drawn ∧
      ∀ i name, ((w'.caches i).resolve w'.table name .done).1.isSome ↔
        ((w'.caches i).cache.lookup name).isSome ∨ used < maxPvId := by
  intro w' used
  have hdrawn : w'.table.drawn = min maxPvId used := drawn_run w steps
  refine ⟨hdrawn, w'.table.length_le_drawn, fun i name => ?_⟩
  rw [resolve_isSome, hdrawn]
  exact or_congr_right (by omega)

/-! ## What a process knows of the PVs it subscribes -/

end LookupWorld

section Insertions

variable {m : IdMap} {rows : List (String × ℕ)} {name : String}

theorem IdMap.lookup_insertAll_of_not_mem (h : name ∉ rows.map Prod.fst) :
    (m.insertAll rows).lookup name = m.lookup name := by
  induction rows generalizing m with
  | nil => rfl
  | cons r rows ih =>
    rw [List.map_cons, List.mem_cons, not_or] at h
    exact (ih h.2).trans (AList.lookup_insert_ne h.1)

theorem IdMap.mem_insertAll : name ∈ m.insertAll rows ↔ name ∈ m ∨ name ∈ rows.map Prod.fst := by
  induction rows generalizing m with
  | nil => exact (or_iff_left List.not_mem_nil).symm
  | cons r rows ih =>
    show name ∈ IdMap.insertAll (m.insert r.1 r.2) rows ↔ _
    rw [ih, AList.mem_insert, List.map_cons, List.mem_cons, or_assoc, or_left_comm]

theorem mem_names_selectIds {t : PvLookup} {names : List String} {order : RowOrder} :
    name ∈ (selectIds t names order).map Prod.fst ↔ name ∈ names ∧ (t.find name).isSome := by
  have hperm := (order.perm (t.rows.filter fun r => decide (r.1 ∈ names))).map Prod.fst
  rw [show (selectIds t names order).map Prod.fst = (order.yields _).map Prod.fst from rfl,
    hperm.mem_iff, List.mem_map]
  constructor
  · rintro ⟨r, hr, rfl⟩
    obtain ⟨hrow, hname⟩ := List.mem_filter.1 hr
    have hfind : t.find r.1 = some r.2 := Table.find_eq_some.2 hrow
    exact ⟨of_decide_eq_true hname, by rw [hfind]; rfl⟩
  · rintro ⟨hname, hsome⟩
    obtain ⟨id, hid⟩ := Option.isSome_iff_exists.1 hsome
    exact ⟨(name, id), List.mem_filter.2 ⟨Table.find_eq_some.1 hid, decide_eq_true hname⟩, rfl⟩

end Insertions

namespace LookupWorld

variable {ι κ : Type} [DecidableEq ι] [DecidableEq κ]

/-- **Main theorem**: let a process register PVs and ask for their ids, any steps of any instances
    and processes coming before and in between. It then knows of each of them what the table has,
    and of the other PVs what it knew. The table has those that it had and, if the sequence had
    numbers left for all names of the statement, all of them. -/
theorem subscribed_known (table : PvLookup) (limits : ι → ℕ) (pre mid : List (LookupStep ι κ))
    (k : κ) (names : List String) (order : RowOrder) :
    let w := Runs.run step (start table limits) pre
    let w' := Runs.run step (w.step (.register k names .done)) mid
    let known := (w'.step (.refresh k names order .done)).ids (.inr k)
    (∀ name ∈ names, known name = w'.table.find name) ∧
      (∀ name, name ∉ names → known name = w'.ids (.inr k) name) ∧
      ∀ name ∈ names, (w.table.find name).isSome ∨ w.table.drawn + names.length ≤ maxPvId →
        (known name).isSome := by
  intro w w' known
  have hw := ((coherent_start (κ := κ) table limits).run pre).2.1
  obtain ⟨hextend, hregistered, -⟩ := hw.step (.register k names .done)
  obtain ⟨hextend', hcoherent, -⟩ := hregistered.run mid
  have hcopy : IdMap.CopyOf ((w'.maps k).insertAll (selectIds w'.table names order)) w'.table :=
    IdMap.CopyOf.insertAll (hcoherent (.inr k)) fun r hr => mem_rows_of_mem_selectIds hr
  have hknown : known = fun name =>
      ((w'.maps k).insertAll (selectIds w'.table names order)).lookup name := by
    show (fun name => AList.lookup name (Function.update w'.maps k _ k)) = _
    rw [Function.update_self]
    rfl
  have htable : ∀ name ∈ names, known name = w'.table.find name := by
    intro name hname
    rw [hknown]
    cases hfind : w'.table.find name with
    | none =>
      refine Option.eq_none_iff_forall_ne_some.2 fun id hid => ?_
      rw [hcopy name id hid] at hfind
      cases hfind
    | some id =>
      have hmem : name ∈ (w'.maps k).insertAll (selectIds w'.table names order) :=
        IdMap.mem_insertAll.2 (.inr (mem_names_selectIds.2 ⟨hname, by rw [hfind]; rfl⟩))
      obtain ⟨other, hother⟩ := Option.isSome_iff_exists.1 (AList.lookup_isSome.2 hmem)
      exact hother.trans (hfind ▸ hcopy name other hother).symm
  refine ⟨htable, fun name hname => ?_, fun name hname h => ?_⟩
  · rw [hknown]
    exact IdMap.lookup_insertAll_of_not_mem fun h => hname (mem_names_selectIds.1 h).1
  · rw [htable name hname]
    have hoffer := Table.offerAll_spec w.table names
    have hsome : ((w.table.offerAll names).2.find name).isSome := by
      obtain h | h := h
      · obtain ⟨id, hid⟩ := Option.isSome_iff_exists.1 h
        exact Option.isSome_iff_exists.2 ⟨id, hoffer.1.find hid⟩
      · exact hoffer.2.2.1 (by rw [Table.offerAll, if_pos h]) name hname
    obtain ⟨id, hid⟩ := Option.isSome_iff_exists.1 hsome
    exact Option.isSome_iff_exists.2 ⟨id, hextend'.find hid⟩

end LookupWorld

/-! ## The limit of a cache -/

namespace PvCache

variable {c : PvCache} {t : PvLookup}

theorem len_eq_card (c : PvCache) : c.len = c.cache.keys.toFinset.card :=
  (List.toFinset_card_of_nodup c.cache.keys_nodup).symm

theorem length_keys_insert_le (m : IdMap) (name : String) (id : ℕ) :
    m.keys.length ≤ (m.insert name id).keys.length ∧
      (m.insert name id).keys.length ≤ m.keys.length + 1 := by
  rw [AList.keys_insert, List.length_cons, List.length_erase]
  split_ifs with h
  · have := List.length_pos_of_mem h
    omega
  · omega

theorem length_keys_insert_of_not_mem {m : IdMap} {name : String} (h : name ∉ m) (id : ℕ) :
    (m.insert name id).keys.length = m.keys.length + 1 := by
  rw [AList.keys_insert, List.length_cons, List.erase_of_not_mem h]

theorem warmRows_eq (c : PvCache) (t : PvLookup) : c.warmRows t = t.rows.take c.maxEntries := by
  unfold warmRows
  dsimp only
  split_ifs with h
  · rw [List.take_take, Nat.min_eq_left (Nat.le_succ _)]
  · rw [List.length_take] at h
    rw [List.take_of_length_le (by omega), List.take_of_length_le (by omega)]

theorem keys_warm (c : PvCache) (t : PvLookup) : (c.warm t .done).cache.keys.toFinset =
    c.cache.keys.toFinset ∪ ((t.rows.take c.maxEntries).map Prod.fst).toFinset := by
  ext name
  rw [Finset.mem_union, List.mem_toFinset, List.mem_toFinset, List.mem_toFinset, ← warmRows_eq]
  exact IdMap.mem_insertAll

/-- `warm` leaves a cache within its limit exactly if it finds every PV of the cache among the
    rows it reads. -/
theorem len_warm_le_iff (hcopy : c.cache.CopyOf t) :
    (c.warm t .done).len ≤ c.maxEntries ↔
      ∀ name ∈ c.cache.keys, name ∈ (t.rows.take c.maxEntries).map Prod.fst := by
  have hnodup : ((t.rows.take c.maxEntries).map Prod.fst).Nodup :=
    t.names.sublist ((List.take_sublist _ _).map Prod.fst)
  have hcard : ((t.rows.take c.maxEntries).map Prod.fst).toFinset.card =
      min c.maxEntries t.rows.length := by
    rw [List.toFinset_card_of_nodup hnodup, List.length_map, List.length_take]
  rw [len_eq_card, keys_warm]
  constructor
  · intro hle name hname
    by_contra hnot
    -- the PV is in the table, so `warm` has read as many other rows as the cache may hold
    obtain ⟨id, hid⟩ := Option.isSome_iff_exists.1 (AList.lookup_isSome.2 hname)
    have hrow : (name, id) ∈ t.rows := Table.find_eq_some.1 (hcopy name id hid)
    have hlong : c.maxEntries < t.rows.length := by
      by_contra hshort
      rw [List.take_of_length_le (Nat.le_of_not_lt hshort)] at hnot
      exact hnot (List.mem_map.2 ⟨(name, id), hrow, rfl⟩)
    have hsub : insert name ((t.rows.take c.maxEntries).map Prod.fst).toFinset ⊆
        c.cache.keys.toFinset ∪ ((t.rows.take c.maxEntries).map Prod.fst).toFinset :=
      Finset.insert_subset (Finset.mem_union_left _ (List.mem_toFinset.2 hname))
        Finset.subset_union_right
    have hmore := Finset.card_le_card hsub
    rw [Finset.card_insert_of_notMem (fun h => hnot (List.mem_toFinset.1 h)), hcard] at hmore
    omega
  · intro h
    have hsub : c.cache.keys.toFinset ⊆ ((t.rows.take c.maxEntries).map Prod.fst).toFinset :=
      fun name hname => List.mem_toFinset.2 (h name (List.mem_toFinset.1 hname))
    rw [Finset.union_eq_right.2 hsub, hcard]
    exact Nat.min_le_left _ _

/-- What the rows of a `bulk_upsert` make of a cache. -/
theorem insertFetched_spec (c : PvCache) (rows : List (String × ℕ)) :
    (c.insertFetched rows).maxEntries = c.maxEntries ∧
      (c.insertFetched rows).hits = c.hits ∧ (c.insertFetched rows).misses = c.misses ∧
      (c.insertFetched rows).saturations = c.saturations ∧ c.len ≤ (c.insertFetched rows).len ∧
      (c.len ≤ c.maxEntries → (c.insertFetched rows).len ≤ c.maxEntries) := by
  induction rows generalizing c with
  | nil => exact ⟨rfl, rfl, rfl, rfl, Nat.le_refl _, id⟩
  | cons r rows ih =>
    by_cases hroom : c.len < c.maxEntries
    · have hcons : c.insertFetched (r :: rows) =
          ({ c with cache := c.cache.insert r.1 r.2 } : PvCache).insertFetched rows := by
        show insertFetched (if c.len < c.maxEntries then _ else c) rows = _
        rw [if_pos hroom]
      obtain ⟨hmax, hhits, hmisses, hsaturations, hgrow, hwithin⟩ :=
        ih { c with cache := c.cache.insert r.1 r.2 }
      obtain ⟨hlo, hhi⟩ := length_keys_insert_le c.cache r.1 r.2
      rw [hcons]
      exact ⟨hmax, hhits, hmisses, hsaturations, hlo.trans hgrow,
        fun _ => hwithin (hhi.trans hroom)⟩
    · have hcons : c.insertFetched (r :: rows) = c.insertFetched rows := by
        show insertFetched (if c.len < c.maxEntries then _ else c) rows = _
        rw [if_neg hroom]
      rw [hcons]
      exact ih c

theorem mem_insertFetched {c : PvCache} (rows : List (String × ℕ)) {name : String}
    (h : name ∈ c.cache) : name ∈ (c.insertFetched rows).cache := by
  induction rows generalizing c with
  | nil => exact h
  | cons r rows ih =>
    show name ∈ (PvCache.insertFetched (if c.len < c.maxEntries
      then { c with cache := c.cache.insert r.1 r.2 } else c) rows).cache
    refine ih ?_
    split_ifs
    · exact (AList.mem_insert _).2 (.inr h)
    · exact h

/-- What a `resolve` makes of a cache: whether it had the PV, whether it was full, and whether it
    has an answer. -/
theorem resolve_cases (c : PvCache) (t : PvLookup) (name : String) (reply : Reply) :
    ((c.resolve t name reply).2.1 = { c with hits := c.hits + 1 }) ∨
      (c.maxEntries ≤ c.len ∧ (c.resolve t name reply).2.1 =
        { c with saturations := c.saturations + 1, misses := c.misses + 1 }) ∨
      (c.len < c.maxEntries ∧ (c.resolve t name reply).1 = none ∧
        (c.resolve t name reply).2.1 = { c with misses := c.misses + 1 }) ∨
      (c.len < c.maxEntries ∧ name ∉ c.cache ∧ ∃ id, (c.resolve t name reply).2.1 =
        { c with misses := c.misses + 1, cache := c.cache.insert name id }) := by
  unfold resolve
  cases hcached : c.cache.lookup name with
  | some id => exact .inl rfl
  | none =>
    have hnot : name ∉ c.cache := AList.lookup_eq_none.1 hcached
    dsimp only
    split_ifs with hfull
    · exact .inr (.inl ⟨hfull, rfl⟩)
    · have hroom : c.len < c.maxEntries := Nat.lt_of_not_le hfull
      split
      · exact .inr (.inr (.inl ⟨hroom, rfl, rfl⟩))
      · rename_i id _
        exact .inr (.inr (.inr ⟨hroom, hnot, id, rfl⟩))

theorem maxEntries_resolve (c : PvCache) (t : PvLookup) (name : String) (reply : Reply) :
    (c.resolve t name reply).2.1.maxEntries = c.maxEntries := by
  obtain h | ⟨-, h⟩ | ⟨-, -, h⟩ | ⟨-, -, id, h⟩ := resolve_cases c t name reply <;> rw [h]

theorem len_resolve_le (c : PvCache) (t : PvLookup) (name : String) (reply : Reply)
    (hlen : c.len ≤ c.maxEntries) : (c.resolve t name reply).2.1.len ≤ c.maxEntries := by
  obtain h | ⟨-, h⟩ | ⟨-, -, h⟩ | ⟨hroom, -, id, h⟩ := resolve_cases c t name reply
  · rw [h]; exact hlen
  · rw [h]; exact hlen
  · rw [h]; exact hlen
  · rw [h]
    exact (length_keys_insert_le c.cache name id).2.trans hroom

end PvCache

namespace LookupWorld

variable {ι κ : Type} [DecidableEq ι] [DecidableEq κ] {w : LookupWorld ι κ}

/-- No cache has more entries than its limit. -/
def Within (w : LookupWorld ι κ) : Prop := ∀ i, (w.caches i).len ≤ (w.caches i).maxEntries

/-- A `warm` that is answered finds every PV of the cache among the rows it reads. -/
def Rereads (w : LookupWorld ι κ) : LookupStep ι κ → Prop
  | .warm i .done => ∀ name ∈ (w.caches i).cache.keys,
      name ∈ (w.table.rows.take (w.caches i).maxEntries).map Prod.fst
  | _ => True

omit [DecidableEq κ] in
theorem Within.update_iff (h : w.Within) {i : ι} {c : PvCache} :
    (∀ j, (Function.update w.caches i c j).len ≤ (Function.update w.caches i c j).maxEntries) ↔
      c.len ≤ c.maxEntries := by
  constructor
  · intro hall
    have := hall i
    rwa [Function.update_self] at this
  · intro hc j
    by_cases heq : j = i
    · subst heq
      rwa [Function.update_self]
    · rw [Function.update_of_ne heq]
      exact h j

theorem Within.step_iff (h : w.Within) (hcoherent : w.Coherent) (s : LookupStep ι κ) :
    (w.step s).Within ↔ w.Rereads s := by
  cases s with
  | resolve i name reply =>
    have hlen := PvCache.len_resolve_le (w.caches i) w.table name reply (h i)
    have hmax := PvCache.maxEntries_resolve (w.caches i) w.table name reply
    exact h.update_iff.trans (iff_true_intro (hlen.trans_eq hmax.symm))
  | warm i reply =>
    cases reply with
    | done => exact h.update_iff.trans (PvCache.len_warm_le_iff (hcoherent (.inl i)))
    | lost => exact h.update_iff.trans (iff_true_intro (h i))
    | failed => exact h.update_iff.trans (iff_true_intro (h i))
  | bulkUpsert i names reply =>
    rw [step_bulkUpsert]
    refine iff_true_intro ?_
    by_cases hnil : names = []
    · rw [if_pos hnil]
      exact h
    · rw [if_neg hnil]
      exact h
  | bulkFetch i order reply =>
    refine h.update_iff.trans (iff_true_intro ?_)
    obtain ⟨hmax, -, -, -, -, hwithin⟩ := PvCache.insertFetched_spec (w.caches i)
      (if reply = .done then selectIds w.table (w.asked i) order else [])
    rw [hmax]
    exact hwithin (h i)
  | clear i => exact h.update_iff.trans (iff_true_intro (Nat.zero_le _))
  | load k reply => exact iff_true_intro h
  | register k names reply => exact iff_true_intro h
  | refresh k names order reply => exact iff_true_intro h
  | forget k names => exact iff_true_intro h

/-- Only a `clear` takes a PV out of a cache. -/
theorem mem_cache_step {i : ι} {s : LookupStep ι κ} (hs : s ≠ .clear i) {name : String}
    (h : name ∈ (w.caches i).cache) : name ∈ ((w.step s).caches i).cache := by
  have hupdate : ∀ {j : ι} {c : PvCache}, (j = i → name ∈ c.cache) →
      name ∈ (Function.update w.caches j c i).cache := by
    intro j c hc
    by_cases heq : j = i
    · subst heq
      rw [Function.update_self]
      exact hc rfl
    · rw [Function.update_of_ne (Ne.symm heq)]
      exact h
  cases s with
  | resolve j other reply =>
    refine hupdate fun heq => ?_
    subst heq
    show name ∈ ((w.caches j).resolve w.table other reply).2.1.cache
    obtain hc | ⟨-, hc⟩ | ⟨-, -, hc⟩ | ⟨-, -, id, hc⟩ :=
      PvCache.resolve_cases (w.caches j) w.table other reply
    · rw [hc]
      exact h
    · rw [hc]
      exact h
    · rw [hc]
      exact h
    · rw [hc]
      exact (AList.mem_insert _).2 (.inr h)
  | warm j reply =>
    refine hupdate fun heq => ?_
    subst heq
    cases reply with
    | done => exact IdMap.mem_insertAll.2 (.inl h)
    | lost => exact h
    | failed => exact h
  | bulkUpsert j names reply =>
    rw [step_bulkUpsert]
    by_cases hnil : names = []
    · rw [if_pos hnil]
      exact h
    · rw [if_neg hnil]
      exact h
  | bulkFetch j order reply =>
    refine hupdate fun heq => PvCache.mem_insertFetched _ ?_
    subst heq
    exact h
  | clear j => exact hupdate fun heq => absurd (congrArg LookupStep.clear heq) hs
  | load k reply => exact h
  | register k names reply => exact h
  | refresh k names order reply => exact h
  | forget k names => exact h

/-- A cache keeps what it knows of a PV until it is cleared: an entry is not evicted, and another
    one for the same PV has the same id. -/
theorem Coherent.kept (h : w.Coherent) {i : ι} {mid : List (LookupStep ι κ)}
    (hmid : ∀ s ∈ mid, s ≠ .clear i) {name : String} {id : ℕ}
    (hid : w.ids (.inl i) name = some id) :
    (Runs.run LookupWorld.step w mid).ids (.inl i) name = some id := by
  induction mid generalizing w with
  | nil => exact hid
  | cons s mid ih =>
    rw [List.forall_mem_cons] at hmid
    obtain ⟨hextend, hcoherent, -⟩ := h.step s
    refine ih hcoherent hmid.2 ?_
    have hmem : name ∈ (w.caches i).cache := AList.lookup_isSome.1 (Option.isSome_of_eq_some hid)
    obtain ⟨id', hid'⟩ := Option.isSome_iff_exists.1 (AList.lookup_isSome.2
      (mem_cache_step hmid.1 hmem))
    have hold : (w.step s).table.find name = some id := hextend.find (h (.inl i) name id hid)
    have hnew : (w.step s).table.find name = some id' := hcoherent (.inl i) name id' hid'
    show ((w.step s).caches i).cache.lookup name = some id
    rw [hid', ← hnew, hold]

/-- A statement whose answer is lost puts `A` into the table and not into the cache, which `B`
    then fills; `warm` adds `A`. -/
def overfill (i : ι) : List (LookupStep ι κ) :=
  [.resolve i "A" .lost, .resolve i "B" .done, .warm i .done]

theorem not_alongSteps_overfill {limits : ι → ℕ} {i : ι} (hlimit : limits i ≤ 1) :
    ¬Runs.AlongSteps step Rereads (start Table.empty limits : LookupWorld ι κ) (overfill i) := by
  rintro ⟨-, -, hwarm, -⟩
  have hlimits : PvCache.withLimits (limits i) = ⟨∅, 1, 0, 0, 0⟩ := by
    rw [PvCache.withLimits, Nat.max_eq_right hlimit]
  have hmem := hwarm "B"
  simp only [step, start, Function.update_self, hlimits] at hmem
  revert hmem
  decide

/-- **Main theorem**: in every state of a run all caches are within their limits exactly if every
    `warm` of the run finds the PVs that its cache has already among the rows it reads, which are
    those with the least ids. On an empty cache, as at the start of an instance, it does; there
    are runs in which it does not. What a cache knows of a PV it keeps until it is cleared. -/
theorem cache_bounded_iff (table : PvLookup) (limits : ι → ℕ) (steps : List (LookupStep ι κ)) :
    (Runs.AlongStates step Within (start table limits) steps ↔
      Runs.AlongSteps step Rereads (start table limits) steps) ∧
    (∀ i, limits i ≤ 1 →
      ¬Runs.AlongStates step Within (start Table.empty limits : LookupWorld ι κ) (overfill i)) ∧
    ∀ i name id mid, (∀ s ∈ mid, s ≠ .clear i) →
      (Runs.run step (start table limits) steps).ids (.inl i) name = some id →
        (Runs.run step (start table limits) (steps ++ mid)).ids (.inl i) name = some id := by
  have hiff : ∀ (table : PvLookup) (steps : List (LookupStep ι κ)),
      Runs.AlongStates step Within (start table limits) steps ↔
        Runs.AlongSteps step Rereads (start table limits) steps := by
    intro table steps
    have hwithin : Within (start table limits : LookupWorld ι κ) := fun _ => Nat.zero_le _
    exact Runs.alongStates_iff_alongSteps_of_invariant (J := Coherent)
      (fun _ s h => (Coherent.step h s).2.1) (fun _ s hcoherent h => h.step_iff hcoherent s)
      (coherent_start table limits) hwithin steps
  refine ⟨hiff table steps, fun i hlimit h => ?_, fun i name id mid hmid hid => ?_⟩
  · exact not_alongSteps_overfill hlimit ((hiff Table.empty (overfill i)).1 h)
  · rw [Runs.run_append]
    exact Coherent.kept ((coherent_start table limits).run steps).2.1 hmid hid

/-- A cache of one entry has room for `A`, keeps it while `B` is looked up, and is overfilled. -/
theorem cache_bounded_iff_one :
    let start : LookupWorld Unit Empty := start Table.empty fun _ => 1
    ((Runs.run step start [.resolve () "A" .done, .resolve () "B" .done]).caches ()).cache.lookup
        "A" = some 1 ∧
      ¬Runs.AlongStates step Within start (overfill ()) := by
  intro start
  obtain ⟨-, hover, hkept⟩ := cache_bounded_iff (κ := Empty) Table.empty (fun _ : Unit => 1)
    [.resolve () "A" .done]
  exact ⟨hkept () "A" 1 [.resolve () "B" .done] (by simp) (by decide), hover () (Nat.le_refl 1)⟩

/-! ## The statements a cache costs -/

/-- The PVs the instance `i` looks up. -/
def lookups (i : ι) : LookupStep ι κ → List String
  | .resolve j name _ => if j = i then [name] else []
  | _ => []

/-- The PVs it looks up in vain, its cache having room for them. -/
def unanswered (i : ι) (w : LookupWorld ι κ) : LookupStep ι κ → List String
  | .resolve j name reply =>
    if j = i ∧ (w.caches i).len < (w.caches i).maxEntries ∧
      ((w.caches i).resolve w.table name reply).1 = none then [name] else []
  | _ => []

/-- The lookups, and the misses beside those of a full cache and those without an answer. -/
structure Accounts (c c' : PvCache) (lookups unanswered : ℕ) : Prop where
  lookups : c'.hits + c'.misses = c.hits + c.misses + lookups
  misses : c'.misses + c.saturations + c.len ≤ c.misses + c'.saturations + c'.len + unanswered

theorem Accounts.same (c : PvCache) : Accounts c c 0 0 := ⟨rfl, Nat.le_refl _⟩

theorem Accounts.trans {a b c : PvCache} {l l' u u' : ℕ} (h : Accounts a b l u)
    (h' : Accounts b c l' u') : Accounts a c (l + l') (u + u') where
  lookups := by
    rw [h'.lookups, h.lookups, Nat.add_assoc]
  misses := by
    have := h.misses
    have := h'.misses
    omega

/-- A cache that has kept its counters and has no fewer entries. -/
theorem Accounts.grown {c c' : PvCache} (hhits : c'.hits = c.hits) (hmisses : c'.misses = c.misses)
    (hsaturations : c'.saturations = c.saturations) (hlen : c.len ≤ c'.len) :
    Accounts c c' 0 0 where
  lookups := by rw [hhits, hmisses, Nat.add_zero]
  misses := by
    rw [hmisses, hsaturations]
    omega

theorem accounts_resolve (c : PvCache) (t : PvLookup) (name : String) (reply : Reply) :
    Accounts c (c.resolve t name reply).2.1 1
      (if c.len < c.maxEntries ∧ (c.resolve t name reply).1 = none then [name] else []).length := by
  obtain h | ⟨hfull, h⟩ | ⟨hroom, hnone, h⟩ | ⟨hroom, hnot, id, h⟩ :=
    c.resolve_cases t name reply
  · rw [h]
    exact ⟨by dsimp only; omega, Nat.le_add_right _ _⟩
  · rw [h, if_neg fun hroom => Nat.not_lt.2 hfull hroom.1]
    refine ⟨rfl, ?_⟩
    show c.misses + 1 + c.saturations + c.len ≤ c.misses + (c.saturations + 1) + c.len + 0
    omega
  · rw [h, if_pos ⟨hroom, hnone⟩]
    refine ⟨rfl, ?_⟩
    show c.misses + 1 + c.saturations + c.len ≤ c.misses + c.saturations + c.len + 1
    omega
  · rw [h]
    refine ⟨rfl, ?_⟩
    have hlen : PvCache.len { c with misses := c.misses + 1, cache := c.cache.insert name id } =
        c.len + 1 := PvCache.length_keys_insert_of_not_mem hnot id
    rw [hlen]
    show c.misses + 1 + c.saturations + c.len ≤ c.misses + c.saturations + (c.len + 1) + _
    omega

theorem len_le_warm (c : PvCache) (t : PvLookup) : c.len ≤ (c.warm t .done).len := by
  rw [PvCache.len_eq_card, PvCache.len_eq_card, PvCache.keys_warm]
  exact Finset.card_le_card Finset.subset_union_left

theorem accounts_step (w : LookupWorld ι κ) {i : ι} {s : LookupStep ι κ} (hs : s ≠ .clear i) :
    Accounts (w.caches i) ((w.step s).caches i) (lookups i s).length
      (w.unanswered i s).length := by
  have hsame := Accounts.same (w.caches i)
  -- a step of another instance
  have hother : ∀ {j : ι} {c : PvCache}, j ≠ i →
      Accounts (w.caches i) (Function.update w.caches j c i) 0 0 := by
    intro j c hne
    rw [Function.update_of_ne hne.symm]
    exact hsame
  cases s with
  | resolve j name reply =>
    by_cases heq : j = i
    · subst heq
      have hcaches : (w.step (.resolve j name reply)).caches j =
          ((w.caches j).resolve w.table name reply).2.1 := Function.update_self ..
      have hlookups : lookups j (.resolve j name reply : LookupStep ι κ) = [name] := if_pos rfl
      rw [hcaches, hlookups]
      simp only [unanswered, true_and]
      exact accounts_resolve _ _ _ _
    · have hlookups : lookups i (.resolve j name reply : LookupStep ι κ) = [] := if_neg heq
      have hunanswered : w.unanswered i (.resolve j name reply) = [] := if_neg fun h => heq h.1
      rw [hlookups, hunanswered]
      exact hother heq
  | warm j reply =>
    by_cases heq : j = i
    · subst heq
      have hcaches : (w.step (.warm j reply)).caches j = (w.caches j).warm w.table reply :=
        Function.update_self ..
      rw [hcaches]
      cases reply with
      | done => exact .grown rfl rfl rfl (len_le_warm _ _)
      | lost => exact hsame
      | failed => exact hsame
    · exact hother heq
  | bulkUpsert j names reply =>
    have hcaches : (w.step (.bulkUpsert j names reply)).caches = w.caches := by
      rw [step_bulkUpsert]
      split_ifs <;> rfl
    rw [hcaches]
    exact hsame
  | bulkFetch j order reply =>
    by_cases heq : j = i
    · subst heq
      obtain ⟨-, hhits, hmisses, hsaturations, hlen, -⟩ := PvCache.insertFetched_spec (w.caches j)
        (if reply = .done then selectIds w.table (w.asked j) order else [])
      have hcaches : (w.step (.bulkFetch j order reply)).caches j = (w.caches j).insertFetched
          (if reply = .done then selectIds w.table (w.asked j) order else []) :=
        Function.update_self ..
      rw [hcaches]
      exact .grown hhits hmisses hsaturations hlen
    · exact hother heq
  | clear j => exact hother fun heq => hs (heq ▸ rfl)
  | load k reply => exact hsame
  | register k names reply => exact hsame
  | refresh k names order reply => exact hsame
  | forget k names => exact hsame

/-- **Main theorem**: between two `clear`s of a cache every lookup is a hit or a miss, and apart
    from the misses of a full cache and those whose statement has no answer there are no more
    misses than the cache has gained entries. -/
theorem lookups_accounted (w : LookupWorld ι κ) (i : ι) (steps : List (LookupStep ι κ))
    (hclear : ∀ s ∈ steps, s ≠ .clear i) :
    Accounts (w.caches i) ((Runs.run step w steps).caches i)
      (Runs.outputs step (fun _ s => lookups i s) w steps).length
      (Runs.outputs step (unanswered i) w steps).length := by
  induction steps generalizing w with
  | nil => exact .same _
  | cons s steps ih =>
    have hstep := w.accounts_step (hclear s List.mem_cons_self)
    have hrest := ih (w.step s) fun t ht => hclear t (List.mem_cons_of_mem s ht)
    show Accounts _ _ (lookups i s ++ _).length (w.unanswered i s ++ _).length
    rw [List.length_append, List.length_append]
    exact hstep.trans hrest

/-- `A` is looked up twice and `B` in vain. -/
theorem lookups_accounted_twice :
    let w := Runs.run step (start Table.empty (fun _ => 10) : LookupWorld Unit Empty)
      [.resolve () "A" .done, .resolve () "B" .lost, .resolve () "A" .failed]
    (w.caches ()).hits = 1 ∧ (w.caches ()).misses = 2 ∧ (w.caches ()).len = 1 ∧
      Accounts (.withLimits 10) (w.caches ()) 3 1 :=
  ⟨by decide, by decide, by decide, lookups_accounted (start Table.empty (fun _ => 10)) ()
    [.resolve () "A" .done, .resolve () "B" .lost, .resolve () "A" .failed] (by simp)⟩

end LookupWorld

end AuraEpics.Store

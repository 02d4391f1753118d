import AuraEpics.Runtime.Driver

/-!
# A change of the IOCs

Model of the reload the main loop makes for an `ioc_change` message (`src/main.rs`, lines
882-942): it reads the enabled addresses, removes the sessions of the name servers that are no
longer among them, and calls `hot_add_ioc` for the addresses that are new. A query that fails
is read as one without rows (`unwrap_or_default`). The rows it writes to `pv_lookup` and the
cache of PV ids are not the driver's.

* `NoSession`, `KeepsSession`: what the tables of the driver say of one address.

Results:
* `removeSession_noSession`, `hotAddIoc_keepsSession`, what each call does to an address;
* `handleIocChange_exact`, what a reload comes to.
-/

namespace AuraEpics.Main

open AuraEpics.Runtime AuraEpics.Runtime.PvaDriver

variable {Addr : Type}

/-! ## Model -/

/-- What one `hot_add_ioc` of the reload meets: the PVs `pv_config` has enabled, `none` if the
    query fails, and what the IOC answers; `search` and `opened` are `none` if the connection
    fails. -/
structure HotAdd where
  configured : Option (List String)
  search : Option (String → Bool)
  opened : Option (String → BulkOutcome)

/-- A reload: the driver, the addresses removed with the PVs of their `pv_events` rows, and
    the addresses added with the PVs `hot_add_ioc` has recovered. -/
structure IocChange (Addr : Type) where
  driver : PvaDriver Addr
  removed : List (Addr × Option (List String))
  added : List (Addr × List String)

variable [DecidableEq Addr]

/-- One pass of the loop over `removed` (lines 903-914). -/
def removeOne (c : IocChange Addr) (addr : Addr) : IocChange Addr :=
  { c with
    driver := c.driver.removeSession addr
    removed := c.removed ++ [(addr, c.driver.iocPvs addr)] }

/-- One pass of the loop over `added` (lines 915-939). -/
def addOne (answers : ℕ → HotAdd) (c : IocChange Addr) (e : Addr × ℕ) : IocChange Addr :=
  let h := answers e.2
  let (recovered, driver) := c.driver.hotAddIoc e.1 (h.configured.getD []) h.search h.opened
  { c with
    driver := driver
    added := c.added ++ [(e.1, recovered)] }

/-- The reload (lines 882-940). `rows` is `none` if the query fails, `answers k` is for the
    `k`-th address that is added. -/
def handleIocChange (parse : String → Option Addr) (d : PvaDriver Addr)
    (rows : Option (List String)) (answers : ℕ → HotAdd) : IocChange Addr :=
  let newAddrs := (rows.getD []).filterMap parse
  let oldAddrs := d.nameServers
  let added := newAddrs.filter fun a => a ∉ oldAddrs
  let removed := oldAddrs.filter fun a => a ∉ newAddrs
  let c := removed.foldl removeOne ⟨{ d with nameServers := newAddrs }, [], []⟩
  added.zipIdx.foldl (addOne answers) c

/-! ## The session of an address -/

omit [DecidableEq Addr] in
/-- The driver has nothing of an address. -/
structure NoSession (d : PvaDriver Addr) (addr : Addr) : Prop where
  command : d.sessionCommands addr = none
  token : d.cancelTokens addr = none
  pvs : d.iocPvs addr = none
  cache : ∀ pv, d.pvServerCache pv ≠ some addr

omit [DecidableEq Addr] in
/-- `d'` has of an address what `d` had, but for the cache entries of the PVs in `recovered`,
    which may be gone. -/
structure KeepsSession (d d' : PvaDriver Addr) (recovered : List String) (addr : Addr) :
    Prop where
  command : d'.sessionCommands addr = d.sessionCommands addr
  token : d'.cancelTokens addr = d.cancelTokens addr
  pvs : d'.iocPvs addr = d.iocPvs addr
  cache : ∀ pv, d'.pvServerCache pv = some addr → d.pvServerCache pv = some addr
  cached : ∀ pv, pv ∉ recovered → d.pvServerCache pv = some addr → d'.pvServerCache pv = some addr

section Session

variable {d d' d'' : PvaDriver Addr} {addr : Addr} {recovered recovered' : List String}

omit [DecidableEq Addr] in
theorem KeepsSession.refl (d : PvaDriver Addr) (addr : Addr) : KeepsSession d d [] addr :=
  ⟨rfl, rfl, rfl, fun _ h => h, fun _ _ h => h⟩

omit [DecidableEq Addr] in
theorem KeepsSession.trans (h : KeepsSession d d' recovered addr)
    (h' : KeepsSession d' d'' recovered' addr) :
    KeepsSession d d'' (recovered ++ recovered') addr where
  command := h'.command.trans h.command
  token := h'.token.trans h.token
  pvs := h'.pvs.trans h.pvs
  cache pv hpv := h.cache pv (h'.cache pv hpv)
  cached pv hpv hd := by
    rw [List.mem_append, not_or] at hpv
    exact h'.cached pv hpv.2 (h.cached pv hpv.1 hd)

omit [DecidableEq Addr] in
theorem NoSession.keeps (h : NoSession d addr) (h' : KeepsSession d d' recovered addr) :
    NoSession d' addr where
  command := h'.command.trans h.command
  token := h'.token.trans h.token
  pvs := h'.pvs.trans h.pvs
  cache pv hpv := h.cache pv (h'.cache pv hpv)

end Session

/-! ## One call -/

theorem removeSession_noSession (d : PvaDriver Addr) (addr : Addr) :
    NoSession (d.removeSession addr) addr where
  command := Function.update_self ..
  token := Function.update_self ..
  pvs := Function.update_self ..
  cache pv := by
    unfold removeSession
    dsimp only
    cases d.pvServerCache pv with
    | none => simp
    | some a =>
      dsimp only
      split_ifs with ha
      · simp
      · simpa using ha

theorem removeSession_keepsSession (d : PvaDriver Addr) {addr other : Addr}
    (hother : other ≠ addr) : KeepsSession d (d.removeSession addr) [] other where
  command := Function.update_of_ne hother ..
  token := Function.update_of_ne hother ..
  pvs := Function.update_of_ne hother ..
  cache pv := by
    unfold removeSession
    dsimp only
    cases d.pvServerCache pv with
    | none => simp
    | some a =>
      dsimp only
      split_ifs <;> simp
  cached pv _ hpv := by
    unfold removeSession
    dsimp only
    rw [hpv]
    exact if_neg hother

/-- `hot_add_ioc` leaves the other addresses what they had, but for the PVs it returns. -/
theorem hotAddIoc_keepsSession (d : PvaDriver Addr) {addr other : Addr} (hother : other ≠ addr)
    (configured : List String) (search : Option (String → Bool))
    (opened : Option (String → BulkOutcome)) :
    KeepsSession d (d.hotAddIoc addr configured search opened).2
      (d.hotAddIoc addr configured search opened).1 other := by
  have hrefused : KeepsSession d d [] other := .refl d other
  cases search with
  | none => exact hrefused
  | some isFound =>
    cases opened with
    | none => exact hrefused
    | some outcome =>
      unfold hotAddIoc
      dsimp only
      generalize bulkResults outcome _ = results
      unfold recordHotAdd
      split_ifs
      · have hcache : ∀ pv, insertOk d.pvServerCache addr results pv = some other ↔
            (pv, true) ∉ results ∧ d.pvServerCache pv = some other := by
          intro pv
          rw [insertOk_apply]
          split_ifs with hpv
          · simp [hpv, hother.symm]
          · simp [hpv]
        refine ⟨Function.update_of_ne hother .., Function.update_of_ne hother ..,
          Function.update_of_ne hother .., fun pv hpv => ((hcache pv).1 hpv).2,
          fun pv hpv hd => (hcache pv).2 ⟨fun hmem => hpv ?_, hd⟩⟩
        exact List.mem_map.2 ⟨(pv, true), List.mem_filter.2 ⟨hmem, rfl⟩, rfl⟩
      · exact ⟨rfl, rfl, rfl, fun _ h => h, fun _ _ h => h⟩

theorem hotAddIoc_nameServers (d : PvaDriver Addr) (addr : Addr) (configured : List String)
    (search : Option (String → Bool)) (opened : Option (String → BulkOutcome)) :
    (d.hotAddIoc addr configured search opened).2.nameServers = d.nameServers := by
  unfold hotAddIoc
  split
  · dsimp only
    unfold recordHotAdd
    split_ifs <;> rfl
  · rfl

/-! ## The loops -/

/-- What the loop over `removed` does. -/
structure Removal (addrs : List Addr) (c c' : IocChange Addr) : Prop where
  nameServers : c'.driver.nameServers = c.driver.nameServers
  removed : c'.removed.map Prod.fst = c.removed.map Prod.fst ++ addrs
  added : c'.added = c.added
  gone : ∀ addr ∈ addrs, NoSession c'.driver addr
  kept : ∀ addr ∉ addrs, KeepsSession c.driver c'.driver [] addr

theorem foldl_removeOne (removed : List Addr) (c : IocChange Addr) :
    Removal removed c (removed.foldl removeOne c) := by
  induction removed generalizing c with
  | nil =>
    exact ⟨rfl, (List.append_nil _).symm, rfl, by simp, fun addr _ => .refl c.driver addr⟩
  | cons addr removed ih =>
    have h := ih (removeOne c addr)
    refine ⟨h.nameServers, ?_, h.added, fun a ha => ?_, fun a ha => ?_⟩
    · refine h.removed.trans ?_
      simp [removeOne]
    · by_cases hmem : a ∈ removed
      · exact h.gone a hmem
      · -- removed by this pass and not touched again
        have haddr : a = addr := (List.mem_cons.1 ha).resolve_right hmem
        rw [haddr] at hmem ⊢
        exact (removeSession_noSession c.driver addr).keeps (h.kept addr hmem)
    · rw [List.mem_cons, not_or] at ha
      exact (removeSession_keepsSession c.driver ha.1).trans (h.kept a ha.2)

/-- What the loop over `added` does. -/
structure Addition (addrs : List Addr) (c c' : IocChange Addr) : Prop where
  nameServers : c'.driver.nameServers = c.driver.nameServers
  removed : c'.removed = c.removed
  added : ∃ hotAdds : List (Addr × List String), c'.added = c.added ++ hotAdds ∧
    hotAdds.map Prod.fst = addrs ∧
    ∀ addr ∉ addrs, KeepsSession c.driver c'.driver (hotAdds.flatMap Prod.snd) addr

theorem foldl_addOne (answers : ℕ → HotAdd) (added : List (Addr × ℕ)) (c : IocChange Addr) :
    Addition (added.map Prod.fst) c (added.foldl (addOne answers) c) := by
  induction added generalizing c with
  | nil => exact ⟨rfl, rfl, [], (List.append_nil _).symm, rfl, fun addr _ => .refl c.driver addr⟩
  | cons e added ih =>
    obtain ⟨addr, k⟩ := e
    have h := ih (addOne answers c (addr, k))
    obtain ⟨hotAdds, hadded, hfst, hkept⟩ := h.added
    let recovered := (c.driver.hotAddIoc addr ((answers k).configured.getD []) (answers k).search
      (answers k).opened).1
    refine ⟨h.nameServers.trans (hotAddIoc_nameServers ..), h.removed,
      (addr, recovered) :: hotAdds, ?_, ?_, fun a ha => ?_⟩
    · refine hadded.trans ?_
      simp [addOne, recovered]
    · simp [hfst]
    · rw [List.map_cons, List.mem_cons, not_or] at ha
      exact (hotAddIoc_keepsSession c.driver ha.1 ..).trans (hkept a ha.2)

/-- **Main theorem.** A reload whose query succeeds leaves the driver with the addresses of
    the rows as name servers. It removes the sessions of the name servers that are not among
    them and calls `hot_add_ioc` for those that were not name servers. Every other address
    keeps its session and its tables, but for the PVs that an added IOC has recovered. -/
theorem handleIocChange_exact (parse : String → Option Addr) (d : PvaDriver Addr)
    (rows : List String) (answers : ℕ → HotAdd) :
    let addrs := rows.filterMap parse
    let c := handleIocChange parse d (some rows) answers
    c.driver.nameServers = addrs ∧
      c.removed.map Prod.fst = d.nameServers.filter (fun a => a ∉ addrs) ∧
      c.added.map Prod.fst = addrs.filter (fun a => a ∉ d.nameServers) ∧
      (∀ addr ∈ d.nameServers, addr ∉ addrs → NoSession c.driver addr) ∧
      ∀ addr, (addr ∈ d.nameServers ↔ addr ∈ addrs) →
        KeepsSession d c.driver (c.added.flatMap Prod.snd) addr := by
  intro addrs c
  let start : IocChange Addr := ⟨{ d with nameServers := addrs }, [], []⟩
  let removed := d.nameServers.filter fun a => a ∉ addrs
  let added := addrs.filter fun a => a ∉ d.nameServers
  have hremove : Removal removed start (removed.foldl removeOne start) := foldl_removeOne ..
  have hadd : Addition added (removed.foldl removeOne start) c := by
    have h := foldl_addOne answers added.zipIdx (removed.foldl removeOne start)
    rwa [List.zipIdx_map_fst] at h
  obtain ⟨hotAdds, hadded, hfst, hkept⟩ := hadd.added
  have hadded : c.added = hotAdds := hadded.trans (by rw [hremove.added]; rfl)
  refine ⟨hadd.nameServers.trans hremove.nameServers, ?_, ?_, fun addr hold hnew => ?_,
    fun addr hiff => ?_⟩
  · rw [hadd.removed, hremove.removed]
    rfl
  · rw [hadded, hfst]
  · have hgone := hremove.gone addr (List.mem_filter.2 ⟨hold, by simpa using hnew⟩)
    refine hgone.keeps (hkept addr fun hmem => ?_)
    exact hnew (List.mem_filter.1 hmem).1
  · have hnotRemoved : addr ∉ removed := by
      intro hmem
      obtain ⟨hold, hnew⟩ := List.mem_filter.1 hmem
      exact of_decide_eq_true hnew (hiff.1 hold)
    have hnotAdded : addr ∉ added := by
      intro hmem
      obtain ⟨hnew, hold⟩ := List.mem_filter.1 hmem
      exact of_decide_eq_true hold (hiff.2 hnew)
    have hkeeps := (hremove.kept addr hnotRemoved).trans (hkept addr hnotAdded)
    rw [hadded]
    exact ⟨hkeeps.command, hkeeps.token, hkeeps.pvs, hkeeps.cache, hkeeps.cached⟩

/-- A name server without a session is not added again, a session of an address that is no
    name server is not removed, a failed PV that an added IOC recovers is taken from the cache of
    an address that stays, and after a query that has failed nothing is left. -/
theorem iocChange_inexact :
    let parse : String → Option ℕ := fun s => if s = "1" then some 1 else some 2
    let d : PvaDriver ℕ := { PvaDriver.new [1, 2] with
      sessionCommands := fun addr => if addr = 1 ∨ addr = 3 then some ⟨addr, 0⟩ else none }
    let answers : ℕ → HotAdd := fun _ => ⟨some ["a"], some fun _ => true, some fun _ => .started⟩
    let c := handleIocChange parse d (some ["1", "2"]) answers
    let failed := handleIocChange parse d none answers
    let held : PvaDriver ℕ := { PvaDriver.new [1] with
      pvServerCache := fun pv => if pv = "a" then some 1 else none
      failedPvs := ["a"] }
    let moved := handleIocChange parse held (some ["1", "2"]) answers
    (d.sessionCommands 2 = none ∧ 2 ∈ ["1", "2"].filterMap parse ∧ c.added = []) ∧
      ((c.driver.sessionCommands 3).isSome ∧ 3 ∉ ["1", "2"].filterMap parse) ∧
      (held.nameServers = [1] ∧ moved.driver.nameServers = [1, 2] ∧
        held.pvServerCache "a" = some 1 ∧ moved.driver.pvServerCache "a" = some 2) ∧
      (failed.driver.nameServers = [] ∧ (d.sessionCommands 1).isSome ∧
        failed.driver.sessionCommands 1 = none) := by
  decide +kernel

end AuraEpics.Main

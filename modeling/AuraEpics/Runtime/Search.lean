import AuraEpics.Runtime.Driver

/-!
# The two search rounds

`PvaDriver::monitor_batch` (`crates/aura-net/src/runtime/driver.rs`, lines 186-263) first asks
each name server for its share of the PVs, then asks all of them for the PVs still unfound. In
`Driver` a server answers with a filter of the list it was asked for. Here its answer is the
list `search_pvs` returned, in any order and with any repetition, and the results of the batch
keep the error of a PV that was not found (lines 170-177 and 420-427).

* `searchRoutes_eq`, `monitorBatch_eq`: the model of `Driver` is the case of answers that
  filter.

Results:
* `lookup_round`, the entry a search round leaves for a PV;
* `search_complete`, what both rounds find and what is reported as not found.
-/

namespace AuraEpics.Runtime

/-- What `monitor_batch` reports on a PV: a handle, the error of its session, or
    `DriverError::SearchFailed` with its text. -/
inductive Report where
  | ok
  | session
  | searchFailed (msg : String)
  deriving DecidableEq, Repr

/-- The answers of the network to one `monitor_batch`. `searched₁ k asked` and
    `searched₂ k asked` are the lists `search_pvs` returns for the `k`-th name server in each
    round, empty if the connection fails. -/
structure SearchedBatch (Addr : Type) where
  searched₁ : ℕ → List String → List String
  searched₂ : ℕ → List String → List String
  added : Addr → AddAnswer
  opened : Addr → Option (String → BulkOutcome)

namespace PvaDriver

variable {Addr : Type}

/-! ## Model -/

/-- One search round: the lists found are merged in the order of the servers. -/
def searchRound (servers : List Addr) (found : ℕ → List String) (routes : List (String × Addr)) :
    List (String × Addr) :=
  servers.zipIdx.foldl (fun m s => orInsert s.1 m (found s.2)) routes

/-- `pv_to_server` after both search rounds (lines 186-263). -/
def searchRoutesBy (servers : List Addr) (names : List String)
    (searched₁ searched₂ : ℕ → List String → List String) : List (String × Addr) :=
  let round1 := searchRound servers
    (fun k => searched₁ k (partition names servers.length k)) []
  let unfound := names.filter fun pv => (round1.lookup pv).isNone
  if unfound = [] then round1
  else searchRound servers (fun k => searched₂ k unfound) round1

/-- `pv_to_server` of a driver that asks every server for every PV at once. -/
def broadcastRoutes (servers : List Addr) (names : List String)
    (searched : ℕ → List String → List String) : List (String × Addr) :=
  searchRound servers (fun k => searched k names) []

/-- `PvaDriver::monitor_batch` (lines 160-460) with the errors it reports. -/
def monitorBatchReports [DecidableEq Addr] (d : PvaDriver Addr) (names : List String)
    (answers : SearchedBatch Addr) : List (String × Report) × PvaDriver Addr :=
  if d.nameServers = [] then
    (names.map fun pv => (pv, Report.searchFailed "no IOCs configured"), d)
  else
    let routes := searchRoutesBy d.nameServers names answers.searched₁ answers.searched₂
    let missing := names.filter fun pv => (routes.lookup pv).isNone
    let p := subscribeRoutes { d with failedPvs := missing } routes
      ⟨fun _ _ => false, fun _ _ => false, answers.added, answers.opened⟩
    (p.results.map (fun r => (r.1, if r.2 then Report.ok else Report.session)) ++
      missing.map fun pv => (pv, Report.searchFailed "not found"), p.driver)

/-- `search_pvs` of the `k`-th server returns exactly the PVs asked for that the server
    hosts. -/
def SearchesHosted (servers : List Addr) (hosts : Addr → String → Prop)
    (searched : ℕ → List String → List String) : Prop :=
  ∀ s ∈ servers.zipIdx, ∀ asked pv, pv ∈ searched s.2 asked ↔ pv ∈ asked ∧ hosts s.1 pv

/-! ## The model of `Driver` -/

/-- A round in which no server finds anything changes nothing. -/
theorem searchRound_nil (servers : List Addr) (routes : List (String × Addr)) :
    searchRound servers (fun _ => []) routes = routes := by
  unfold searchRound
  induction servers.zipIdx generalizing routes with
  | nil => rfl
  | cons s servers ih => exact ih routes

theorem searchRoutes_eq (servers : List Addr) (names : List String)
    (found₁ found₂ : ℕ → String → Bool) :
    searchRoutes servers names found₁ found₂ =
      searchRoutesBy servers names (fun k => List.filter (found₁ k))
        (fun k => List.filter (found₂ k)) := by
  unfold searchRoutesBy
  dsimp only
  split_ifs with hunfound
  · let round1 := searchRound servers
      (fun k => (partition names servers.length k).filter (found₁ k)) []
    show searchRound servers (fun k => (names.filter fun pv =>
      (round1.lookup pv).isNone).filter (found₂ k)) round1 = round1
    have hnone : (names.filter fun pv => (round1.lookup pv).isNone) = [] := hunfound
    rw [hnone]
    apply searchRound_nil
  · rfl

/-- Answers that filter give the results of `monitorBatch`. -/
theorem monitorBatch_eq [DecidableEq Addr] (d : PvaDriver Addr) (names : List String)
    (answers : BatchAnswers Addr) :
    d.monitorBatch names answers =
      ((d.monitorBatchReports names ⟨fun k => List.filter (answers.found₁ k),
          fun k => List.filter (answers.found₂ k), answers.added, answers.opened⟩).1.map
            fun r => (r.1, decide (r.2 = .ok)),
        (d.monitorBatchReports names ⟨fun k => List.filter (answers.found₁ k),
          fun k => List.filter (answers.found₂ k), answers.added, answers.opened⟩).2) := by
  unfold monitorBatch monitorBatchReports
  split_ifs with hservers
  · simp
  · dsimp only
    rw [← searchRoutes_eq, List.map_append, List.map_map, List.map_map]
    refine Prod.ext (congrArg₂ _ ?_ ?_) rfl
    · refine (List.map_id _).symm.trans (List.map_congr_left fun r _ => ?_)
      obtain ⟨pv, ok⟩ := r
      cases ok <;> rfl
    · exact List.map_congr_left fun pv _ => rfl

/-! ## Merging what is found -/

theorem lookup_orInsert (addr : Addr) (routes : List (String × Addr)) (found : List String)
    (pv : String) :
    (orInsert addr routes found).lookup pv =
      (routes.lookup pv).or (if pv ∈ found then some addr else none) := by
  induction found generalizing routes with
  | nil => simp [orInsert]
  | cons name found ih =>
    show (orInsert addr (if (routes.lookup name).isSome then routes
      else routes ++ [(name, addr)]) found).lookup pv = _
    rw [ih]
    by_cases hpv : pv = name
    · subst hpv
      rw [if_pos List.mem_cons_self]
      cases hroute : routes.lookup pv with
      | some a => simp [hroute]
      | none =>
        have hadded : (routes ++ [(pv, addr)]).lookup pv = some addr := by
          rw [List.lookup_append, hroute]
          simp
        simp [hadded]
    · have hother : (if (routes.lookup name).isSome then routes
          else routes ++ [(name, addr)]).lookup pv = routes.lookup pv := by
        split_ifs
        · rfl
        · have hne : (pv == name) = false := by simpa using hpv
          simp [List.lookup_append, List.lookup_cons, hne]
      rw [hother]
      simp only [List.mem_cons, hpv, false_or]

/-- The entry of a PV after a search round: the one it had, or else the first server that
    found it. -/
theorem lookup_round (servers : List Addr) (found : ℕ → List String)
    (routes : List (String × Addr)) (pv : String) :
    (searchRound servers found routes).lookup pv =
      (routes.lookup pv).or ((servers.zipIdx.find? fun s => pv ∈ found s.2).map Prod.fst) := by
  unfold searchRound
  induction servers.zipIdx generalizing routes with
  | nil => simp
  | cons s servers ih =>
    rw [List.foldl_cons, ih, lookup_orInsert, Option.or_assoc]
    congr 1
    by_cases hfound : pv ∈ found s.2
    · rw [if_pos hfound, List.find?_cons_of_pos (by simpa using hfound)]
      rfl
    · rw [if_neg hfound, List.find?_cons_of_neg (by simpa using hfound)]
      rfl

theorem mem_of_mem_partition {names : List String} {n k : ℕ} {pv : String}
    (h : pv ∈ partition names n k) : pv ∈ names := by
  obtain ⟨p, hp, hpick⟩ := List.mem_filterMap.1 h
  split_ifs at hpick
  rw [← Option.some.inj hpick]
  exact List.fst_mem_of_mem_zipIdx hp

/-! ## What a round finds -/

section Hosted

variable {servers : List Addr} {hosts : Addr → String → Prop}
  {searched : ℕ → List String → List String}

/-- In a round where each server is asked for some of the PVs, an entry that is new names a
    server that hosts the PV. -/
theorem hosted_of_find? (hsearched : SearchesHosted servers hosts searched)
    (asked : ℕ → List String) {pv : String} {addr : Addr}
    (h : (servers.zipIdx.find? fun s => pv ∈ searched s.2 (asked s.2)).map Prod.fst = some addr) :
    addr ∈ servers ∧ hosts addr pv ∧ ∃ k, pv ∈ asked k := by
  obtain ⟨s, hs, rfl⟩ := Option.map_eq_some_iff.1 h
  have hmem := List.mem_of_find?_eq_some hs
  have hfound : pv ∈ searched s.2 (asked s.2) := by simpa using List.find?_some hs
  obtain ⟨hasked, hhosts⟩ := (hsearched s hmem _ pv).1 hfound
  exact ⟨List.fst_mem_of_mem_zipIdx hmem, hhosts, s.2, hasked⟩

/-- A PV every server is asked for is found if one of them hosts it. -/
theorem isSome_find? (hsearched : SearchesHosted servers hosts searched) {asked : List String}
    {pv : String} (hasked : pv ∈ asked) :
    ((servers.zipIdx.find? fun s => pv ∈ searched s.2 asked).map Prod.fst).isSome ↔
      ∃ addr ∈ servers, hosts addr pv := by
  rw [Option.isSome_map, List.find?_isSome]
  constructor
  · rintro ⟨s, hs, hfound⟩
    have hfound : pv ∈ searched s.2 asked := by simpa using hfound
    exact ⟨s.1, List.fst_mem_of_mem_zipIdx hs, ((hsearched s hs _ pv).1 hfound).2⟩
  · rintro ⟨addr, haddr, hhosts⟩
    obtain ⟨k, hk⟩ := List.getElem?_of_mem haddr
    have hs : (addr, k) ∈ servers.zipIdx := List.mem_zipIdx_iff_getElem?.2 hk
    refine ⟨(addr, k), hs, ?_⟩
    simpa using (hsearched (addr, k) hs asked pv).2 ⟨hasked, hhosts⟩

end Hosted

/-! ## Both rounds -/

section Rounds

variable {servers : List Addr} {names : List String} {hosts : Addr → String → Prop}
  {searched₁ searched₂ : ℕ → List String → List String}

/-- An entry of the map names a server that hosts the PV, and the PV was asked for. -/
theorem hosted_of_searchRoutesBy (h₁ : SearchesHosted servers hosts searched₁)
    (h₂ : SearchesHosted servers hosts searched₂) {pv : String} {addr : Addr}
    (h : (searchRoutesBy servers names searched₁ searched₂).lookup pv = some addr) :
    pv ∈ names ∧ addr ∈ servers ∧ hosts addr pv := by
  have hround1 : ∀ a, (searchRound servers
      (fun k => searched₁ k (partition names servers.length k)) []).lookup pv = some a →
      pv ∈ names ∧ a ∈ servers ∧ hosts a pv := by
    intro a ha
    rw [lookup_round, List.lookup_nil, Option.none_or] at ha
    obtain ⟨hserver, hhosts, k, hk⟩ := hosted_of_find? h₁ _ ha
    exact ⟨mem_of_mem_partition hk, hserver, hhosts⟩
  unfold searchRoutesBy at h
  dsimp only at h
  split_ifs at h with hunfound
  · exact hround1 addr h
  · rw [lookup_round] at h
    rcases Option.or_eq_some_iff.1 h with h | ⟨-, h⟩
    · exact hround1 addr h
    · obtain ⟨hserver, hhosts, -, hk⟩ := hosted_of_find? h₂ (fun _ => _) h
      exact ⟨(List.mem_filter.1 hk).1, hserver, hhosts⟩

/-- The second round asks every server for what the first has missed. -/
theorem isSome_searchRoutesBy (h₁ : SearchesHosted servers hosts searched₁)
    (h₂ : SearchesHosted servers hosts searched₂) (pv : String) :
    ((searchRoutesBy servers names searched₁ searched₂).lookup pv).isSome ↔
      pv ∈ names ∧ ∃ addr ∈ servers, hosts addr pv := by
  constructor
  · intro h
    obtain ⟨addr, haddr⟩ := Option.isSome_iff_exists.1 h
    obtain ⟨hname, hserver, hhosts⟩ := hosted_of_searchRoutesBy h₁ h₂ haddr
    exact ⟨hname, addr, hserver, hhosts⟩
  · rintro ⟨hname, hhosted⟩
    unfold searchRoutesBy
    dsimp only
    generalize searchRound servers _ [] = round1
    cases hround1 : round1.lookup pv with
    | some addr =>
      split_ifs
      · simp [hround1]
      · simp [lookup_round, hround1]
    | none =>
      have hunfound : pv ∈ names.filter fun pv => (round1.lookup pv).isNone :=
        List.mem_filter.2 ⟨hname, by simp [hround1]⟩
      rw [if_neg (List.ne_nil_of_mem hunfound), lookup_round, hround1, Option.none_or]
      exact (isSome_find? h₂ hunfound).2 hhosted

end Rounds

theorem isSome_broadcastRoutes {servers : List Addr} {names : List String}
    {hosts : Addr → String → Prop} {searched : ℕ → List String → List String}
    (hsearched : SearchesHosted servers hosts searched) (pv : String) :
    ((broadcastRoutes servers names searched).lookup pv).isSome ↔
      pv ∈ names ∧ ∃ addr ∈ servers, hosts addr pv := by
  unfold broadcastRoutes
  rw [lookup_round, List.lookup_nil, Option.none_or]
  constructor
  · intro h
    obtain ⟨addr, haddr⟩ := Option.isSome_iff_exists.1 h
    obtain ⟨hserver, hhosts, -, hname⟩ := hosted_of_find? hsearched (fun _ => names) haddr
    exact ⟨hname, addr, hserver, hhosts⟩
  · rintro ⟨hname, hhosted⟩
    exact (isSome_find? hsearched hname).2 hhosted

/-! ## The reports -/

variable [DecidableEq Addr]

/-- A batch reports `SearchFailed` on the PVs the map has no entry for. -/
theorem searchFailed_mem_iff (d : PvaDriver Addr) (names : List String)
    (answers : SearchedBatch Addr) (pv : String) :
    (∃ msg, (pv, Report.searchFailed msg) ∈ (d.monitorBatchReports names answers).1) ↔
      pv ∈ names ∧ ((searchRoutesBy d.nameServers names answers.searched₁
        answers.searched₂).lookup pv).isNone := by
  unfold monitorBatchReports
  split_ifs with hservers
  · have hempty : (searchRoutesBy d.nameServers names answers.searched₁
        answers.searched₂).lookup pv = none := by
      rw [hservers]
      unfold searchRoutesBy
      dsimp only
      split_ifs <;> rfl
    simp [hempty]
  · dsimp only
    generalize searchRoutesBy d.nameServers names _ _ = routes
    generalize subscribeRoutes { d with failedPvs := _ } routes _ = p
    simp only [List.mem_append, List.mem_map, List.mem_filter, Prod.mk.injEq]
    constructor
    · rintro ⟨msg, ⟨r, -, -, hr⟩ | ⟨name, hname, rfl, -⟩⟩
      · split_ifs at hr
      · exact hname
    · intro hpv
      exact ⟨"not found", .inr ⟨pv, hpv, rfl, rfl⟩⟩

/-- **Main theorem.** If `search_pvs` returns what its server hosts, `pv_to_server` has an
    entry for exactly the requested PVs that some server hosts, each naming a server that hosts
    it: the PVs a broadcast of the whole list would find. `SearchFailed` is reported on exactly
    the others. -/
theorem search_complete (d : PvaDriver Addr) (names : List String) (hosts : Addr → String → Prop)
    (answers : SearchedBatch Addr) (searched : ℕ → List String → List String)
    (h₁ : SearchesHosted d.nameServers hosts answers.searched₁)
    (h₂ : SearchesHosted d.nameServers hosts answers.searched₂)
    (hsearched : SearchesHosted d.nameServers hosts searched) :
    let routes := searchRoutesBy d.nameServers names answers.searched₁ answers.searched₂
    (∀ pv, (routes.lookup pv).isSome ↔ pv ∈ names ∧ ∃ addr ∈ d.nameServers, hosts addr pv) ∧
      (∀ pv addr, routes.lookup pv = some addr → addr ∈ d.nameServers ∧ hosts addr pv) ∧
      (∀ pv, (routes.lookup pv).isSome ↔
        ((broadcastRoutes d.nameServers names searched).lookup pv).isSome) ∧
      ∀ pv, (∃ msg, (pv, Report.searchFailed msg) ∈ (d.monitorBatchReports names answers).1) ↔
        pv ∈ names ∧ ¬∃ addr ∈ d.nameServers, hosts addr pv := by
  intro routes
  have hroutes : ∀ pv, (routes.lookup pv).isSome ↔
      pv ∈ names ∧ ∃ addr ∈ d.nameServers, hosts addr pv := isSome_searchRoutesBy h₁ h₂
  refine ⟨hroutes, fun pv addr h => (hosted_of_searchRoutesBy h₁ h₂ h).2, fun pv => ?_,
    fun pv => ?_⟩
  · rw [hroutes, isSome_broadcastRoutes hsearched]
  · rw [searchFailed_mem_iff, ← Option.not_isSome, Bool.not_eq_true', ← Bool.not_eq_true]
    show pv ∈ names ∧ ¬(routes.lookup pv).isSome = true ↔ _
    rw [hroutes]
    constructor
    · rintro ⟨hname, hnot⟩
      exact ⟨hname, fun hhosted => hnot ⟨hname, hhosted⟩⟩
    · rintro ⟨hname, hnot⟩
      exact ⟨hname, fun hhosted => hnot hhosted.2⟩

/-- `search_complete` for two servers, the second of which hosts the first PV asked for. -/
theorem search_complete_second :
    let hosts : ℕ → String → Prop := fun addr pv => addr = 2 ∧ pv = "a"
    let searched : ℕ → List String → List String :=
      fun k asked => if k = 1 then asked.filter fun pv => pv = "a" else []
    let d := PvaDriver.new [1, 2]
    let answers : SearchedBatch ℕ := ⟨searched, searched, fun _ => .unsent, fun _ => none⟩
    let routes := searchRoutesBy [1, 2] ["a", "b", "a"] searched searched
    (SearchesHosted [1, 2] hosts searched ∧ routes = [("a", 2)]) ∧
      (∀ pv, (routes.lookup pv).isSome ↔
        pv ∈ ["a", "b", "a"] ∧ ∃ addr ∈ d.nameServers, hosts addr pv) ∧
      (∀ pv addr, routes.lookup pv = some addr → addr ∈ d.nameServers ∧ hosts addr pv) ∧
      (∀ pv, (routes.lookup pv).isSome ↔
        ((broadcastRoutes [1, 2] ["a", "b", "a"] searched).lookup pv).isSome) ∧
      ∀ pv, (∃ msg, (pv, Report.searchFailed msg) ∈
          (d.monitorBatchReports ["a", "b", "a"] answers).1) ↔
        pv ∈ ["a", "b", "a"] ∧ ¬∃ addr ∈ d.nameServers, hosts addr pv := by
  intro hosts searched d answers routes
  have hsearched : SearchesHosted [1, 2] hosts searched := by
    intro s hs asked pv
    have hs : s = (1, 0) ∨ s = (2, 1) := by simpa using hs
    rcases hs with rfl | rfl <;> simp [hosts, searched]
  refine ⟨⟨hsearched, by decide +kernel⟩, ?_⟩
  exact search_complete d ["a", "b", "a"] hosts answers searched hsearched hsearched hsearched

end PvaDriver

end AuraEpics.Runtime

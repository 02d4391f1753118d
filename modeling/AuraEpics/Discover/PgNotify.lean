import Mathlib.Data.List.Basic
import AuraEpics.Discover.Command

/-!
# Notifications of the table

Model of the statement triggers of `pv_config` (`migrations/015_batch_notify.sql`, lines
10-56) and of the listener that turns their payloads into commands
(`crates/aura-discover/src/pg_notify.rs`, lines 72-97). A payload is a kind, `add:` or
`del:`, and names with commas between them; it is sent when it has grown past 7500
characters and at the end of the statement.

Result: `requestsOf_notified`, the commands ask for the names of the statement, less the
empty one, if no name has a comma.
-/

namespace AuraEpics.Discover

open Latest

/-- The length past which a payload is sent (line 22). -/
def payloadLimit : ℕ := 7500

/-- The batch with one more name (lines 20-21). -/
def joinName (batch pv : String) : String :=
  (if batch.length > 0 then batch ++ "," else batch) ++ pv

/-- One pass of the loop over the transition table (lines 19-26), for both triggers: the
    batch and the payloads sent. -/
def appendName (kind : String) (acc : String × List String) (pv : String) :
    String × List String :=
  let batch := joinName acc.1 pv
  if batch.length > payloadLimit then ("", acc.2 ++ [kind ++ batch]) else (batch, acc.2)

/-- The payloads of a statement (lines 17-30). -/
def payloads (kind : String) (names : List String) : List String :=
  let (batch, sent) := names.foldl (appendName kind) ("", [])
  if batch.length > 0 then sent ++ [kind ++ batch] else sent

/-- `fn_notify_pv_insert`. -/
def notifyPvInsert (names : List String) : List String := payloads "add:" names

/-- `fn_notify_pv_delete`. -/
def notifyPvDelete (names : List String) : List String := payloads "del:" names

/-- `strip_prefix`. -/
def stripKind (kind payload : String) : Option String :=
  if kind.toList <+: payload.toList then some (String.ofList (payload.toList.drop kind.length))
  else none

/-- The names of a payload without its kind: `split(',')` without the empty pieces (lines
    74-78). -/
def pvList (text : String) : List String :=
  ((text.toList.splitOn ',').map String.ofList).filter (· ≠ "")

/-- `parse_pv_change` (lines 72-97), up to the JSON of the command. -/
def parsePvChange (payload : String) : Option IngestCommand :=
  match stripKind "add:" payload with
  | some text => if pvList text = [] then none else some (.subscribeBatch (pvList text) none)
  | none =>
    match stripKind "del:" payload with
    | some text => if pvList text = [] then none else some (.unsubscribeBatch (pvList text))
    | none => none

/-- The commands the listener makes of a statement's payloads, those of the `INSERT`
    trigger and those of the `DELETE` trigger. -/
def notified (inserted deleted : List String) : List IngestCommand :=
  (notifyPvInsert inserted ++ notifyPvDelete deleted).filterMap parsePvChange

/-! ## Payloads and names -/

theorem pvList_empty : pvList "" = [] := by decide

theorem pvList_append_comma (a b : String) : pvList (a ++ "," ++ b) = pvList a ++ pvList b := by
  have hsplit : (a ++ "," ++ b).toList.splitOn ',' = a.toList.splitOn ',' ++ b.toList.splitOn ',' := by
    rw [String.toList_append, String.toList_append, List.append_assoc]
    exact List.splitOn_append_cons_self a.toList b.toList
  unfold pvList
  rw [hsplit, List.map_append, List.filter_append]

theorem pvList_name {name : String} (h : ',' ∉ name.toList) :
    pvList name = [name].filter (· ≠ "") := by
  unfold pvList
  rw [List.splitOn_eq_singleton h, List.map_singleton, String.ofList_toList]

/-- The names of some payloads. -/
def sentNames (kind : String) (sent : List String) : List String :=
  sent.flatMap fun payload => ((stripKind kind payload).map pvList).getD []

theorem stripKind_append (kind text : String) : stripKind kind (kind ++ text) = some text := by
  unfold stripKind
  rw [String.toList_append, if_pos (List.prefix_append _ _), ← String.length_toList,
    List.drop_left, String.ofList_toList]

theorem sentNames_append (kind : String) (sent : List String) (batch : String) :
    sentNames kind (sent ++ [kind ++ batch]) = sentNames kind sent ++ pvList batch := by
  simp [sentNames, stripKind_append]

theorem pvList_joinName (batch : String) {name : String} (h : ',' ∉ name.toList) :
    pvList (joinName batch name) = pvList batch ++ [name].filter (· ≠ "") := by
  unfold joinName
  split_ifs with hlen
  · rw [pvList_append_comma, pvList_name h]
  · have hempty : batch = "" := by
      rw [← String.toList_eq_nil_iff, ← List.length_eq_zero_iff, String.length_toList]
      omega
    rw [hempty, pvList_empty, String.empty_append, pvList_name h, List.nil_append]

theorem appendName_names (kind : String) (acc : String × List String) {name : String}
    (h : ',' ∉ name.toList) :
    sentNames kind (appendName kind acc name).2 ++ pvList (appendName kind acc name).1 =
      sentNames kind acc.2 ++ pvList acc.1 ++ [name].filter (· ≠ "") := by
  unfold appendName
  dsimp only
  split_ifs
  · rw [sentNames_append, pvList_joinName _ h, pvList_empty, List.append_nil, List.append_assoc]
  · rw [pvList_joinName _ h, List.append_assoc]

/-- What has been sent and what is in the batch are the names so far. -/
theorem foldl_appendName (kind : String) (names : List String)
    (hcomma : ∀ name ∈ names, ',' ∉ name.toList) (acc : String × List String) :
    sentNames kind (names.foldl (appendName kind) acc).2 ++
        pvList (names.foldl (appendName kind) acc).1 =
      sentNames kind acc.2 ++ pvList acc.1 ++ names.filter (· ≠ "") := by
  induction names generalizing acc with
  | nil => rw [List.filter_nil, List.append_nil, List.foldl_nil]
  | cons name names ih =>
    rw [List.forall_mem_cons] at hcomma
    have hnames : (name :: names).filter (· ≠ "") =
        [name].filter (· ≠ "") ++ names.filter (· ≠ "") := by
      rw [← List.filter_append, List.singleton_append]
    rw [List.foldl_cons, ih hcomma.2, appendName_names kind acc hcomma.1, hnames,
      List.append_assoc _ _ (names.filter (· ≠ ""))]

theorem sentNames_payloads (kind : String) {names : List String}
    (hcomma : ∀ name ∈ names, ',' ∉ name.toList) :
    sentNames kind (payloads kind names) = names.filter (· ≠ "") := by
  have hfold := foldl_appendName kind names hcomma ("", [])
  rw [pvList_empty] at hfold
  refine Eq.trans ?_ hfold
  unfold payloads
  dsimp only
  split_ifs with hlen
  · exact sentNames_append kind _ _
  · have hempty : (names.foldl (appendName kind) ("", [])).1 = "" := by
      rw [← String.toList_eq_nil_iff, ← List.length_eq_zero_iff, String.length_toList]
      omega
    rw [hempty, pvList_empty, List.append_nil]

/-- Every payload of a statement begins with its kind. -/
theorem exists_of_mem_payloads {kind : String} {names : List String} {payload : String}
    (h : payload ∈ payloads kind names) : ∃ text, payload = kind ++ text := by
  have hfold : ∀ (names : List String) (acc : String × List String),
      (∀ payload ∈ acc.2, ∃ text, payload = kind ++ text) →
      ∀ payload ∈ (names.foldl (appendName kind) acc).2, ∃ text, payload = kind ++ text := by
    intro names
    induction names with
    | nil => exact fun acc hacc => hacc
    | cons name names ih =>
      intro acc hacc
      refine ih _ fun payload hmem => ?_
      unfold appendName at hmem
      dsimp only at hmem
      split_ifs at hmem
      · rcases List.mem_append.1 hmem with hold | hnew
        · exact hacc payload hold
        · exact ⟨_, List.mem_singleton.1 hnew⟩
      · exact hacc payload hmem
  unfold payloads at h
  dsimp only at h
  split_ifs at h
  · rcases List.mem_append.1 h with hold | hnew
    · exact hfold names ("", []) (fun _ hp => absurd hp List.not_mem_nil) payload hold
    · exact ⟨_, List.mem_singleton.1 hnew⟩
  · exact hfold names ("", []) (fun _ hp => absurd hp List.not_mem_nil) payload h

theorem requests_parsePvChange_add (text : String) :
    requestsOf ((parsePvChange ("add:" ++ text)).toList) = (pvList text).map fun pv => (pv, true) := by
  unfold parsePvChange
  rw [stripKind_append]
  dsimp only
  split_ifs with hnil
  · rw [hnil]
    rfl
  · simp [requestsOf, IngestCommand.requests]

theorem requests_parsePvChange_del (text : String) :
    requestsOf ((parsePvChange ("del:" ++ text)).toList) =
      (pvList text).map fun pv => (pv, false) := by
  have hnot : stripKind "add:" ("del:" ++ text) = none := by
    have hadd : "add:".toList = 'a' :: "dd:".toList := by decide
    have hdel : "del:".toList = 'd' :: "el:".toList := by decide
    unfold stripKind
    rw [String.toList_append, hadd, hdel, List.cons_append]
    exact if_neg fun h => absurd (List.cons_prefix_cons.1 h).1 (by decide)
  unfold parsePvChange
  rw [hnot, stripKind_append]
  dsimp only
  split_ifs with hnil
  · rw [hnil]
    rfl
  · simp [requestsOf, IngestCommand.requests]

/-- The commands of the payloads of one kind. -/
theorem requestsOf_payloads {kind : String} {b : Bool}
    (hparse : ∀ text, requestsOf ((parsePvChange (kind ++ text)).toList) =
      (pvList text).map fun pv => (pv, b))
    {names : List String} (hcomma : ∀ name ∈ names, ',' ∉ name.toList) :
    requestsOf ((payloads kind names).filterMap parsePvChange) =
      (names.filter (· ≠ "")).map fun pv => (pv, b) := by
  rw [← sentNames_payloads kind hcomma, sentNames, List.map_flatMap, requestsOf,
    List.filterMap_eq_flatMap_toList, List.flatMap_assoc]
  refine List.flatMap_congr fun payload hmem => ?_
  obtain ⟨text, rfl⟩ := exists_of_mem_payloads hmem
  rw [stripKind_append]
  exact hparse text

/-- The commands of a statement ask for the names it inserts and deletes, but not for the
    empty name. -/
theorem requestsOf_notified {inserted deleted : List String}
    (hins : ∀ name ∈ inserted, ',' ∉ name.toList) (hdel : ∀ name ∈ deleted, ',' ∉ name.toList) :
    requestsOf (notified inserted deleted) =
      (inserted.filter (· ≠ "")).map (fun pv => (pv, true)) ++
        (deleted.filter (· ≠ "")).map (fun pv => (pv, false)) := by
  unfold notified notifyPvInsert notifyPvDelete
  rw [List.filterMap_append, requestsOf, List.flatMap_append]
  exact congrArg₂ _ (requestsOf_payloads requests_parsePvChange_add hins)
    (requestsOf_payloads requests_parsePvChange_del hdel)

end AuraEpics.Discover

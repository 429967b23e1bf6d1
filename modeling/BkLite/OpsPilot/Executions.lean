import BkLite.OpsPilot.Flow

/-!
# The node executions of a flow

`execute` runs the start node and follows the selected edges (`node_runner.py`). The nodes visited
on the way are handed to a single successor, while each of several parallel branches starts with an
empty set, so where paths meet the node behind is executed once for each of them. An execution is
told by the positions of the edges that lead to it, and so is its outcome.
-/

namespace OpsPilot
namespace Executions

open Relation

inductive Outcome
  | success (output : Output)
  | failure (error : String)

abbrev Outcomes := List ℕ → String → Outcome

structure NodeResult where
  ok : Bool
  nodeId : Option String := none
  nodeType : Option String := none
  output : Output := {}
  error : Option String := none

inductive ChainResult
  | node (result : NodeResult)
  | skipped (id : String)
  | chain (current : NodeResult) (next : List (String × ChainResult))

structure Completion where
  order : List ℕ → List (String × ChainResult) → List (String × ChainResult)
  perm : ∀ path branches, (order path branches).Perm branches

structure Execution where
  path : List ℕ
  id : String
  ok : Bool
deriving DecidableEq

structure Run where
  result : ChainResult
  executions : List Execution

variable (flow : Flow) (outcomes : Outcomes) (completion : Completion)

def executeSingleNode (path : List ℕ) (id : String) : NodeResult :=
  match flow.getNodeById id with
  | none => { ok := false, error := some s!"节点不存在: {id}" }
  | some node =>
    match outcomes path id with
    | .success output => { ok := true, nodeId := some id, nodeType := some node.type, output }
    | .failure error => { ok := false, nodeId := some id, nodeType := some node.type, error }

/-- `results[node_id] = result`. -/
def setItem (results : List (String × ChainResult)) (branch : String × ChainResult) :
    List (String × ChainResult) :=
  if branch.1 ∈ results.map Prod.fst then
    results.map fun entry => if entry.1 = branch.1 then branch else entry
  else results ++ [branch]

def collect (branches : List (String × ChainResult)) : List (String × ChainResult) :=
  branches.foldl setItem []

def executeNodeRecursive : ℕ → List ℕ → String → List String → Run
  -- in a flow without cycles the recursion does not come this far
  | 0, _, id, _ => { result := .skipped id, executions := [] }
  | n + 1, path, id, visited =>
    if id ∈ visited then { result := .skipped id, executions := [] }
    else
      let result := executeSingleNode flow outcomes path id
      let execution : Execution := { path, id, ok := result.ok }
      if result.ok = false then { result := .node result, executions := [execution] }
      else
        match flow.getNextNodes id result.output with
        | [] => { result := .node result, executions := [execution] }
        | [next] =>
          let run := executeNodeRecursive n (path ++ [0]) next (id :: visited)
          { result := .chain result [(next, run.result)]
            executions := execution :: run.executions }
        -- `_execute_parallel_nodes`: a branch starts with nothing visited
        | nexts =>
          let runs := nexts.zipIdx.map fun (next, i) =>
            (next, executeNodeRecursive n (path ++ [i]) next [])
          { result := .chain result
              (collect (completion.order path (runs.map fun (next, run) => (next, run.result))))
            executions := execution :: runs.flatMap fun (_, run) => run.executions }

structure ErrorInfo where
  nodeId : Option String
  nodeType : Option String
  error : String

def checkNode (result : NodeResult) : Option ErrorInfo :=
  if result.ok then none
  else some ⟨result.nodeId, result.nodeType, result.error.getD "未知错误"⟩

mutual

/-- `_check_chain_result`: the first failure, if there is one. -/
def checkChainResult : ChainResult → Option ErrorInfo
  | .node result => checkNode result
  | .skipped _ => none
  | .chain current next => (checkNode current).or (checkNextNodes next)

def checkNextNodes : List (String × ChainResult) → Option ErrorInfo
  | [] => none
  | (_, result) :: next => (checkChainResult result).or (checkNextNodes next)

end

structure Recorded where
  executions : List Execution
  success : Bool
  error : Option ErrorInfo

/-- `execute` of an accepted flow from one of its nodes. -/
def execute (start : String) : Recorded :=
  let run := executeNodeRecursive flow outcomes completion flow.topologyItems.length [] start []
  let error := checkChainResult run.result
  { executions := run.executions, success := error.isNone, error }

/-! ### Paths -/

/-- The path leads from the execution of `id` on `path` along followed edges of successful
executions to one of `x`. -/
def Leads : List ℕ → String → List ℕ → String → Prop
  | _, id, [], x => id = x
  | path, id, i :: rest, x =>
    (executeSingleNode flow outcomes path id).ok = true ∧
      ∃ next, (flow.getNextNodes id (executeSingleNode flow outcomes path id).output)[i]? =
        some next ∧ Leads (path ++ [i]) next rest x

def Unrepeated (start : String) : Prop :=
  ∀ path id, Leads flow outcomes [] start path id →
    (executeSingleNode flow outcomes path id).ok = true →
      (flow.getNextNodes id (executeSingleNode flow outcomes path id).output).Nodup

def EachOnce (start : String) : Prop :=
  ∀ path id, Leads flow outcomes [] start path id →
    (execute flow outcomes completion start).executions.countP (·.id = id) = 1

/-! ### One level -/

section Level

variable {flow : Flow} {outcomes : Outcomes} {completion : Completion} {n : ℕ} {path : List ℕ}
  {id x : String} {visited : List String}

theorem collect_of_nodup {branches : List (String × ChainResult)}
    (h : (branches.map Prod.fst).Nodup) : collect branches = branches := by
  have h_fold : ∀ kept : List (String × ChainResult),
      ((kept ++ branches).map Prod.fst).Nodup →
        branches.foldl setItem kept = kept ++ branches := by
    clear h
    induction branches with
    | nil => exact fun kept _ => (List.append_nil kept).symm
    | cons branch branches ih =>
      intro kept h_nodup
      have h_new : branch.1 ∉ kept.map Prod.fst := by
        rw [List.map_append, List.nodup_append] at h_nodup
        exact fun h_mem => h_nodup.2.2 _ h_mem _ List.mem_cons_self rfl
      rw [List.foldl_cons, setItem, if_neg h_new, ih (kept ++ [branch])]
      · rw [List.append_assoc, List.singleton_append]
      · rwa [List.append_assoc, List.singleton_append]
  exact h_fold [] h

theorem checkNextNodes_eq_none {branches : List (String × ChainResult)} :
    checkNextNodes branches = none ↔ ∀ branch ∈ branches, checkChainResult branch.2 = none := by
  induction branches with
  | nil => exact iff_of_true rfl nofun
  | cons branch branches ih =>
    obtain ⟨id, result⟩ := branch
    rw [checkNextNodes, Option.or_eq_none_iff, ih, List.forall_mem_cons]

theorem checkNextNodes_collect {branches : List (String × ChainResult)}
    (h : (branches.map Prod.fst).Nodup) :
    checkNextNodes (collect (completion.order path branches)) = none ↔
      ∀ branch ∈ branches, checkChainResult branch.2 = none := by
  have h_perm := completion.perm path branches
  rw [collect_of_nodup ((h_perm.map Prod.fst).nodup_iff.mpr h), checkNextNodes_eq_none]
  exact forall_congr' fun branch => imp_congr_left h_perm.mem_iff

def branch (flow : Flow) (outcomes : Outcomes) (completion : Completion) (n : ℕ) (path : List ℕ)
    (visited : List String) (entry : String × ℕ) : Run :=
  executeNodeRecursive flow outcomes completion n (path ++ [entry.2]) entry.1 visited

def own (flow : Flow) (outcomes : Outcomes) (path : List ℕ) (id : String) : Execution :=
  { path, id, ok := (executeSingleNode flow outcomes path id).ok }

def followers (flow : Flow) (outcomes : Outcomes) (path : List ℕ) (id : String) : List String :=
  flow.getNextNodes id (executeSingleNode flow outcomes path id).output

theorem executeNodeRecursive_failed (h_visited : id ∉ visited)
    (h : (executeSingleNode flow outcomes path id).ok = false) :
    executeNodeRecursive flow outcomes completion (n + 1) path id visited =
      { result := .node (executeSingleNode flow outcomes path id)
        executions := [own flow outcomes path id] } := by
  rw [executeNodeRecursive, if_neg h_visited]
  simp only
  rw [if_pos h]
  rfl

theorem executeNodeRecursive_level (completion : Completion) (n : ℕ) (h_visited : id ∉ visited)
    (h : (executeSingleNode flow outcomes path id).ok = true) :
    ∃ visited' ⊆ id :: visited,
      (executeNodeRecursive flow outcomes completion (n + 1) path id visited).executions =
        own flow outcomes path id :: (followers flow outcomes path id).zipIdx.flatMap (fun entry =>
          (branch flow outcomes completion n path visited' entry).executions) ∧
      ((followers flow outcomes path id).Nodup →
        (checkChainResult
          (executeNodeRecursive flow outcomes completion (n + 1) path id visited).result = none ↔
            ∀ entry ∈ (followers flow outcomes path id).zipIdx,
              checkChainResult (branch flow outcomes completion n path visited' entry).result =
                none)) := by
  have h_ok : checkNode (executeSingleNode flow outcomes path id) = none := by
    rw [checkNode, h, if_pos rfl]
  have h_not : ¬(executeSingleNode flow outcomes path id).ok = false := by
    rw [h]
    exact Bool.noConfusion
  unfold followers
  rw [executeNodeRecursive, if_neg h_visited]
  simp only
  rw [if_neg h_not]
  split
  · -- the last node
    rename_i h_next
    rw [h_next]
    refine ⟨[], List.nil_subset _, rfl, fun _ => iff_of_true h_ok nofun⟩
  · -- one successor
    rename_i next h_next
    rw [h_next]
    refine ⟨id :: visited, List.Subset.refl _, ?_, fun _ => ?_⟩
    · rw [List.zipIdx_singleton, List.flatMap_singleton]
      rfl
    · rw [checkChainResult, h_ok, Option.none_or, checkNextNodes_eq_none, List.zipIdx_singleton,
        List.forall_mem_singleton, List.forall_mem_singleton]
      rfl
  · -- parallel branches
    refine ⟨[], List.nil_subset _, ?_, fun h_nodup => ?_⟩
    · rw [List.flatMap_map]
      rfl
    · have h_ids : ((((followers flow outcomes path id).zipIdx.map fun entry =>
          (entry.1, branch flow outcomes completion n path [] entry)).map fun entry =>
            (entry.1, entry.2.result)).map Prod.fst).Nodup := by
        rw [List.map_map, List.map_map]
        show ((followers flow outcomes path id).zipIdx.map Prod.fst).Nodup
        rwa [List.zipIdx_map_fst]
      rw [checkChainResult, h_ok, Option.none_or]
      refine (checkNextNodes_collect h_ids).trans ?_
      rw [List.forall_mem_map, List.forall_mem_map]
      exact Iff.rfl

/-- What a run of a node has executed, and how it is checked. -/
structure Spec (flow : Flow) (outcomes : Outcomes) (path : List ℕ) (id : String) (run : Run) :
    Prop where
  mem_executions : ∀ e, e ∈ run.executions ↔ ∃ rest, Leads flow outcomes path id rest e.id ∧
    e = own flow outcomes (path ++ rest) e.id
  nodup : (run.executions.map Execution.path).Nodup
  check : (∀ rest x, Leads flow outcomes path id rest x →
      (executeSingleNode flow outcomes (path ++ rest) x).ok = true →
        (followers flow outcomes (path ++ rest) x).Nodup) →
    (checkChainResult run.result = none ↔ ∀ e ∈ run.executions, e.ok = true)

theorem Spec.failed (h : (executeSingleNode flow outcomes path id).ok = false) :
    Spec flow outcomes path id { result := .node (executeSingleNode flow outcomes path id)
                                 executions := [own flow outcomes path id] } := by
  refine ⟨fun e => ?_, List.nodup_singleton _, fun _ => iff_of_false ?_ fun h_all => ?_⟩
  · rw [List.mem_singleton]
    constructor
    · rintro rfl
      exact ⟨[], rfl, by rw [List.append_nil]; rfl⟩
    · rintro ⟨rest, h_leads, h_e⟩
      cases rest with
      | nil =>
        rw [h_e, List.append_nil, ← (show id = e.id from h_leads)]
      | cons i rest => exact absurd h_leads.1 (by rw [h]; exact Bool.false_ne_true)
  · rw [checkChainResult, checkNode, h, if_neg Bool.false_ne_true]
    exact Option.some_ne_none _
  · have h_own := h_all _ List.mem_cons_self
    rw [own, h] at h_own
    exact Bool.false_ne_true h_own

/-- **Node by node.** What holds of the branches holds of the run of the node before them. -/
theorem Spec.level {run : Run} {visited' : List String}
    (h : (executeSingleNode flow outcomes path id).ok = true)
    (h_executions : run.executions = own flow outcomes path id ::
      (followers flow outcomes path id).zipIdx.flatMap fun entry =>
        (branch flow outcomes completion n path visited' entry).executions)
    (h_check : (followers flow outcomes path id).Nodup → (checkChainResult run.result = none ↔
      ∀ entry ∈ (followers flow outcomes path id).zipIdx,
        checkChainResult (branch flow outcomes completion n path visited' entry).result = none))
    (h_branches : ∀ entry ∈ (followers flow outcomes path id).zipIdx,
      Spec flow outcomes (path ++ [entry.2]) entry.1
        (branch flow outcomes completion n path visited' entry)) :
    Spec flow outcomes path id run := by
  have h_path : ∀ (i : ℕ) (rest : List ℕ), path ++ i :: rest = path ++ [i] ++ rest :=
    fun i rest => by rw [List.append_assoc, List.singleton_append]
  -- a path beyond the node begins with the position of a branch
  have h_leads : ∀ i rest x, Leads flow outcomes path id (i :: rest) x ↔
      ∃ entry ∈ (followers flow outcomes path id).zipIdx, entry.2 = i ∧
        Leads flow outcomes (path ++ [i]) entry.1 rest x := by
    intro i rest x
    constructor
    · rintro ⟨-, next, h_next, h_rest⟩
      exact ⟨(next, i), List.mk_mem_zipIdx_iff_getElem?.mpr h_next, rfl, h_rest⟩
    · rintro ⟨entry, h_entry, rfl, h_rest⟩
      exact ⟨h, entry.1, List.mem_zipIdx_iff_getElem?.mp h_entry, h_rest⟩
  refine ⟨fun e => ?_, ?_, fun h_unrepeated => ?_⟩
  · rw [h_executions, List.mem_cons, List.mem_flatMap]
    constructor
    · rintro (rfl | ⟨entry, h_entry, h_e⟩)
      · exact ⟨[], rfl, by rw [List.append_nil]; rfl⟩
      · obtain ⟨rest, h_rest, h_own⟩ := ((h_branches entry h_entry).mem_executions e).mp h_e
        refine ⟨entry.2 :: rest, (h_leads _ _ _).mpr ⟨entry, h_entry, rfl, h_rest⟩, ?_⟩
        rwa [h_path]
    · rintro ⟨rest, h_rest, h_own⟩
      cases rest with
      | nil =>
        rw [List.append_nil, ← (show id = e.id from h_rest)] at h_own
        exact .inl h_own
      | cons i rest =>
        obtain ⟨entry, h_entry, rfl, h_rest⟩ := (h_leads i rest e.id).mp h_rest
        rw [h_path] at h_own
        exact .inr ⟨entry, h_entry,
          ((h_branches entry h_entry).mem_executions e).mpr ⟨rest, h_rest, h_own⟩⟩
  · have h_at : ∀ entry ∈ (followers flow outcomes path id).zipIdx, ∀ p ∈
        (branch flow outcomes completion n path visited' entry).executions.map Execution.path,
          ∃ rest, p = path ++ entry.2 :: rest := by
      intro entry h_entry p h_p
      obtain ⟨e, h_e, rfl⟩ := List.mem_map.mp h_p
      obtain ⟨rest, -, h_own⟩ := ((h_branches entry h_entry).mem_executions e).mp h_e
      exact ⟨rest, (congrArg Execution.path h_own).trans (h_path entry.2 rest).symm⟩
    rw [h_executions, List.map_cons, List.map_flatMap, List.nodup_cons, List.nodup_flatMap]
    refine ⟨fun h_mem => ?_, fun entry h_entry => (h_branches entry h_entry).nodup, ?_⟩
    · obtain ⟨entry, h_entry, h_p⟩ := List.mem_flatMap.mp h_mem
      obtain ⟨rest, h_same⟩ := h_at entry h_entry _ h_p
      exact List.cons_ne_nil _ _ (List.append_right_eq_self.mp h_same.symm)
    · -- different branches have different positions
      have h_positions : ((followers flow outcomes path id).zipIdx.map Prod.snd).Nodup := by
        rw [List.zipIdx_map_snd]
        exact List.nodup_range'
      rw [List.Nodup, List.pairwise_map] at h_positions
      refine h_positions.imp_of_mem fun h_a h_b h_ne p h_p h_p' => ?_
      obtain ⟨rest, rfl⟩ := h_at _ h_a p h_p
      obtain ⟨rest', h_same⟩ := h_at _ h_b _ h_p'
      exact h_ne (List.cons.inj (List.append_cancel_left h_same)).1
  · have h_nodup : (followers flow outcomes path id).Nodup := by
      have h_here := h_unrepeated [] id rfl
      rw [List.append_nil] at h_here
      exact h_here h
    rw [h_check h_nodup, h_executions, List.forall_mem_cons]
    have h_each : ∀ entry ∈ (followers flow outcomes path id).zipIdx,
        (checkChainResult (branch flow outcomes completion n path visited' entry).result = none ↔
          ∀ e ∈ (branch flow outcomes completion n path visited' entry).executions,
            e.ok = true) := by
      refine fun entry h_entry => (h_branches entry h_entry).check fun rest x h_rest => ?_
      rw [← h_path]
      exact h_unrepeated (entry.2 :: rest) x ((h_leads _ _ _).mpr ⟨entry, h_entry, rfl, h_rest⟩)
    constructor
    · refine fun h_all => ⟨h, fun e h_e => ?_⟩
      obtain ⟨entry, h_entry, h_e⟩ := List.mem_flatMap.mp h_e
      exact (h_each entry h_entry).mp (h_all entry h_entry) e h_e
    · rintro ⟨-, h_all⟩ entry h_entry
      refine (h_each entry h_entry).mpr fun e h_e => ?_
      exact h_all e (List.mem_flatMap.mpr ⟨entry, h_entry, h_e⟩)

theorem spec_executeNodeRecursive (wf : WellFounded flow.Links) {trail : List String}
    (h_nodup : trail.Nodup) (h_items : trail ⊆ flow.topologyItems)
    (h_before : ∀ v ∈ trail, TransGen flow.Links v id) (h_id : id ∈ flow.topologyItems)
    (h_visited : visited ⊆ trail) (h_fuel : flow.topologyItems.length ≤ n + trail.length) :
    Spec flow outcomes path id
      (executeNodeRecursive flow outcomes completion n path id visited) := by
  induction n generalizing path id visited trail with
  | zero =>
    have h_fresh : id ∉ trail := fun h_mem => wf.transGen.irrefl.irrefl id (h_before id h_mem)
    have h_le := (List.subperm_of_subset (List.nodup_cons.mpr ⟨h_fresh, h_nodup⟩)
      (List.cons_subset.mpr ⟨h_id, h_items⟩)).length_le
    rw [List.length_cons] at h_le
    omega
  | succ n ih =>
    have h_fresh : id ∉ trail := fun h_mem => wf.transGen.irrefl.irrefl id (h_before id h_mem)
    have h_new : id ∉ visited := fun h_mem => h_fresh (h_visited h_mem)
    cases h_ok : (executeSingleNode flow outcomes path id).ok with
    | false =>
      rw [executeNodeRecursive_failed h_new h_ok]
      exact Spec.failed h_ok
    | true =>
      obtain ⟨visited', h_sub, h_executions, h_check⟩ :=
        executeNodeRecursive_level completion n h_new h_ok
      refine Spec.level h_ok h_executions h_check fun entry h_entry => ?_
      have h_link : flow.Links id entry.1 := by
        have h_next := List.mem_of_getElem? (List.mem_zipIdx_iff_getElem?.mp h_entry)
        obtain ⟨e, h_e, h_source, -, -, h_target⟩ := Flow.mem_getNextNodes.mp h_next
        exact ⟨e, h_e, h_source, h_target⟩
      refine ih (List.nodup_cons.mpr ⟨h_fresh, h_nodup⟩)
        (List.cons_subset.mpr ⟨h_id, h_items⟩) ?_ (Flow.mem_topologyItems_of_links h_link).2 ?_ ?_
      · intro v h_v
        obtain rfl | h_v := List.mem_cons.mp h_v
        · exact TransGen.single h_link
        · exact (h_before v h_v).tail h_link
      · intro v h_v
        obtain h_own | h_old := List.mem_cons.mp (h_sub h_v)
        · exact List.mem_cons.mpr (.inl h_own)
        · exact List.mem_cons_of_mem _ (h_visited h_old)
      · rw [List.length_cons]
        omega

theorem spec_execute (outcomes : Outcomes) (completion : Completion) {start : String}
    {node : Node} (h_accepted : flow.validateFlow = [])
    (h_node : flow.getNodeById start = some node) :
    Spec flow outcomes [] start
      (executeNodeRecursive flow outcomes completion flow.topologyItems.length [] start []) := by
  refine spec_executeNodeRecursive (Flow.wellFounded_links h_accepted)
    List.nodup_nil (List.nil_subset _) nofun ?_ (List.Subset.refl _) le_rfl
  rw [Flow.topologyItems, List.mem_dedup]
  refine List.mem_append_left _ (List.mem_map.mpr ⟨node, Flow.getNodeById_mem h_node, ?_⟩)
  exact Flow.getNodeById_id h_node

/-- **Executions.** Each path of followed edges is executed once, and the record is right where no
two lead to one node. -/
theorem execute_exact (outcomes : Outcomes) (completion : Completion) {start : String}
    {node : Node} (h_accepted : flow.validateFlow = [])
    (h_node : flow.getNodeById start = some node) :
    (∀ e, e ∈ (execute flow outcomes completion start).executions ↔
      Leads flow outcomes [] start e.path e.id ∧
        e.ok = (executeSingleNode flow outcomes e.path e.id).ok) ∧
    ((execute flow outcomes completion start).executions.map Execution.path).Nodup ∧
    (Unrepeated flow outcomes start → ((execute flow outcomes completion start).success = true ↔
      ∀ e ∈ (execute flow outcomes completion start).executions, e.ok = true)) := by
  have h_spec := spec_execute outcomes completion h_accepted h_node
  refine ⟨fun e => (h_spec.mem_executions e).trans ?_, h_spec.nodup, fun h_unrepeated => ?_⟩
  · constructor
    · rintro ⟨rest, h_rest, h_own⟩
      rw [List.nil_append] at h_own
      have h_path : e.path = rest := congrArg Execution.path h_own
      rw [← h_path] at h_rest h_own
      exact ⟨h_rest, congrArg Execution.ok h_own⟩
    · rintro ⟨h_rest, h_ok⟩
      refine ⟨e.path, h_rest, ?_⟩
      rw [List.nil_append, own, ← h_ok]
  · have h_check := h_spec.check fun rest x h_rest h_ok => h_unrepeated rest x h_rest h_ok
    exact Option.isNone_iff_eq_none.trans h_check

end Level

/-! ### Paths that meet -/

def diamond : Flow where
  nodes := [⟨"start", "celery"⟩, ⟨"left", "function"⟩, ⟨"right", "function"⟩,
    ⟨"end", "notification"⟩]
  edges := [⟨"start", "left", ""⟩, ⟨"start", "right", ""⟩, ⟨"left", "end", ""⟩,
    ⟨"right", "end", ""⟩]

def succeed : Outcomes := fun _ _ => .success {}

def inOrder : Completion := ⟨fun _ branches => branches, fun _ _ => List.Perm.refl _⟩

theorem unrepeated_diamond : Unrepeated diamond succeed "start" := by
  intro path id _ h_ok
  have h_nodes : ∀ node ∈ diamond.nodes, (diamond.getNextNodes node.id {}).Nodup := by decide
  cases h_node : diamond.getNodeById id with
  | none =>
    rw [executeSingleNode, h_node] at h_ok
    cases h_ok
  | some node =>
    have h_id : node.id = id := Flow.getNodeById_id h_node
    have h_nodup := h_nodes node (Flow.getNodeById_mem h_node)
    rw [h_id] at h_nodup
    rw [executeSingleNode, h_node]
    exact h_nodup

/-- The run is a success, since all its executions are. -/
theorem execute_exact_diamond : (execute diamond succeed inOrder "start").success = true := by
  have h_accepted : diamond.validateFlow = [] := by decide +kernel
  have h_node : diamond.getNodeById "start" = some ⟨"start", "celery"⟩ := by decide +kernel
  have h_exact := execute_exact succeed inOrder h_accepted h_node
  refine (h_exact.2.2 unrepeated_diamond).mpr ?_
  decide +kernel

/-- **Twice.** The node where the branches meet is executed once for each of them. -/
theorem not_eachOnce_diamond : diamond.validateFlow = [] ∧
    ¬EachOnce diamond succeed inOrder "start" := by
  refine ⟨by decide +kernel, fun h => ?_⟩
  have h_end : Leads diamond succeed [] "start" [0, 0] "end" := by
    refine ⟨by decide +kernel, "left", by decide +kernel, by decide +kernel, "end", ?_, rfl⟩
    decide +kernel
  have h_twice : (execute diamond succeed inOrder "start").executions.countP
      (fun e => e.id = "end") = 2 := by decide +kernel
  rw [h [0, 0] "end" h_end] at h_twice
  exact absurd h_twice (by decide)

end Executions
end OpsPilot

import BkLite.OpsPilot.AgentSearch
import BkLite.OpsPilot.NodeChain

/-!
# The streamed run of a flow

`sse_execute` runs a flow in three parts. The nodes the search collects are run in the order of
the search (`_execute_prerequisite_nodes`), the agents node is streamed, and then the nodes its
edges lead to are run (`_execute_subsequent_nodes_async`), but nothing after these.
-/

namespace OpsPilot

open Relation

/-- The types of start nodes that are streamed (`is_agui_protocol`, `is_openai_protocol`). -/
def streamingTypes : List String := ["agui", "embedded_chat", "mobile", "web_chat", "openai"]

/-- The nodes a streamed run completes and fails, and the error it responds with. -/
structure StreamRun where
  completed : List String := []
  failed : List String := []
  error : Option String := none
deriving DecidableEq, Repr

namespace Flow

variable (flow : Flow) (out : String → Output)

def findTargetAgentNode (start : Node) : Option Node × List Node :=
  if start.type ∈ streamingTypes then flow.findAgentNodeViaBfs start
  else (flow.nodes.getLast?, flow.nodes.dropLast)

/-- The key `intent_result`: the results are written over the data of the start node. -/
def finalIntent (start : Node) (before : List Node) : Option String :=
  before.foldl (fun intent node => (out node.id).intentResult.or intent)
    (out start.id).intentResult

/-- `_find_agent_by_intent`: the target of the first edge with the intent as its handle, of
whatever type. -/
def findAgentByIntent (intentNodeId intent : String) : Option Node :=
  (flow.edges.filter fun e => e.source = intentNodeId ∧ e.sourceHandle = intent).findSome?
    fun e => flow.getNodeById e.target

/-- The agents node of `_resolve_sse_target_agent`. -/
def resolveSseTargetAgent (start : Node) : Option Node :=
  match flow.findTargetAgentNode start with
  | (some agent, _) => some agent
  | (none, before) =>
    match before.find? (·.type = "intent_classification"),
        (finalIntent out start before).filter (· ≠ "") with
    | some intentNode, some intent => flow.findAgentByIntent intentNode.id intent
    | _, _ => none

/-- The nodes that `_execute_subsequent_nodes_async` runs: the result it routes with is empty. -/
def subsequentNodes (agent : Node) : List String :=
  (flow.getNextNodes agent.id {}).filter fun id => (flow.getNodeById id).isSome

/-- `sse_execute`, for nodes that succeed with the results `out`. -/
def sseExecute (start : Node) : StreamRun :=
  if flow.validateFlow ≠ [] then { error := "流程验证失败" }
  else if start.type ∉ streamingTypes ∧ (flow.nodes.getLast?.map (·.type)) ≠ some "agents" then
    { error := "当前流程不支持SSE" }
  else
    -- the start node is entered as completed, then the collected nodes are run
    let completed := start.id :: (flow.findTargetAgentNode start).2.map (·.id)
    match flow.resolveSseTargetAgent out start with
    | none => { completed := completed, error := "未找到可执行的agents节点（意图路由失败）" }
    | some agent =>
      if agent.type = "agents" then
        { completed := completed ++ agent.id :: flow.subsequentNodes agent }
      else
        -- `sse_execute` of any other executor raises
        { completed := completed
          failed := [agent.id]
          error := some s!"流处理错误: 节点 {agent.id} 不支持流式执行" }

/-! ### The condition -/

/-- The start node, the nodes the search collects, and where they lead to an agents node this node
and its direct successors. -/
def streamed (start : Node) : List String :=
  start.id :: (flow.findAgentNodeViaBfs start).2.map (·.id) ++
    match flow.resolveSseTargetAgent out start with
    | some agent =>
      if agent.type = "agents" then agent.id :: flow.subsequentNodes agent else []
    | none => []

/-- The streamed nodes hang together by selected edges. -/
structure Aligned (start : Node) : Prop where
  /-- Each but the start is entered by a selected edge from one of them. -/
  entered : ∀ b ∈ flow.streamed out start, b ≠ start.id →
    ∃ a ∈ flow.streamed out start, flow.Selects out a b
  /-- No selected edge leads from them to another node. -/
  kept : ∀ a ∈ flow.streamed out start, ∀ b ∈ flow.getNextNodes a (out a),
    (flow.getNodeById b).isSome → b ∈ flow.streamed out start

instance (a b : String) : Decidable (flow.Selects out a b) :=
  inferInstanceAs (Decidable (_ ∧ _))

instance (start : Node) : Decidable (flow.Aligned out start) :=
  decidable_of_iff
    ((∀ b ∈ flow.streamed out start, b ≠ start.id →
        ∃ a ∈ flow.streamed out start, flow.Selects out a b) ∧
      ∀ a ∈ flow.streamed out start, ∀ b ∈ flow.getNextNodes a (out a),
        (flow.getNodeById b).isSome → b ∈ flow.streamed out start)
    ⟨fun h => ⟨h.1, h.2⟩, fun h => ⟨h.entered, h.kept⟩⟩

variable {flow} {out} {start : Node} {remaining : ℚ}

theorem sseExecute_completed (h_accepted : flow.validateFlow = [])
    (h_type : start.type ∈ streamingTypes) :
    (flow.sseExecute out start).completed = flow.streamed out start := by
  have h_search : flow.findTargetAgentNode start = flow.findAgentNodeViaBfs start :=
    if_pos h_type
  have h_stream : ¬(start.type ∉ streamingTypes ∧
      (flow.nodes.getLast?.map (·.type)) ≠ some "agents") := fun h => h.1 h_type
  rw [sseExecute, if_neg (not_not.mpr h_accepted), if_neg h_stream, streamed, ← h_search]
  cases flow.resolveSseTargetAgent out start with
  | none => exact (List.append_nil _).symm
  | some agent =>
    by_cases h_agents : agent.type = "agents"
    · simp only [if_pos h_agents]
    · simp only [if_neg h_agents, List.append_nil]

/-- **Streaming.** The same nodes exactly if the streamed ones hang together by selected edges. -/
theorem agree_iff (h_accepted : flow.validateFlow = [])
    (h_start : flow.getNodeById start.id = some start) (h_type : start.type ∈ streamingTypes)
    (h_time : (flow.execute out start.id remaining).InTime) :
    (∀ b, b ∈ (flow.sseExecute out start).completed ↔
        b ∈ (flow.execute out start.id remaining).completed) ↔
      flow.Aligned out start := by
  have h_mem : start.id ∈ {b | b ∈ flow.streamed out start} := List.mem_cons_self
  have h_reached :=
    Reach.reached_iff (E := {b | b ∈ flow.streamed out start})
      (wellFounded_selects h_accepted out) h_mem
  rw [sseExecute_completed h_accepted h_type]
  calc (∀ b, b ∈ flow.streamed out start ↔ b ∈ (flow.execute out start.id remaining).completed)
      ↔ ∀ b, b ∈ flow.streamed out start ↔ ReflTransGen (flow.Selects out) start.id b := by
        refine forall_congr' fun b => ?_
        rw [mem_execute h_accepted h_start h_time]
    _ ↔ flow.Aligned out start := by
        refine h_reached.trans ?_
        constructor
        · rintro ⟨h_entered, h_kept⟩
          exact ⟨h_entered, fun a h_a b h_b h_some => h_kept a h_a b ⟨h_b, h_some⟩⟩
        · intro h
          exact ⟨h.entered, fun a h_a b h_b => h.kept a h_a b h_b.1 h_b.2⟩

end Flow

/-! ### Two flows -/

def routed : Flow where
  nodes := [⟨"chat", "agui"⟩, ⟨"recall", "memory_read"⟩, ⟨"classify", "intent_classification"⟩,
    ⟨"alarm", "agents"⟩, ⟨"ticket", "agents"⟩, ⟨"done", "exit"⟩]
  edges := [⟨"chat", "recall", ""⟩, ⟨"recall", "classify", ""⟩,
    ⟨"classify", "alarm", "alarm_helper"⟩, ⟨"classify", "ticket", "ticket_helper"⟩,
    ⟨"alarm", "done", ""⟩, ⟨"ticket", "done", ""⟩]

def routedOut : String → Output := fun id =>
  if id = "classify" then { intentResult := "ticket_helper" } else {}

theorem exists_time_routed :
    ∃ T, ∀ remaining, T ≤ remaining → (routed.execute routedOut "chat" remaining).InTime :=
  Flow.exists_time (by decide +kernel) routedOut "chat"

theorem agree_routed :
    (∀ b, b ∈ (routed.sseExecute routedOut ⟨"chat", "agui"⟩).completed ↔
      b ∈ (routed.execute routedOut "chat" 300).completed) ∧
    (routed.sseExecute routedOut ⟨"chat", "agui"⟩).completed =
      ["chat", "recall", "classify", "ticket", "done"] := by
  have h_time : (routed.execute routedOut "chat" 300).failures = [] := by decide +kernel
  refine ⟨?_, by decide +kernel⟩
  refine (Flow.agree_iff (by decide +kernel) (by decide +kernel) (by decide) ?_).mpr
    (by decide +kernel)
  intro id h_id
  rw [h_time] at h_id
  cases h_id

def reported : Flow where
  nodes := [⟨"chat", "agui"⟩, ⟨"agent", "agents"⟩, ⟨"render", "function"⟩, ⟨"send", "function"⟩]
  edges := [⟨"chat", "agent", ""⟩, ⟨"agent", "render", ""⟩, ⟨"render", "send", ""⟩]

/-- The synchronous run sends what the streamed run leaves at rendering. -/
theorem agree_reported :
    reported.validateFlow = [] ∧
    reported.getNodeById "chat" = some ⟨"chat", "agui"⟩ ∧ "agui" ∈ streamingTypes ∧
    (∃! id, Relation.ReflTransGen (reported.Selects fun _ => {}) "chat" id ∧
      reported.typeOf id = "agents") ∧
    (reported.execute (fun _ => {}) "chat" 300).failures = [] ∧
    (reported.sseExecute (fun _ => {}) ⟨"chat", "agui"⟩).error = none ∧
    ¬ ∀ b, b ∈ (reported.sseExecute (fun _ => {}) ⟨"chat", "agui"⟩).completed ↔
      b ∈ (reported.execute (fun _ => {}) "chat" 300).completed := by
  refine ⟨by decide +kernel, by decide +kernel, by decide, ?_, by decide +kernel,
    by decide +kernel, ?_⟩
  · refine ⟨"agent", ⟨Relation.ReflTransGen.single (by decide +kernel), by decide +kernel⟩, ?_⟩
    rintro id ⟨_, h_type⟩
    obtain ⟨node, h_node, h_id, h_agents⟩ := Flow.exists_node_of_typeOf h_type (by decide)
    have h_only : ∀ node ∈ reported.nodes, node.type = "agents" → node.id = "agent" := by decide
    rw [← h_id]
    exact h_only node h_node h_agents
  · intro h
    have h_send := (h "send").mpr (by decide +kernel)
    exact absurd h_send (by decide +kernel)

end OpsPilot

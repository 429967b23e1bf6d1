import BkLite.Framework.TopologicalOrder
import Mathlib.Data.List.Dedup

/-!
# Chat flows

The graph of a chat flow and the decisions the engine takes on it (`flow_graph.py`): the check of
a flow before it runs, and the edges that are followed out of a node for a result of that node.
-/

namespace OpsPilot

open TopologicalOrder

/-- A node of a flow. Its configuration is read by its executor alone. -/
structure Node where
  id : String
  type : String
deriving DecidableEq, Repr

structure Edge where
  source : String
  target : String
  sourceHandle : String := ""
deriving DecidableEq, Repr

/-- `flow_json`. -/
structure Flow where
  nodes : List Node
  edges : List Edge
deriving DecidableEq, Repr

/-- What the routing reads of the output of a node; `none` is a missing key. -/
structure Output where
  intentResult : Option String := none
  conditionResult : Option Bool := none
deriving DecidableEq, Repr

def Output.intent (output : Output) : Option String := output.intentResult.filter (· ≠ "")

/-- `str.lower`, as far as a comparison with a word of ASCII letters sees it. -/
def lower (s : String) : String := String.ofList (s.toList.map Char.toLower)

/-- The types the registry has an executor for (`get_supported_types`). -/
def supportedTypes : List String :=
  ["restful", "enterprise_wechat", "dingtalk", "wechat_official", "openai", "agui",
   "embedded_chat", "mobile", "web_chat", "exit", "celery", "nats", "agents", "http",
   "notification", "function", "text_to_pdf", "intent_classification", "memory_read",
   "memory_write", "start", "end", "condition"]

namespace Flow

variable (flow : Flow)

/-- `_get_node_by_id`: the last node with the id; one with an empty id is left out. -/
def getNodeById (id : String) : Option Node :=
  flow.nodes.reverse.find? fun node => node.id ≠ "" ∧ node.id = id

def identifyEntryNodes : List String :=
  (flow.nodes.map (·.id)).filter fun id => id ∉ flow.edges.map (·.target)

/-! ### Topology -/

def predecessors (id : String) : List String :=
  (flow.edges.filter (·.target = id)).map (·.source)

/-- The items of `_build_topology`: an edge adds its ends also where no node has the id. -/
def topologyItems : List String :=
  (flow.nodes.map (·.id) ++ flow.edges.flatMap fun e => [e.target, e.source]).dedup

/-- `list(self.full_topology.static_order())` raises `CycleError`. -/
def hasCycle : Bool :=
  (staticOrder flow.predecessors flow.topologyItems.length [] flow.topologyItems).isNone

def validateFlow : List String :=
  if flow.nodes.isEmpty then ["流程中没有节点"]
  else
    (if flow.identifyEntryNodes.isEmpty then ["流程中没有入口节点"] else [])
      ++ (if flow.hasCycle then ["流程存在循环依赖"] else [])
      ++ (flow.nodes.filter (·.type ∉ supportedTypes)).map fun node =>
          s!"不支持的节点类型: {node.type} (节点ID: {node.id})"

/-! ### Routing -/

/-- `source_node.get("type", "") if source_node else ""`. -/
def typeOf (id : String) : String := ((flow.getNodeById id).map (·.type)).getD ""

def shouldFollowEdge (edge : Edge) (output : Output) : Bool :=
  match output.intent with
  -- an edge without a handle is not followed out of a node with an intent
  | some intent => edge.sourceHandle ≠ "" && edge.sourceHandle = intent
  | none =>
    if flow.typeOf edge.source ∈ ["condition", "branch"]
        ∧ lower edge.sourceHandle ∈ ["true", "false"] then
      match output.conditionResult with
      | none => false
      | some result => (lower edge.sourceHandle = "true" : Bool) == result
    else true

def getNextNodes (id : String) (output : Output) : List String :=
  (flow.edges.filter fun edge =>
    edge.source = id && flow.shouldFollowEdge edge output && edge.target ≠ "").map (·.target)

def Links (a b : String) : Prop := ∃ e ∈ flow.edges, e.source = a ∧ e.target = b

/-- With the results `out` an edge from `a` to the node `b` is followed. -/
def Selects (out : String → Output) (a b : String) : Prop :=
  b ∈ flow.getNextNodes a (out a) ∧ (flow.getNodeById b).isSome

variable {flow} {a b id : String} {node : Node} {out : String → Output}

theorem mem_predecessors : a ∈ flow.predecessors b ↔ flow.Links a b := by
  simp only [predecessors, Links, List.mem_map, List.mem_filter, decide_eq_true_eq]
  constructor
  · rintro ⟨e, ⟨h_mem, h_target⟩, h_source⟩
    exact ⟨e, h_mem, h_source, h_target⟩
  · rintro ⟨e, h_mem, h_source, h_target⟩
    exact ⟨e, ⟨h_mem, h_target⟩, h_source⟩

theorem mem_topologyItems_of_links (h : flow.Links a b) :
    a ∈ flow.topologyItems ∧ b ∈ flow.topologyItems := by
  obtain ⟨e, h_mem, h_source, h_target⟩ := h
  have h_ends : ∀ x ∈ [e.target, e.source], x ∈ flow.topologyItems := by
    intro x h_x
    rw [topologyItems, List.mem_dedup]
    exact List.mem_append_right _ (List.mem_flatMap.mpr ⟨e, h_mem, h_x⟩)
  rw [← h_source, ← h_target]
  exact ⟨h_ends _ (by simp), h_ends _ (by simp)⟩

/-- **Cycles.** The check finds no cycle exactly if the edges cannot be followed backwards for
ever. -/
theorem hasCycle_eq_false_iff : flow.hasCycle = false ↔ WellFounded flow.Links := by
  have h_rel : Precedes flow.predecessors = flow.Links := by
    funext a b
    exact propext mem_predecessors
  have h_closed : ∀ y ∈ flow.topologyItems, ∀ p ∈ flow.predecessors y, p ∈ flow.topologyItems :=
    fun y _ p h_p => (mem_topologyItems_of_links (mem_predecessors.mp h_p)).1
  rw [hasCycle, Option.isNone_eq_false_iff, staticOrder_isSome_iff h_closed, h_rel]
  constructor
  · intro h_acc
    refine ⟨fun b => ⟨b, fun a h_link => ?_⟩⟩
    exact h_acc a (mem_topologyItems_of_links h_link).1
  · intro wf y _
    exact wf.apply y

theorem wellFounded_links (h : flow.validateFlow = []) : WellFounded flow.Links := by
  refine hasCycle_eq_false_iff.mp ?_
  rw [validateFlow] at h
  split at h
  · cases h
  · have h_cycle := (List.append_eq_nil_iff.mp (List.append_eq_nil_iff.mp h).1).2
    by_contra h_has
    rw [Bool.not_eq_false] at h_has
    rw [if_pos h_has] at h_cycle
    cases h_cycle

theorem mem_getNextNodes {output : Output} : b ∈ flow.getNextNodes a output ↔
    ∃ e ∈ flow.edges, e.source = a ∧ flow.shouldFollowEdge e output ∧ e.target ≠ "" ∧
      e.target = b := by
  simp only [getNextNodes, List.mem_map, List.mem_filter, Bool.and_eq_true, decide_eq_true_eq]
  constructor
  · rintro ⟨e, ⟨h_mem, ⟨h_source, h_follow⟩, h_ne⟩, h_target⟩
    exact ⟨e, h_mem, h_source, h_follow, h_ne, h_target⟩
  · rintro ⟨e, h_mem, h_source, h_follow, h_ne, h_target⟩
    exact ⟨e, ⟨h_mem, ⟨h_source, h_follow⟩, h_ne⟩, h_target⟩

theorem Selects.links (h : flow.Selects out a b) : flow.Links a b := by
  obtain ⟨e, h_mem, h_source, _, _, h_target⟩ := mem_getNextNodes.mp h.1
  exact ⟨e, h_mem, h_source, h_target⟩

theorem wellFounded_selects (h : flow.validateFlow = []) (out : String → Output) :
    WellFounded (flow.Selects out) :=
  Subrelation.wf (fun h_sel => h_sel.links) (wellFounded_links h)

theorem getNodeById_id (h : flow.getNodeById id = some node) : node.id = id := by
  have h_test := List.find?_some h
  simp only [decide_eq_true_eq] at h_test
  exact h_test.2

theorem getNodeById_mem (h : flow.getNodeById id = some node) : node ∈ flow.nodes :=
  List.mem_reverse.mp (List.mem_of_find?_eq_some h)

theorem exists_node_of_typeOf {type : String} (h : flow.typeOf id = type) (h_type : type ≠ "") :
    ∃ node ∈ flow.nodes, node.id = id ∧ node.type = type := by
  cases h_node : flow.getNodeById id with
  | none =>
    rw [typeOf, h_node] at h
    exact absurd h.symm h_type
  | some node =>
    rw [typeOf, h_node] at h
    exact ⟨node, getNodeById_mem h_node, getNodeById_id h_node, h⟩

end Flow

end OpsPilot

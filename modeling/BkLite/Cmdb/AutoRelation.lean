import BkLite.Framework.Reconcile
import BkLite.Cmdb.Instances
import Mathlib.Data.List.Infix

/-!
# Automatic associations

An association between two models may carry rules, by which instances of the one are joined to
instances of the other. `full_sync_rule` brings the automatic edges of the association in line with
its rules, source by source: it deletes the automatic edges of the source that no rule asks for,
and creates those that are missing, as far as the mapping of the association and the edges that are
there allow (`services/auto_relation_reconcile.py`, `check_asso_mapping` of `services/instance.py`,
`_create_edge` of `graph/falkordb.py`).

The edges here are those of one association. An edge is `auto` when its `association_source` is
`auto_rule` and its `auto_rule_model_asst_id` the id of the association.
-/

namespace Cmdb.AutoRelation

open Py
open Reconcile (Edge Limits)

/-- What the service takes from Python: `str()`, `str.lower` and the order in which a set is
iterated. -/
structure Env where
  str : Value → String
  lower : String → String
  iterate : List ℕ → List ℕ
  iterate_perm : ∀ ids, (iterate ids).Perm ids

/-- The mapping of an association: `n:n`, `1:n`, `n:1`, `1:1`. -/
inductive Mapping
  | manyToMany
  | oneToMany
  | manyToOne
  | oneToOne
deriving DecidableEq, Repr

inductive MatchingRule
  | exact
  | iexact
  | contains
  | unsupported (name : String)
deriving DecidableEq, Repr

/-- `AutoRelationMatchPair`. -/
structure MatchPair where
  srcFieldId : String
  dstFieldId : String
  matchingRule : MatchingRule
deriving DecidableEq, Repr

/-- `AutoRelationRule`. -/
structure Rule where
  enabled : Bool
  matchPairs : List MatchPair
deriving DecidableEq, Repr

structure Association where
  modelAsstId : String
  mapping : Mapping
  /-- What `parse_auto_relation_rule_set` makes of the field. -/
  autoRelationRule : Option (List Rule)

/-! ### The targets of a source -/

section Desired

variable (env : Env)

/-- `str(value).strip()`. -/
def stripped (value : Value) : String := String.ofList (strip (env.str value).toList)

/-- `value is None`. -/
def isNone : Value → Bool
  | .null => true
  | _ => false

def matchesPair (sourceValue targetValue : Value) (pair : MatchPair) : Bool :=
  if pair.matchingRule = .exact then
    sourceValue.equal targetValue
  else if isNone sourceValue || isNone targetValue then
    false
  else if pair.matchingRule = .iexact then
    env.lower (stripped env sourceValue) = env.lower (stripped env targetValue)
  else if pair.matchingRule = .contains then
    (stripped env sourceValue).toList <:+: (stripped env targetValue).toList
  else
    false

def isEmptyValue : Value → Bool
  | .null => true
  | .str s => strip s.toList = []
  | .list xs => xs.isEmpty
  | .dict kvs => kvs.isEmpty
  | _ => false

def sourceFieldsReady (rule : Rule) (source : Instance) : Bool :=
  rule.matchPairs.all fun pair => !isEmptyValue (source.get pair.srcFieldId)

def matchesTarget (rule : Rule) (source target : Instance) : Bool :=
  rule.matchPairs.all fun pair =>
    matchesPair env (source.get pair.srcFieldId) (target.get pair.dstFieldId) pair

def calculateDesiredTargetIds (source : Instance) (rules : List Rule)
    (targetInstances : List Instance) : List ℕ :=
  fromKeys (rules.flatMap fun rule =>
    if sourceFieldsReady rule source then
      (targetInstances.filter (matchesTarget env rule source)).map (·.id)
    else [])

abbrev Claims := ℕ → Option ℕ

structure Filtered where
  targetIds : List ℕ
  conflicts : ℕ
  claims : Claims

def claimTarget (srcInstId : ℕ) (filtered : Filtered) (dstInstId : ℕ) : Filtered :=
  if (filtered.claims dstInstId).any (· ≠ srcInstId) then
    { filtered with conflicts := filtered.conflicts + 1 }
  else
    { filtered with
      targetIds := filtered.targetIds ++ [dstInstId]
      claims := Function.update filtered.claims dstInstId (some srcInstId) }

/-- `_filter_desired_targets_for_mapping`, with the claims after it. -/
def filterDesiredTargets (mapping : Mapping) (srcInstId : ℕ) (desired : List ℕ)
    (targetClaims : Option Claims) : List ℕ × ℕ × Option Claims :=
  if desired = [] then (desired, 0, targetClaims)
  else if mapping ∈ [.manyToOne, .oneToOne] ∧ 1 < desired.length then ([], 1, targetClaims)
  else
    match targetClaims with
    | some claims =>
      if mapping ∈ [.oneToMany, .oneToOne] then
        let filtered := (env.iterate desired).foldl (claimTarget srcInstId) ⟨[], 0, claims⟩
        (filtered.targetIds, filtered.conflicts, some filtered.claims)
      else (desired, 0, some claims)
    | none => (desired, 0, none)

end Desired

/-! ### The edges of a source -/

def checkAssoMapping (mapping : Mapping) (edges : List (Edge ℕ)) (src dst : ℕ) :
    Except String Unit :=
  match mapping with
  | .manyToMany => .ok ()
  | .oneToMany =>
    if edges.any (·.dst = dst) then .error "destination instance already exists association!"
    else .ok ()
  | .manyToOne =>
    if edges.any (·.src = src) then .error "source instance already exists association!"
    else .ok ()
  | .oneToOne =>
    if edges.any (·.src = src) then .error "source instance already exists association!"
    else if edges.any (·.dst = dst) then
      .error "destination instance already exists association!"
    else .ok ()

/-- `_create_edge` of an automatic edge; an edge between the two in either direction counts as
there. -/
def createEdge (edges : List (Edge ℕ)) (src dst : ℕ) : Except String (List (Edge ℕ)) :=
  if edges.any fun e => (e.src = src ∧ e.dst = dst) ∨ (e.src = dst ∧ e.dst = src) then
    .error "edge already exists"
  else .ok (edges ++ [⟨src, dst, true⟩])

structure SourceSummary where
  modelAsstId : String
  srcInstId : ℕ
  desired : ℕ
  created : ℕ
  deleted : ℕ
  skipped : ℕ
  conflicts : ℕ
deriving DecidableEq, Repr

/-- The second loop of `reconcile_source_instance`. -/
structure Creating where
  edges : List (Edge ℕ)
  allExistingTargetIds : List ℕ
  created : ℕ
  skipped : ℕ
  conflicts : ℕ

def createMissing (mapping : Mapping) (src : ℕ) (creating : Creating) (dst : ℕ) : Creating :=
  if dst ∈ creating.allExistingTargetIds then
    { creating with skipped := creating.skipped + 1 }
  else
    match checkAssoMapping mapping creating.edges src dst >>= fun _ =>
      createEdge creating.edges src dst with
    | .ok edges =>
      { creating with
        edges := edges
        allExistingTargetIds := creating.allExistingTargetIds ++ [dst]
        created := creating.created + 1 }
    | .error _ => { creating with conflicts := creating.conflicts + 1 }

/-- What `reconcile_source_instance` changes, and its summary. -/
structure Reconciled where
  edges : List (Edge ℕ)
  claims : Option Claims
  summary : SourceSummary

def reconcileSourceInstance (env : Env) (association : Association) (rules : List Rule)
    (targetInstances : List Instance) (edges : List (Edge ℕ)) (targetClaims : Option Claims)
    (source : Instance) : Reconciled :=
  let existingEdges := edges.filter (·.src = source.id)
  let autoEdges := existingEdges.filter (·.auto)
  let desired := calculateDesiredTargetIds env source rules targetInstances
  let (desired, mappingConflicts, targetClaims) :=
    filterDesiredTargets env association.mapping source.id desired targetClaims
  let stale := autoEdges.filter (·.dst ∉ desired)
  let creating := (env.iterate desired).foldl (createMissing association.mapping source.id)
    { edges := edges.filter (· ∉ stale)
      allExistingTargetIds := existingEdges.map (·.dst)
      created := 0
      skipped := 0
      conflicts := mappingConflicts }
  { edges := creating.edges
    claims := targetClaims
    summary :=
      { modelAsstId := association.modelAsstId
        srcInstId := source.id
        desired := desired.length
        created := creating.created
        deleted := stale.length
        skipped := creating.skipped
        conflicts := creating.conflicts } }

/-! ### All sources -/

structure Graph where
  sources : List Instance
  targets : List Instance
  edges : List (Edge ℕ)

inductive SyncMode
  | cleanup
  | fullSync
deriving DecidableEq, Repr

structure SyncSummary where
  modelAsstId : String
  mode : SyncMode
  sourceInstances : ℕ
  created : ℕ
  deleted : ℕ
  skipped : ℕ
  conflicts : ℕ
  success : Bool
deriving DecidableEq, Repr

/-- The loop of `full_sync_rule`. -/
structure Syncing where
  edges : List (Edge ℕ)
  claims : Option Claims
  summary : SyncSummary

def syncSource (env : Env) (association : Association) (rules : List Rule)
    (targetInstances : List Instance) (syncing : Syncing) (source : Instance) : Syncing :=
  let item := reconcileSourceInstance env association rules targetInstances syncing.edges
    syncing.claims source
  { edges := item.edges
    claims := item.claims
    summary :=
      { syncing.summary with
        created := syncing.summary.created + item.summary.created
        deleted := syncing.summary.deleted + item.summary.deleted
        skipped := syncing.summary.skipped + item.summary.skipped
        conflicts := syncing.summary.conflicts + item.summary.conflicts } }

/-- The rules that `full_sync_rule` goes by. -/
def Association.enabledRules (association : Association) : List Rule :=
  (association.autoRelationRule.getD []).filter (·.enabled)

/-- `cleanup_auto_edges_by_rule`: the edges after it, and how many it deletes. -/
def cleanupAutoEdgesByRule (edges : List (Edge ℕ)) : List (Edge ℕ) × ℕ :=
  (edges.filter (!·.auto), (edges.filter (·.auto)).length)

/-- `full_sync_rule`, with the graph after it. -/
def fullSyncRule (env : Env) (modelAsstId : String) (association : Option Association)
    (g : Graph) : Graph × SyncSummary :=
  let summary : SyncSummary :=
    { modelAsstId := modelAsstId
      mode := .cleanup
      sourceInstances := 0
      created := 0
      deleted := 0
      skipped := 0
      conflicts := 0
      success := true }
  let cleanup := cleanupAutoEdgesByRule g.edges
  match association with
  | none => ({ g with edges := cleanup.1 }, { summary with deleted := cleanup.2 })
  | some association =>
    if association.enabledRules = [] then
      ({ g with edges := cleanup.1 }, { summary with deleted := cleanup.2 })
    else
      let syncing := g.sources.foldl
        (syncSource env association association.enabledRules g.targets)
        { edges := g.edges
          claims := if association.mapping ∈ [.oneToMany, .oneToOne] then some fun _ => none
            else none
          summary :=
            { summary with mode := .fullSync, sourceInstances := g.sources.length } }
      ({ g with edges := syncing.edges }, syncing.summary)

end Cmdb.AutoRelation

import BkLite.Cmdb.TopologyCorrelation

/-!
# Reconciling the links of a topology

`reconcile_topology` (`topology/parse.py`). The candidates come in three groups: the links that
neighbours have reported, the inferred ones, and those of correlated devices. A candidate that joins
the ports of a link that is there either takes its place or is retired itself, and in both cases the
link that stays lists the other one as supporting evidence (`Book`). Then the links of the previous
snapshot whose identity is not among the current ones become stale.
-/

namespace Topology

open Py

abbrev Pair := String × String

/-! ### The book of links -/

/-- The links so far: by the ports they join, the inferred ones by their VLAN besides. -/
structure Book where
  authoritative : OrderedDict Pair Link := []
  inferred : OrderedDict (Pair × String) Link := []
  staleLinks : List Link := []

/-- The copy of a candidate that goes to `stale_links`. -/
def Link.retired (item : Link) (status : String) : Link :=
  { item with status := status, reconciliationRole := some "corroborating" }

def Link.corroboratedBy (winner staleItem : Link) : Link :=
  appendSupportingEvidence winner staleItem "corroborating"

def addAuthoritative (book : Book) (item : Link) : Book :=
  let key := relationshipIdentity item
  match book.authoritative.get key with
  | none => { book with authoritative := book.authoritative.set key item }
  | some existing =>
    let staleItem := item.retired "superseded"
    { book with
      authoritative := book.authoritative.set key (existing.corroboratedBy staleItem)
      staleLinks := book.staleLinks ++ [staleItem] }

def suppress (book : Book) (winner item : Link) : Book :=
  let staleItem := item.retired "suppressed"
  { book with
    authoritative := book.authoritative.set (relationshipIdentity item)
      (winner.corroboratedBy staleItem)
    staleLinks := book.staleLinks ++ [staleItem] }

/-- The one of the two links that `wins` stays, and the other one is retired. -/
def contend (wins : Link → Link → Bool) (book : Book) (item : Link) : Book :=
  let scopedKey := relationshipIdentityWithVlan item
  match book.inferred.get scopedKey with
  | none => { book with inferred := book.inferred.set scopedKey item }
  | some existing =>
    if wins item existing then
      let staleItem := existing.retired "superseded"
      { book with
        inferred := book.inferred.set scopedKey (item.corroboratedBy staleItem)
        staleLinks := book.staleLinks ++ [staleItem] }
    else
      let staleItem := item.retired "superseded"
      { book with
        inferred := book.inferred.set scopedKey (existing.corroboratedBy staleItem)
        staleLinks := book.staleLinks ++ [staleItem] }

/-- `str(item.get("source_port_id", "")) and str(item.get("target_port_id", ""))`. -/
def Link.hasPorts (item : Link) : Bool := item.sourcePortId ≠ "" && strOf item.targetPortId ≠ ""

def addInferred (book : Book) (item : Link) : Book :=
  if item.hasPorts then
    match book.authoritative.get (relationshipIdentity item) with
    | some winner => suppress book winner item
    | none => contend (fun item existing => existing.confidence < item.confidence) book item
  else book

def Correlation.candidate (c : Correlation) : Link where
  relationshipId := "inf-bidir:" ++ c.leftPort.portId ++ ":" ++ c.rightPort.portId
  relationshipType := "inferred"
  evidenceSource := "fdb+arp"
  confidence := 95
  sourceDevice := c.leftDevice
  sourcePortId := c.leftPort.portId
  sourceInstName := makeInterfaceInstName c.leftDevice (some c.leftPort)
  targetDevice := some c.rightDevice
  targetPortId := some c.rightPort.portId
  targetInstName := some (makeInterfaceInstName c.rightDevice (some c.rightPort))
  remoteDeviceName := some c.rightDevice
  remotePortName := some c.rightPort.displayName
  vlan := match c.vlanIds with
    | [vlan] => some vlan
    | _ => none
  provenance := [.bidirectional c.leftHits c.rightHits c.vlanIds
    ["bidirectional_fdb", "mutual_arp_visibility", "unique_port_pair"]]

def absorbGeneric (book : Book) (candidate : Link) : Book × Link :=
  let genericKey := (relationshipIdentity candidate, "")
  if relationshipIdentityWithVlan candidate = genericKey then (book, candidate)
  else
    match book.inferred.get genericKey with
    | none => (book, candidate)
    | some generic =>
      let staleItem := generic.retired "superseded"
      ({ book with
          inferred := book.inferred.pop genericKey
          staleLinks := book.staleLinks ++ [staleItem] },
        candidate.corroboratedBy staleItem)

def addCorrelation (book : Book) (correlation : Correlation) : Book :=
  let candidate := correlation.candidate
  match book.authoritative.get (relationshipIdentity candidate) with
  | some winner => suppress book winner candidate
  | none =>
    let (book, candidate) := absorbGeneric book candidate
    contend (fun item existing => above (winnerPriority item) (winnerPriority existing)) book
      candidate

/-! ### Neighbours that stay unresolved -/

/-- An entry of `unresolved_neighbors`. -/
structure UnresolvedNeighbor where
  protocol : String
  evidenceKey : String
  sourceDevice : String
  sourcePortId : String
  sourceInstName : String
  remoteDeviceName : String
  remotePortName : String
  remoteAddress : String
  resolutionState : String
  confidence : ℤ
  decisionReason : String
  supportingSignals : List String
  conflictingSignals : List String := []
  conflictsWithRelationshipId : Option String := none
  rawRemoteFields : OrderedDict String String
deriving DecidableEq

/-- What `infer_topology` returns. -/
structure Inferred where
  authoritativeLinks : List Link
  inferredLinks : List Link
  unresolvedNeighbors : List UnresolvedNeighbor
  deviceLabels : OrderedDict String (List String)

/-- `max(candidates, key=winner_priority)`, the first one of the highest. -/
def maxByPriority : List Link → Option Link
  | [] => none
  | x :: xs => some (xs.foldl (fun best y =>
      if above (winnerPriority y) (winnerPriority best) then y else best) x)

/-- `x or y` of a text that may be missing. -/
def orOption (x : Option String) (y : String) : String :=
  match x with
  | some s => orText s y
  | none => y

def markConflict (currentLinks : List Link) (deviceLabels : OrderedDict String (List String))
    (unresolved : UnresolvedNeighbor) : UnresolvedNeighbor :=
  let candidates := currentLinks.filter fun item =>
    item.sourcePortId ≠ "" && item.sourcePortId = unresolved.sourcePortId
  match maxByPriority candidates with
  | none => unresolved
  | some winner =>
    let winnerRemote := orOption winner.targetDevice (winner.remoteDeviceName.getD "")
    let targetLabels := (deviceLabels.get (winner.targetDevice.getD "")).getD []
    let winnerLabels := (if winnerRemote = "" then [] else [winnerRemote]) ++
      if winner.targetDevice.getD "" = "" then [] else targetLabels
    if unresolved.remoteDeviceName ≠ "" ∧ unresolved.remoteDeviceName ∉ winnerLabels then
      { unresolved with
        conflictingSignals := unresolved.conflictingSignals ++ ["competes_with:" ++ winnerRemote]
        conflictsWithRelationshipId := some winner.relationshipId }
    else unresolved

/-! ### What is returned -/

/-- An entry of `relationships`. -/
structure RelationshipView where
  sourceDevice : String
  targetDevice : Option String
  sourceInstName : String
  targetInstName : Option String
  modelId : String
  asstId : String
  modelAsstId : String
  relationshipType : String
  evidenceSource : String
  confidence : ℤ
  vlan : Option String
  status : String
deriving DecidableEq

/-- `x or y` of texts that may both be missing. -/
def orElseText (x y : Option String) : Option String := if x.getD "" = "" then y else x

def Link.view (item : Link) : RelationshipView where
  sourceDevice := item.sourceDevice
  targetDevice := orElseText item.targetDevice item.remoteDeviceName
  sourceInstName := item.sourceInstName
  targetInstName := orElseText item.targetInstName item.remotePortName
  modelId := item.modelId
  asstId := item.asstId
  modelAsstId := item.modelAsstId
  relationshipType := item.relationshipType
  evidenceSource := item.evidenceSource
  confidence := item.confidence
  vlan := item.vlan
  status := item.status

structure Summary where
  devices : ℕ
  ports : ℕ
  authoritativeLinks : ℕ
  inferredLinks : ℕ
  staleLinks : ℕ
  unresolvedNeighbors : ℕ
  errors : ℕ
  relationships : ℕ
deriving DecidableEq

/-- What `reconcile_topology` returns, but for the report on links that several VLANs
corroborate. -/
structure Reconciled where
  summary : Summary
  normalized : Normalized
  authoritativeLinks : List Link
  inferredLinks : List Link
  staleLinks : List Link
  unresolvedNeighbors : List UnresolvedNeighbor
  relationships : List RelationshipView
  errors : List CollectError

def Reconciled.currentLinks (r : Reconciled) : List Link := r.authoritativeLinks ++ r.inferredLinks

def Book.currentLinks (book : Book) : List Link := book.authoritative.values ++ book.inferred.values

def Link.stale (previous : Link) : Link := { previous with status := "stale" }

def staleOf (currentLinks previousLinks : List Link) : List Link :=
  let currentIndex := OrderedDict.ofList snapshotIdentity currentLinks
  let previousIndex := OrderedDict.ofList snapshotIdentity previousLinks
  (previousIndex.filter fun e => (OrderedDict.get currentIndex e.1).isNone).map fun e => e.2.stale

section Reconcile

variable (lower : String → String)

def bookOf (normalized : Normalized) (inferred : Inferred) : Book :=
  let book := inferred.authoritativeLinks.foldl addAuthoritative {}
  let book := inferred.inferredLinks.foldl addInferred book
  (buildDeviceMacCorrelations lower normalized normalized.indexPorts
    normalized.indexDevices).foldl addCorrelation book

def reconcileTopology (normalized : Normalized) (inferred : Inferred)
    (previousLinks : List Link) : Reconciled :=
  let book := bookOf lower normalized inferred
  let currentLinks := book.currentLinks
  let unresolved := inferred.unresolvedNeighbors.map (markConflict currentLinks
    inferred.deviceLabels)
  let staleLinks := book.staleLinks ++ staleOf currentLinks previousLinks
  { summary :=
      { devices := normalized.devices.length, ports := normalized.ports.length,
        authoritativeLinks := book.authoritative.length, inferredLinks := book.inferred.length,
        staleLinks := staleLinks.length, unresolvedNeighbors := unresolved.length,
        errors := normalized.errors.length, relationships := currentLinks.length },
    normalized := normalized,
    authoritativeLinks := book.authoritative.values,
    inferredLinks := book.inferred.values,
    staleLinks := staleLinks,
    unresolvedNeighbors := unresolved,
    relationships := currentLinks.map Link.view,
    errors := normalized.errors }

end Reconcile

end Topology

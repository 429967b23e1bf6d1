import BkLite.Framework.OrderedDict
import BkLite.Framework.Value

/-!
# Links of a network topology

The data of `topology/parse.py` and `topology/models.py`: the normalized evidence of a collection
(`Normalized`), and the links that are concluded from it (`Link`), each with the evidence that
supports it.

Two links have the same identity if they join the same two ports, whichever way round. A snapshot
identity has the VLAN besides, but of links that plain FDB evidence has led to only.
-/

namespace Topology

open Py

/-! ### Evidence -/

/-- `NormalizedDevice`. -/
structure Device where
  deviceId : String
  host : String
  sysName : String := ""
  ips : List String := []
deriving DecidableEq

/-- `NormalizedPort`. -/
structure Port where
  deviceId : String
  portId : String
  ifindex : String
  ifname : String := ""
  ifalias : String := ""
  ifdescr : String := ""
  mac : String := ""
deriving DecidableEq

/-- `x or y` of texts. -/
def orText (x y : String) : String := if x = "" then y else x

def Port.displayName (port : Port) : String :=
  orText port.ifname (orText port.ifalias (orText port.ifdescr port.portId))

structure NeighborObservation where
  sourceDeviceId : String
  localPortId : String
  protocol : String
  evidenceKey : String
  localPortNum : String := ""
  remoteSystemName : String := ""
  remoteChassisId : String := ""
  remotePortId : String := ""
  remotePortSubtype : String := ""
  remotePortValue : String := ""
  remotePortDesc : String := ""
  remoteAddress : String := ""
  resolutionState : String := "resolved"
  rawRemoteFields : OrderedDict String String := []
deriving DecidableEq

structure ArpObservation where
  sourceDeviceId : String
  localPortId : String
  ipAddress : String
  mac : String
  evidenceKey : String
deriving DecidableEq

structure FdbObservation where
  sourceDeviceId : String
  localPortId : String
  mac : String
  evidenceKey : String
  status : String := ""
  vlan : String := ""
deriving DecidableEq

structure CollectError where
  deviceId : String
  error : Option String
deriving DecidableEq

/-- What `normalize_topology_data` returns. -/
structure Normalized where
  devices : List Device
  ports : List Port
  neighborObservations : List NeighborObservation
  arpObservations : List ArpObservation
  fdbObservations : List FdbObservation
  errors : List CollectError
deriving DecidableEq

def Normalized.indexPorts (normalized : Normalized) : OrderedDict String Port :=
  OrderedDict.ofList Port.portId normalized.ports

def Normalized.indexDevices (normalized : Normalized) : OrderedDict String Device :=
  OrderedDict.ofList Device.deviceId normalized.devices

/-! ### Links -/

structure Hit where
  localPortId : String
  mac : String
  vlan : String
  evidenceKey : String
deriving DecidableEq

inductive Provenance
  | neighbor (evidenceKey protocol remotePortSubtype remotePortValue remoteAddress
      resolutionState : String)
  | arp (evidenceKey mac ip : String)
  | fdb (evidenceKey mac status vlan : String) (signals : List String)
  | bidirectional (leftFdbHits rightFdbHits : List Hit) (vlanIds signals : List String)
deriving DecidableEq

structure Supporting where
  relationshipId : String
  relationshipType : String
  evidenceSource : String
  confidence : ℤ
  status : String
  remoteDeviceName : Option String
  remotePortName : Option String
  vlan : Option String
  disposition : String
  winnerLinkId : String
  provenance : List Provenance
deriving DecidableEq

/-- `LinkCandidate`, as the dict that is passed on. -/
structure Link where
  relationshipId : String
  relationshipType : String
  evidenceSource : String
  confidence : ℤ
  sourceDevice : String
  sourcePortId : String
  sourceInstName : String
  targetDevice : Option String := none
  targetPortId : Option String := none
  targetInstName : Option String := none
  remoteDeviceName : Option String := none
  remotePortName : Option String := none
  vlan : Option String := none
  modelId : String := "interface"
  asstId : String := "connect"
  modelAsstId : String := "interface_connect_interface"
  provenance : List Provenance := []
  supportingEvidence : List Supporting := []
  status : String := "current"
  reconciliationRole : Option String := none
deriving DecidableEq

def summarizeSupportingCandidate (candidate : Link) (disposition winnerLinkId : String) :
    Supporting where
  relationshipId := candidate.relationshipId
  relationshipType := candidate.relationshipType
  evidenceSource := candidate.evidenceSource
  confidence := candidate.confidence
  status := candidate.status
  remoteDeviceName := candidate.remoteDeviceName
  remotePortName := candidate.remotePortName
  vlan := candidate.vlan
  disposition := disposition
  winnerLinkId := winnerLinkId
  provenance := candidate.provenance

def appendSupportingEvidence (winner candidate : Link) (disposition : String) : Link :=
  { winner with
    supportingEvidence := winner.supportingEvidence ++
      [summarizeSupportingCandidate candidate disposition winner.relationshipId] }

/-- `winner_priority`, compared by its first part first. -/
def winnerPriority (item : Link) : ℕ × ℤ :=
  (if item.relationshipType = "authoritative" then 3
    else if item.evidenceSource = "fdb+arp" then 2 else 1, item.confidence)

/-- `>` of pairs. -/
def above (p q : ℕ × ℤ) : Bool := q.1 < p.1 || (p.1 = q.1 && q.2 < p.2)

/-! ### Identities -/

def canonicalPair (left right : String) : String × String :=
  if textLt right.toList left.toList then (right, left) else (left, right)

/-- `str(x)` of a text that may be `None`. -/
def strOf (x : Option String) : String := x.getD "None"

def relationshipIdentity (item : Link) : String × String :=
  let targetPort := item.targetPortId.getD ""
  if item.sourcePortId ≠ "" ∧ targetPort ≠ "" then canonicalPair item.sourcePortId targetPort
  else
    canonicalPair (item.sourcePortId ++ "|" ++ item.sourceDevice)
      (strOf item.remoteDeviceName ++ "|" ++ strOf item.remotePortName)

def relationshipIdentityWithVlan (item : Link) : (String × String) × String :=
  (relationshipIdentity item, item.vlan.getD "")

def Link.isPlainFdb (item : Link) : Bool :=
  item.relationshipType = "inferred" && item.evidenceSource = "fdb"

def snapshotIdentity (item : Link) : (String × String) × String :=
  (relationshipIdentity item, if item.isPlainFdb then item.vlan.getD "" else "")

def makeInterfaceInstName (deviceId : String) : Option Port → String
  | none => deviceId ++ "-unknown"
  | some port => deviceId ++ "-" ++ port.displayName

/-! ### VLANs in order -/

/-- `str.isdigit` as far as `int` reads it: a text of decimal digits. -/
def numberOf (value : String) : Option ℕ :=
  if value.toList ≠ [] then value.toList.mapM digitValue |>.map (·.foldl (fun n d => 10 * n + d) 0)
  else none

def vlanLe (x y : String) : Bool :=
  match numberOf x, numberOf y with
  | some n, some m => n ≤ m
  | some _, none => true
  | none, some _ => false
  | none, none => !textLt y.toList x.toList

def sortVlanValues (vlans : List String) : List String := (fromKeys vlans).mergeSort vlanLe

end Topology

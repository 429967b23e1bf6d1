import BkLite.Cmdb.Topology
import Mathlib.Data.List.Infix

/-!
# Devices that see each other

`build_device_mac_correlations` (`topology/parse.py`). Two devices are correlated if each has learned
addresses of the other on a single port, no third device is seen on both of the ports, and each has
an ARP entry for an address of the other.

A Python set is a list here of which only the members are used, and the `defaultdict` of such sets
is the function from its key to the list. `lower` is `str.lower`.
-/

namespace Topology

open Py

section Ports

variable (lower : String → String)

/-- `token in text`. -/
def occursIn (token text : String) : Bool := token.toList <:+: text.toList

def stripText (s : String) : String := String.ofList (strip s.toList)

def isL2CandidatePort (port : Port) : Bool :=
  let identity := lower (" ".intercalate [port.ifname, port.ifalias, port.ifdescr])
  let names := ([port.ifname, port.ifalias, port.ifdescr].filter fun part => stripText part ≠ "").map
    fun part => lower (stripText part)
  if names.any fun name => "vlan".toList.isPrefixOf name.toList then false
  else !(["vlan-interface", "vlanif", "loopback", "inloopback", "null0"].any fun token =>
    occursIn token identity)

def l2Ports (ports : OrderedDict String Port) : List Port :=
  ports.values.filter fun port => port.mac ≠ "" && isL2CandidatePort lower port

def nonL2Ports (ports : OrderedDict String Port) : List Port :=
  ports.values.filter fun port => port.mac ≠ "" && !isL2CandidatePort lower port

def ownersOf (ports : List Port) (mac : String) : List String :=
  fromKeys ((ports.filter (·.mac = mac)).map (·.deviceId))

def macsOf (ports : List Port) (deviceId : String) : List String :=
  (ports.filter (·.deviceId = deviceId)).map (·.mac)

/-- `build_globally_unique_device_mac_sets`: addresses of one port and one device. -/
def globallyUniqueDeviceMacs (ports : OrderedDict String Port) (deviceId : String) : List String :=
  (macsOf (l2Ports lower ports) deviceId).filter fun mac =>
    ((macsOf (l2Ports lower ports) deviceId).filter (· = mac)).length = 1 &&
      (ownersOf (l2Ports lower ports) mac).length = 1

/-- `build_globally_unique_non_l2_device_mac_sets`. -/
def globallyUniqueNonL2DeviceMacs (ports : OrderedDict String Port) (deviceId : String) :
    List String :=
  (macsOf (nonL2Ports lower ports) deviceId).filter fun mac =>
    (ownersOf (nonL2Ports lower ports) mac).length = 1

/-- `build_observed_device_mac_sets`: the devices that are observed with an address. -/
def observedDevices (ports : OrderedDict String Port) (mac : String) : List String :=
  ownersOf (l2Ports lower ports) mac

def FdbObservation.learned (entry : FdbObservation) : Bool :=
  entry.status ∈ ["3", "learned", "learned(3)"]

/-- What an entry counts under in `build_stable_shared_device_mac_sets`, and the owner. -/
def sharedSighting (ports : OrderedDict String Port) (entry : FdbObservation) :
    Option ((String × String × String) × String) := do
  guard entry.learned
  let port ← ports.get entry.localPortId
  guard (entry.localPortId ≠ "" ∧ entry.mac ≠ "" ∧ isL2CandidatePort lower port = true)
  match ownersOf (l2Ports lower ports) entry.mac with
  | [owner] =>
    guard (owner ≠ port.deviceId)
    return ((port.deviceId, entry.localPortId, entry.mac), owner)
  | _ => none

/-- `build_stable_shared_device_mac_sets`: addresses of a device that one port has learned twice. -/
def stableSharedDeviceMacs (normalized : Normalized) (ports : OrderedDict String Port)
    (deviceId : String) : List String :=
  let sightings := normalized.fdbObservations.filterMap (sharedSighting lower ports)
  (sightings.filter fun s => s.2 = deviceId && 2 ≤ (sightings.filter (·.1 = s.1)).length).map
    (·.1.2.2)

/-- `correlation_device_mac_sets`. -/
def correlationMacs (normalized : Normalized) (ports : OrderedDict String Port)
    (deviceId : String) : List String :=
  globallyUniqueDeviceMacs lower ports deviceId ++
    globallyUniqueNonL2DeviceMacs lower ports deviceId ++
    stableSharedDeviceMacs lower normalized ports deviceId

end Ports

def canonicalDeviceLabels (device : Device) : List String :=
  ((device.host :: device.sysName :: device.ips).map stripText).filter (· ≠ "")

def addressLabels (devices : OrderedDict String Device) (deviceId : String) : List String :=
  (((devices.get deviceId).map canonicalDeviceLabels).getD []).filter fun label =>
    label.toList.any (· = '.')

def seesByArp (normalized : Normalized) (deviceId : String) (ips macs : List String) : Bool :=
  normalized.arpObservations.any fun entry =>
    entry.sourceDeviceId ≠ "" && entry.ipAddress ≠ "" && entry.mac ≠ "" &&
      entry.sourceDeviceId = deviceId && entry.ipAddress ∈ ips && entry.mac ∈ macs

/-- An entry of `correlations`. -/
structure Correlation where
  leftDevice : String
  rightDevice : String
  leftPort : Port
  rightPort : Port
  leftHits : List Hit
  rightHits : List Hit
  vlanIds : List String
deriving DecidableEq

section Hits

variable (lower : String → String) (normalized : Normalized) (ports : OrderedDict String Port)
  (devices : OrderedDict String Device)

def fdbEntries : List FdbObservation :=
  normalized.fdbObservations.filter fun entry =>
    entry.learned && entry.sourceDeviceId ≠ "" && entry.localPortId ≠ "" && entry.mac ≠ "" &&
      (ports.get entry.localPortId).any (isL2CandidatePort lower)

def portSeenDevices (portId : String) : List String :=
  fromKeys (((fdbEntries lower normalized ports).filter (·.localPortId = portId)).flatMap
    fun entry => (observedDevices lower ports entry.mac).filter (· ≠ entry.sourceDeviceId))

def addHit (hits : OrderedDict (String × String) (List Hit)) (pair : String × String) (hit : Hit) :
    OrderedDict (String × String) (List Hit) :=
  hits.set pair ((hits.get pair).getD [] ++ [hit])

def hitTargets (entry : FdbObservation) : List String :=
  devices.keys.filter fun target =>
    target ≠ entry.sourceDeviceId && entry.mac ∈ correlationMacs lower normalized ports target

def fdbHits : OrderedDict (String × String) (List Hit) :=
  (fdbEntries lower normalized ports).foldl (fun hits entry =>
    (hitTargets lower normalized ports devices entry).foldl (fun hits target =>
      addHit hits (entry.sourceDeviceId, target)
        ⟨entry.localPortId, entry.mac, entry.vlan, entry.evidenceKey⟩) hits) []

def correlate (left right : String) (leftHits rightHits : List Hit) : Option Correlation :=
  match fromKeys (leftHits.map (·.localPortId)), fromKeys (rightHits.map (·.localPortId)) with
  | [leftPortId], [rightPortId] => do
    let leftSeen := portSeenDevices lower normalized ports leftPortId
    let rightSeen := portSeenDevices lower normalized ports rightPortId
    guard ¬(1 < leftSeen.length ∧ 1 < rightSeen.length)
    guard ¬∃ device ∈ leftSeen, device ∈ rightSeen ∧ device ≠ left ∧ device ≠ right
    let leftPort ← ports.get leftPortId
    let rightPort ← ports.get rightPortId
    guard (seesByArp normalized left (addressLabels devices right)
      (correlationMacsOf right) = true)
    guard (seesByArp normalized right (addressLabels devices left)
      (correlationMacsOf left) = true)
    return ⟨left, right, leftPort, rightPort, leftHits, rightHits,
      sortVlanValues (((leftHits ++ rightHits).map (·.vlan)).filter (· ≠ ""))⟩
  | _, _ => none
where
  /-- `correlation_device_mac_sets.get(device, set())`. -/
  correlationMacsOf (deviceId : String) : List String :=
    if deviceId ∈ devices.keys then correlationMacs lower normalized ports deviceId else []

/-- The loop over the pairs of devices; the other direction of a pair that was seen is skipped. -/
def correlatePairs (hits : OrderedDict (String × String) (List Hit)) :
    List (String × String) → List ((String × String) × List Hit) → List Correlation
  | _, [] => []
  | seenPairs, ((left, right), leftHits) :: rest =>
    let pairKey := canonicalPair left right
    if pairKey ∈ seenPairs then correlatePairs hits seenPairs rest
    else
      (correlate lower normalized ports devices left right leftHits
        ((hits.get (right, left)).getD [])).toList ++
        correlatePairs hits (pairKey :: seenPairs) rest

def buildDeviceMacCorrelations : List Correlation :=
  correlatePairs lower normalized ports devices (fdbHits lower normalized ports devices) []
    (fdbHits lower normalized ports devices)

end Hits

end Topology

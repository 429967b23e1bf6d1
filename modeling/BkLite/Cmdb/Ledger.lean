import BkLite.Cmdb.Passes
import BkLite.Cmdb.Subnets

/-!
# The ledger of addresses

The instances of the model `ip` are the ledger of the address management. Two passes write it:
reconciliation with the CIs that hold an address (`ipam_reconcile.py`), and discovery with the
addresses of a subnet that were found alive (`ipam_discovery.py`). Both may write the records that a
pass has created, `auto_collect`, and leave the others alone.

What is left out: the associations of a record, the utilization of the subnets, and the counts that
a pass returns.
-/

namespace Cmdb
namespace Ledger

open Py Subnets

/-- Reading addresses, and the model `ip`: what an update may set, and which writes its checks
refuse. -/
structure Env where
  net : Subnets.Env
  str_str : ∀ s, net.str (.str s) = s.toList
  editable : String → Bool
  editable_status : editable "ip_status" = true
  refused : Store → Write → Bool

structure Ci where
  model : String
  id : ℕ
  ip : String

/-- An `IPAMReconcileSource` that is enabled. -/
structure Source where
  modelId : String
  ipAttrId : String

structure Alive where
  ip : String
  mac : Value := .str ""

variable (env : Env)

/-- `x == text`. -/
def isText (text : String) : Value → Bool
  | .str s => s = text
  | _ => false

/-- `x is True`. -/
def isTrue : Value → Bool
  | .bool b => b
  | _ => false

def isAuto (get : String → Value) : Bool := isTrue (get "auto_collect")

/-- `_load_ci_with_ip`. The text of another value is no address. -/
def loadCiWithIp (instances : String → List Instance) (source : Source) : List Ci :=
  (instances source.modelId).filterMap fun row =>
    match row.get source.ipAttrId with
    | .str ip => if ip = "" then none else some { model := source.modelId, id := row.id, ip }
    | _ => none

def loadCis (sources : List Source) (instances : String → List Instance) : List Ci :=
  sources.flatMap (loadCiWithIp instances)

structure Occupied where
  subnet : Instance
  ip : String
  ips : List (String × ℕ)

/-- `occupants.setdefault(key, ...)["ips"].append(...)`. -/
def addOccupant (occupied : List Occupied) (subnet : Instance) (ci : Ci) : List Occupied :=
  if occupied.any fun o => o.subnet.id = subnet.id ∧ o.ip = ci.ip then
    occupied.map fun o =>
      if o.subnet.id = subnet.id ∧ o.ip = ci.ip then { o with ips := o.ips ++ [(ci.model, ci.id)] }
      else o
  else occupied ++ [{ subnet, ip := ci.ip, ips := [(ci.model, ci.id)] }]

def occupants (subnets : List Instance) (cis : List Ci) : List Occupied :=
  cis.foldl (fun occupied ci =>
    match matchSubnetForIp env.net (.str ci.ip) subnets with
    | none => occupied
    | some subnet => addOccupant occupied subnet ci) []

def decideIpStatus (occupants : List (String × ℕ)) : String :=
  if occupants.dedup.length > 1 then "conflict"
  else if occupants.dedup.length = 1 then "online"
  else "offline"

/-- `(str(i.get("subnet_id")), i.get("ip_addr"))` is the key. -/
def hasKey (subnet ip : String) (get : String → Value) : Bool :=
  env.net.str (get "subnet_id") = subnet.toList && isText ip (get "ip_addr")

def lastWith (p : (String → Value) → Bool) (existing : List Instance) : Option Instance :=
  existing.reverse.find? fun row => p row.get

/-- The id `0` counts as none. -/
def upsert (prev : Option Instance) (payload : Props) : Write :=
  match prev with
  | none => .create payload
  | some row => if row.id = 0 then .create payload else .update row.id payload

def writeFor (prev : Option Instance) (payload : Props) : Option Write :=
  if prev.any fun row => !isAuto row.get then none else some (upsert prev payload)

/-- `_mark_offline` of the automatic records that are not at one of the addresses. -/
def markOffline (here : (String → Value) → Bool) (existing : List Instance) : List Write :=
  existing.filterMap fun row =>
    if isAuto row.get && !here row.get then
      some (.update row.id [("ip_status", .list [.str "offline"])])
    else none

/-- The payload of `_upsert_ip_instance`. -/
def reconcilePayload (time : String) (o : Occupied) : Props :=
  [("ip_addr", .str o.ip), ("inst_name", .str o.ip), ("subnet_id", .str (toString o.subnet.id)),
    ("ip_status", .list [.str (decideIpStatus o.ips)]), ("auto_collect", .bool true),
    ("organization", (o.subnet.get "organization").orElse (.list [])),
    ("collect_time", .str time)]

def recordOf (o : Occupied) (existing : List Instance) : Option Instance :=
  lastWith (hasKey env (toString o.subnet.id) o.ip) existing

def occupies (occupied : List Occupied) (get : String → Value) : Bool :=
  occupied.any fun o => hasKey env (toString o.subnet.id) o.ip get

/-- `run_reconciliation`. -/
def reconcileWrites (cis : List Ci) (subnets : List Instance) (time : String)
    (existing : List Instance) : List Write :=
  (occupants env subnets cis).filterMap (fun o =>
    writeFor (recordOf env o existing) (reconcilePayload time o)) ++
  markOffline (occupies env (occupants env subnets cis)) existing

/-- The organization of the subnet that `_load_subnets_by_ids` finds. -/
def organizationOf (subnets : List Instance) (id : ℤ) : Value :=
  match subnets.find? fun subnet => (subnet.id : ℤ) = id with
  | none => .list []
  | some subnet => subnet.get "organization"

def loadSubnetIps (subnetId : String) (rows : List Instance) : List Instance :=
  rows.filter fun row => isText subnetId (row.get "subnet_id")

/-- The payload of `_upsert_alive_ip`. -/
def alivePayload (subnetId : String) (organization : Value) (time : String) (a : Alive) : Props :=
  [("ip_addr", .str a.ip), ("inst_name", .str a.ip), ("subnet_id", .str subnetId),
    ("ip_status", .list [.str "online"]), ("auto_collect", .bool true), ("mac", a.mac),
    ("organization", organization.orElse (.list [])), ("collect_time", .str time)]

def aliveRecord (subnetId : String) (a : Alive) (rows : List Instance) : Option Instance :=
  lastWith (fun get => isText a.ip (get "ip_addr")) (loadSubnetIps subnetId rows)

/-- `apply_discovery_result`. -/
def discoverWrites (subnetId : String) (alive : List Alive) (organization : Value) (time : String)
    (rows : List Instance) : List Write :=
  alive.filterMap (fun a =>
    writeFor (aliveRecord subnetId a rows) (alivePayload subnetId organization time a)) ++
  markOffline (fun get => alive.any fun a => isText a.ip (get "ip_addr"))
    (loadSubnetIps subnetId rows)

inductive Pass
  | reconcile (sources : List Source) (instances : String → List Instance)
    (subnets : List Instance) (time : String)
  | discover (subnets : List Instance) (subnetId : String) (alive : List Alive) (time : String)

/-- The writes that a pass decides on; it has none if `int(subnet_id)` fails. -/
def Pass.writes (rows : List Instance) : Pass → Except PyError (List Write)
  | .reconcile sources instances subnets time =>
    .ok (reconcileWrites env (loadCis sources instances) subnets time rows)
  | .discover subnets subnetId alive time =>
    (Value.str subnetId).toInt.map fun id =>
      discoverWrites subnetId alive (organizationOf subnets id) time rows

def Pass.outcome (s : Store) (pass : Pass) : Store × Bool :=
  match pass.writes env s.rows with
  | .ok writes => perform env.editable env.refused writes s
  | .error _ => (s, false)

def step (s : Store) (pass : Pass) : Store := (pass.outcome env s).1

/-! ### A right ledger -/

def ipOfText (ip : String) : Option (ℕ × ℕ) := env.net.address (strip (env.net.str (.str ip)))

def ipOf (get : String → Value) : Option (ℕ × ℕ) :=
  env.net.address (strip (env.net.str (get "ip_addr")))

def Double (get other : String → Value) : Prop :=
  isAuto get = true ∧ isAuto other = true ∧
    env.net.str (get "subnet_id") = env.net.str (other "subnet_id") ∧
    ipOf env get ≠ none ∧ ipOf env get = ipOf env other

def statusAt (cis : List Ci) : Option (ℕ × ℕ) → String
  | none => "offline"
  | some ip =>
    decideIpStatus ((cis.filter fun ci => ipOfText env ci.ip = some ip).map fun ci =>
      (ci.model, ci.id))

def Accurate (cis : List Ci) (s : Store) : Prop :=
  ∀ row ∈ s.rows, isAuto row.get = true →
    row.get "ip_status" = .list [.str (statusAt env cis (ipOf env row.get))]

def statuses (s : Store) : List (ℕ × Value) := s.rows.map fun row => (row.id, row.get "ip_status")

/-- Records are accurate, one to an address, and those of others stay. -/
structure Right (s : Store) (pass : Pass) (t : Store) : Prop where
  manual : ∀ row ∈ s.rows, isAuto row.get = false → row ∈ t.rows
  single : t.Pairwise fun get get' => ¬Double env get get'
  reconciled : ∀ sources instances subnets time, pass = .reconcile sources instances subnets time →
    (pass.outcome env s).2 = true →
      Accurate env (loadCis sources instances) t ∧
        ∀ time', statuses (step env t (.reconcile sources instances subnets time')) = statuses t

/-! ### Addresses in one text each -/

def recordAt (subnets rows : List Instance) (ip : String) : Option (Option Instance) :=
  (matchSubnetForIp env.net (.str ip) subnets).map fun subnet =>
    lastWith (hasKey env (toString subnet.id) ip) rows

def Occupies (subnets : List Instance) (ci : Ci) (get : String → Value) : Prop :=
  ∃ subnet, matchSubnetForIp env.net (.str ci.ip) subnets = some subnet ∧
    hasKey env (toString subnet.id) ci.ip get = true

/-- The texts of the addresses tell the truth about the addresses, for a reconciliation. -/
structure PlainCis (cis : List Ci) (subnets : List Instance) (s : Store) : Prop where
  /-- Two CIs at one address that have no record have it in one text. -/
  oneText : ∀ ci ∈ cis, ∀ ci' ∈ cis, recordAt env subnets s.rows ci.ip = some none →
    recordAt env subnets s.rows ci'.ip = some none → ipOfText env ci.ip = ipOfText env ci'.ip →
      ci.ip = ci'.ip
  /-- The subnet of a CI that has no record has no automatic record at its address. -/
  unseen : ∀ ci ∈ cis, ∀ subnet, matchSubnetForIp env.net (.str ci.ip) subnets = some subnet →
    lastWith (hasKey env (toString subnet.id) ci.ip) s.rows = none → ∀ row ∈ s.rows,
      isAuto row.get = true → env.net.str (row.get "subnet_id") = (toString subnet.id).toList →
        ipOf env row.get ≠ ipOfText env ci.ip
  /-- By text there are none, one or several CIs at an address if there are. -/
  counted : ∀ ci ∈ cis, ∀ record, recordAt env subnets s.rows ci.ip = some record →
    record.all (fun row => isAuto row.get) = true →
      decideIpStatus ((cis.filter (·.ip = ci.ip)).map fun ci => (ci.model, ci.id)) =
        statusAt env cis (ipOfText env ci.ip)
  /-- An automatic record that a CI has the text of is the last with this text, or accurate. -/
  shown : ∀ row ∈ s.rows, isAuto row.get = true → ∀ ci ∈ cis, Occupies env subnets ci row.get →
    recordAt env subnets s.rows ci.ip = some (some row) ∨
      row.get "ip_status" = .list [.str (statusAt env cis (ipOf env row.get))]
  /-- No CI is at the address of an automatic record that no CI has the text of. -/
  gone : ∀ row ∈ s.rows, isAuto row.get = true → (∀ ci ∈ cis, ¬Occupies env subnets ci row.get) →
    ∀ ci ∈ cis, ipOfText env ci.ip = none ∨ ipOfText env ci.ip ≠ ipOf env row.get

/-- The same for the addresses that answer. -/
structure PlainAlive (subnetId : String) (alive : List Alive) (s : Store) : Prop where
  /-- No two of them that have no record are for one address. -/
  once : alive.Pairwise fun a b => aliveRecord subnetId a s.rows = none →
    aliveRecord subnetId b s.rows = none →
      ipOfText env a.ip = none ∨ ipOfText env a.ip ≠ ipOfText env b.ip
  /-- The subnet has no automatic record at the address of one that has no record. -/
  unseen : ∀ a ∈ alive, aliveRecord subnetId a s.rows = none → ∀ row ∈ s.rows,
    isAuto row.get = true → env.net.str (row.get "subnet_id") = subnetId.toList →
      ipOfText env a.ip = none ∨ ipOf env row.get ≠ ipOfText env a.ip

/-- Before the pass, texts of addresses tell the truth about them, and no record has the id `0`. -/
def Plain (s : Store) (pass : Pass) : Prop :=
  ((∀ row ∈ s.rows, row.id ≠ 0) ∧ s.nextId ≠ 0) ∧
    match pass with
    | .reconcile sources instances subnets _ =>
      PlainCis env (loadCis sources instances) subnets s
    | .discover _ subnetId alive _ => PlainAlive env subnetId alive s

end Ledger
end Cmdb

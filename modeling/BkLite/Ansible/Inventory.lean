import BkLite.Ansible.TaskStore
import BkLite.Framework.FileTree
import Mathlib.Data.List.DropRight

/-!
# The inventory of a request

What `service/ansible_runner.py` writes for the hosts of a request: a line for each entry of
`host_credentials`, with the connection variables the entry names, and a key file `id_rsa_{idx}` in
the workspace for an entry that carries a key. The text of the inventory is that of
`inventory_content` followed by these lines.

A value under a key of an entry can be any JSON value, `Env.str` is `str(value)`.
-/

namespace Ansible
namespace Inventory

open Py FileTree

abbrev Bytes := List UInt8

def encode (s : String) : Bytes := s.toUTF8.data.toList

def stripped (s : String) : String := String.ofList (strip s.toList)

/-- `s.rstrip("\n")`. -/
def rstripNewlines (s : String) : String := String.ofList (s.toList.rdropWhile (· = '\n'))

/-- `str(d.get(key, ""))`, for a given `str`. -/
def textOf (str : Value → String) (d : Dict) (key : String) : String :=
  ((d.find? (·.1 = key)).map fun e => str e.2).getD ""

def quoteInventoryValue (text : String) : String :=
  let escaped := String.ofList (text.toList.flatMap fun c =>
    if c = '\\' then ['\\', '\\'] else if c = '"' then ['\\', '"'] else [c])
  if text.toList.any isSpace || text.toList.any (· ∈ "#;\"\x27".toList) then
    "\"" ++ escaped ++ "\""
  else escaped

section Lines

variable (str : Value → String)

def getPasswordAuthSshCommonArgs (item : Dict) : String :=
  let explicitArgs := (Value.lookup item "ansible_ssh_common_args").orElse
    (Value.lookup item "ssh_common_args")
  if explicitArgs.truthy then str explicitArgs
  else "-o StrictHostKeyChecking=no -o UserKnownHostsFile=/dev/null"

def variableOf (item : Dict) (key name : String) : List String :=
  let value := Value.lookup item key
  if value.truthy then [name ++ "=" ++ quoteInventoryValue (str value)] else []

/-- `str(connection).strip().lower()`. The words it is compared with are ASCII, and no other letter
has one of theirs as its lower case. -/
def connectionWord (item : Dict) : String :=
  (stripped (str (Value.lookup item "connection"))).toLower

def keyContent (item : Dict) : Option String :=
  let value := Value.lookup item "private_key_content"
  if value.truthy then some (str value) else none

def keyFileName (idx : ℕ) : String := "id_rsa_" ++ toString idx

/-- A line of `_build_host_credentials_inventory`; `workspace` is the text of the directory. -/
def hostLine (workspace : String) (idx : ℕ) (item : Dict) : String :=
  let host := stripped (textOf str item "host")
  let port := Value.lookup item "port"
  let portPart := match port with
    | .null => []
    | _ =>
      if stripped (str port) = "" then [] else ["ansible_port=" ++ quoteInventoryValue (str port)]
  let winrm := if (Value.lookup item "connection").truthy && connectionWord str item = "winrm" then
      variableOf str item "winrm_scheme" "ansible_winrm_scheme" ++
        variableOf str item "winrm_transport" "ansible_winrm_transport" ++
        (match Value.lookup item "winrm_cert_validation" with
        | .bool false => ["ansible_winrm_server_cert_validation=ignore"]
        | _ => [])
    else []
  let sshArgs := if (Value.lookup item "password").truthy && connectionWord str item = "ssh" then
      ["ansible_ssh_common_args=" ++ quoteInventoryValue (getPasswordAuthSshCommonArgs str item)]
    else []
  -- the key that is written takes the place of a `private_key_file` of the entry
  let keyPart := match keyContent str item with
    | some _ => ["ansible_ssh_private_key_file=" ++
        quoteInventoryValue (workspace ++ "/" ++ keyFileName idx)]
    | none => variableOf str item "private_key_file" "ansible_ssh_private_key_file"
  " ".intercalate (host :: variableOf str item "user" "ansible_user" ++ portPart ++
    variableOf str item "connection" "ansible_connection" ++ winrm ++
    variableOf str item "password" "ansible_password" ++ sshArgs ++ keyPart ++
    variableOf str item "private_key_passphrase" "ansible_ssh_passphrase")

def writeKey (t : Folder Bytes) (idx : ℕ) (item : Dict) : Except Fault (Folder Bytes) :=
  match keyContent str item with
  | some key => write t [keyFileName idx] (encode key)
  | none => .ok t

def hostLines (workspace : String) (t : Folder Bytes) (idx : ℕ) :
    List Dict → Except Fault (Folder Bytes × List String)
  | [] => .ok (t, [])
  | item :: items => do
    let t ← writeKey str t idx item
    let (t, lines) ← hostLines workspace t (idx + 1) items
    return (t, hostLine str workspace idx item :: lines)

def buildHostCredentialsInventory (workspace : String) (t : Folder Bytes)
    (hostCredentials : List Dict) : Except Fault (Folder Bytes × String) := do
  let (t, lines) ← hostLines str workspace t 0 hostCredentials
  if lines.isEmpty then return (t, "")
  return (t, "[all]\n" ++ "\n".intercalate lines ++ "\n")

/-- The text of `inventory.ini`, of the request's own content and the lines of its hosts. -/
def inventoryText (inventoryContent : Option String) (hosts : Option String) : String :=
  "\n".intercalate
    (((inventoryContent.filter (· ≠ "")).map rstripNewlines).toList ++
      (hosts.map rstripNewlines).toList |>.filter (· ≠ "")) ++ "\n"

/-! ### What the lines leave -/

def keyFiles : ℕ → List Dict → List (Path × Bytes)
  | _, [] => []
  | idx, item :: items =>
    ((keyContent str item).map fun key => ([keyFileName idx], encode key)).toList ++
      keyFiles (idx + 1) items

def hostsText (workspace : String) (hostCredentials : List Dict) : String :=
  let lines := hostCredentials.mapIdx fun idx item => hostLine str workspace idx item
  if lines.isEmpty then "" else "[all]\n" ++ "\n".intercalate lines ++ "\n"

variable {str} {workspace : String} {t t' : Folder Bytes} {items : List Dict}

theorem hostLines_spec {idx : ℕ} {lines : List String}
    (h : hostLines str workspace t idx items = .ok (t', lines)) :
    Leaves t t' (keyFiles str idx items) ∧
      lines = items.mapIdx fun i item => hostLine str workspace (i + idx) item := by
  induction items generalizing t idx lines with
  | nil =>
    cases h
    exact ⟨.refl, rfl⟩
  | cons item items ih =>
    unfold hostLines at h
    obtain ⟨t₁, h_key, h⟩ := bind_eq_ok.mp h
    obtain ⟨⟨t₂, rest⟩, h_rest, h⟩ := bind_eq_ok.mp h
    cases h
    obtain ⟨h_leaves, h_lines⟩ := ih h_rest
    refine ⟨?_, ?_⟩
    · unfold writeKey at h_key
      cases h_content : keyContent str item with
      | none =>
        rw [h_content] at h_key
        cases h_key
        simpa [keyFiles, h_content] using h_leaves
      | some key =>
        rw [h_content] at h_key
        simpa [keyFiles, h_content] using (write_leaves h_key).trans h_leaves
    · rw [h_lines, List.mapIdx_cons, Nat.zero_add]
      simp only [Nat.add_assoc, Nat.add_comm idx 1]

theorem buildHostCredentialsInventory_spec {text : String}
    (h : buildHostCredentialsInventory str workspace t items = .ok (t', text)) :
    Leaves t t' (keyFiles str 0 items) ∧ text = hostsText str workspace items := by
  unfold buildHostCredentialsInventory at h
  obtain ⟨⟨t₁, lines⟩, h_lines, h⟩ := bind_eq_ok.mp h
  obtain ⟨h_leaves, h_eq⟩ := hostLines_spec h_lines
  have h_same : lines = items.mapIdx fun idx item => hostLine str workspace idx item := h_eq
  unfold hostsText
  rw [← h_same]
  dsimp only at h ⊢
  split at h
  next h_empty =>
    cases h
    exact ⟨h_leaves, by rw [if_pos h_empty]⟩
  next h_some =>
    cases h
    exact ⟨h_leaves, by rw [if_neg h_some]⟩

theorem keyFiles_name {idx : ℕ} {w : Path × Bytes} (h : w ∈ keyFiles str idx items) :
    ∃ i, w.1 = [keyFileName i] := by
  induction items generalizing idx with
  | nil => exact absurd h List.not_mem_nil
  | cons item items ih =>
    obtain h_here | h_later := List.mem_append.mp h
    · obtain ⟨key, -, h_eq⟩ := Option.map_eq_some_iff.mp (Option.mem_toList.mp h_here)
      exact ⟨idx, by rw [← h_eq]⟩
    · exact ih h_later

end Lines

end Inventory
end Ansible

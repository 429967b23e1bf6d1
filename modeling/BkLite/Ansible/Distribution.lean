import BkLite.Ansible.Inventory

/-!
# Files that are distributed by a playbook

`prepare_playbook_execution` (`service/ansible_runner.py`) for a request that distributes files. The
objects of the items are downloaded into the workspace under their names, an object whose path ends
in `.zip` is unpacked there as well, and then the playbook, the key files of the hosts and the
inventory are written beside them. The copy tasks of the playbook name the downloaded files.

The object store, the reader of archives and the printer of YAML are parameters.
-/

namespace Ansible
namespace Distribution

open Py FileTree Inventory

/-! ### What surrounds the function -/

structure Directory where
  text : String
  absolute : text.toList.head? = some '/'

structure Member where
  filename : String
  fileSize : ℕ
  isSymlink : Bool
  contents : Except String Bytes

structure CopyTask where
  name : String
  src : String
  dest : String
  force : Bool
deriving DecidableEq

structure Play where
  hosts : String
  gatherFacts : Bool
  tasks : List CopyTask
deriving DecidableEq

structure Env where
  /-- `str(value)`. -/
  str : Value → String
  str_text : ∀ s, str (.str s) = s
  natsServers : List String
  /-- The size that the object store has noted for an object of a bucket. -/
  getInfo : String → String → Except String (Option ℕ)
  get : String → String → Except String Bytes
  /-- The members of an archive in their order, if it can be read as one. -/
  infolist : Bytes → Option (List Member)
  /-- `yaml.safe_dump`. -/
  safeDump : List Play → String
  /-- `json.dumps`. -/
  dumps : Dict → String
  currentEntrypointCommand : List String
  /-- The new workspace of the task, and the same directory with its links resolved. -/
  workspace : Directory
  base : Directory

inductive Failure
  | value (message : String)
  | fault (f : Fault)
  | store (message : String)
  | badZipFile
  | member (message : String)

/-- A `PlaybookRequest` with a `file_distribution`. -/
structure PlaybookRequest where
  playbookPath : String
  playbookContent : Option String
  inventory : String
  inventoryContent : Option String
  extraVars : Dict
  executeTimeout : ℤ
  taskId : Option String
  callback : Value
  privateKeyContent : Option String
  privateKeyPassphrase : Option String
  hostCredentials : List Dict
  files : List Dict
  fileDistribution : Dict

structure PreparedRequest where
  playbookPath : String
  inventory : String
  extraVars : Dict
  executeTimeout : ℤ
  taskId : Option String
  callback : Value

/-- What `prepare_playbook_execution` returns, with the files of the workspace and the playbook of
which `playbook.yml` is the text. -/
structure Prepared where
  cmd : List String
  workspace : Folder Bytes
  payload : PreparedRequest
  plays : List Play

def playbookArchiveMaxSizeBytes : ℕ := 20 * 1024 * 1024

def playbookArchiveMaxMembers : ℕ := 2000

def playbookArchiveMaxMemberSizeBytes : ℕ := 5 * 1024 * 1024

def playbookArchiveMaxExpandedSizeBytes : ℕ := 50 * 1024 * 1024

/-- `if not condition: raise ValueError(message)`. -/
def require (condition : Bool) (message : String) : Except Failure Unit :=
  if condition then .ok () else .error (.value message)

/-- `bool(text)` of a text that may be missing. -/
def given (text : Option String) : Bool := text.any (· ≠ "")

/-! ### Paths -/

/-- `Path(s).parts`, without the root of an absolute path. -/
def partsOf (s : List Char) : Path :=
  ((s.splitOn '/').filter fun q => q ≠ [] ∧ q ≠ ['.']).map String.ofList

def joined (p : Path) : List Char := p.flatMap fun q => '/' :: q.toList

def Directory.pathText (dir : Directory) (p : Path) : String :=
  String.ofList (dir.text.toList ++ joined p)

def Directory.fileNamed (dir : Directory) (t : Folder Bytes) (path : String) : Option Bytes :=
  if dir.text.toList ++ ['/'] <+: path.toList then
    read t (partsOf (path.toList.drop dir.text.toList.length))
  else none

/-- `_safe_workspace_path`; a workspace has no links that could lead out of it. -/
def safeWorkspacePath (relativePath fieldName : String) : Except Failure Path := do
  let rawPath := strip relativePath.toList
  require (rawPath ≠ []) (fieldName ++ " is required")
  require (rawPath.head? ≠ some '/' && ".." ∉ partsOf rawPath)
    (fieldName ++ " must be a relative path inside workspace")
  return partsOf rawPath

/-! ### Downloads -/

section Downloads

variable (env : Env)

def fileKeyOf (fileItem : Dict) : String := stripped (textOf env.str fileItem "file_key")

def fileNameOf (fileItem : Dict) : String :=
  let name := stripped (textOf env.str fileItem "name")
  if name ≠ "" then name else (partsOf (fileKeyOf env fileItem).toList).getLast?.getD ""

def downloadObjectToWorkspace (t : Folder Bytes) (bucketName : String) (fileItem : Dict) :
    Except Failure (Folder Bytes × Path) := do
  let fileKey := fileKeyOf env fileItem
  let fileName := fileNameOf env fileItem
  require (fileKey ≠ "") "file_key is required"
  require (fileName ≠ "") "file name is required"
  let destination ← safeWorkspacePath fileName "file name"
  require (!env.natsServers.isEmpty) "NATS_SERVERS is required for object store download"
  let size ← (env.getInfo bucketName fileKey).mapError .store
  require (size.getD 0 ≤ playbookArchiveMaxSizeBytes)
    ("object store file too large: " ++ fileKey)
  let t ← (mkdirs t destination.dropLast).mapError .fault
  let data ← (env.get bucketName fileKey).mapError .store
  let t ← (write t destination data).mapError .fault
  return (t, destination)

def Member.isDir (m : Member) : Bool := m.filename.toList.getLast? = some '/'

/-- The checks of `_safe_extract_zip`, with the number of files and their size so far. -/
def checkMembers : ℕ → ℕ → List Member → Except Failure Unit
  | _, _, [] => .ok ()
  | fileCount, totalSize, member :: members => do
    let _ ← safeWorkspacePath member.filename "zip member"
    if member.isDir then checkMembers fileCount totalSize members
    else do
      require (fileCount + 1 ≤ playbookArchiveMaxMembers) "zip archive has too many files"
      require (member.fileSize ≤ playbookArchiveMaxMemberSizeBytes)
        ("zip member exceeds size limit: " ++ member.filename)
      require (totalSize + member.fileSize ≤ playbookArchiveMaxExpandedSizeBytes)
        "zip archive expanded size exceeds limit"
      require (!member.isSymlink) ("zip member must not be symlink: " ++ member.filename)
      checkMembers (fileCount + 1) (totalSize + member.fileSize) members

/-- Where `ZipFile.extract` puts a member. -/
def Member.path (m : Member) : Path := (partsOf m.filename.toList).filter (· ≠ "..")

/-- `getinfo`: of several members of one name the last one. -/
def getinfo (members : List Member) (m : Member) : Member :=
  (members.reverse.find? (·.filename = m.filename)).getD m

/-- `ZipFile.extract` of a member. -/
def extract (t : Folder Bytes) (m : Member) : Except Failure (Folder Bytes) :=
  if m.isDir then (mkdirs t m.path).mapError .fault
  else do
    let t ← (mkdirs t m.path.dropLast).mapError .fault
    let data ← m.contents.mapError .member
    (write t m.path data).mapError .fault

def extractall (members : List Member) (t : Folder Bytes) : Except Failure (Folder Bytes) :=
  (members.map (getinfo members)).foldlM extract t

def safeExtractZip (members : List Member) (t : Folder Bytes) : Except Failure (Folder Bytes) := do
  checkMembers 0 0 members
  extractall members t

/-- `local_path.endswith(".zip")`. -/
def isArchive (p : Path) : Bool := ".zip".toList.isSuffixOf (joined p)

def unpack (t : Folder Bytes) (p : Path) : Except Failure (Folder Bytes) :=
  if isArchive p then
    match (read t p).bind env.infolist with
    | none => .error .badZipFile
    | some members => safeExtractZip members t
  else .ok t

/-- `{**file_item, "local_path": local_path}`. -/
def withLocalPath (p : Path) (fileItem : Dict) : Dict :=
  setItem fileItem "local_path" (.str (env.base.pathText p))

def downloadFiles (bucketName : String) (t : Folder Bytes) :
    List Dict → Except Failure (Folder Bytes × List Dict)
  | [] => .ok (t, [])
  | fileItem :: files => do
    let (t, localPath) ← downloadObjectToWorkspace env t bucketName fileItem
    let t ← unpack env t localPath
    let (t, downloadedFiles) ← downloadFiles bucketName t files
    return (t, withLocalPath env localPath fileItem :: downloadedFiles)

end Downloads

/-! ### The playbook -/

def normalizeWindowsTargetPath (targetPath : String) : String :=
  String.ofList ((targetPath.toList.map fun c => if c = '\\' then '/' else c).rdropWhile (· = '/'))

def joinWindowsTargetPath (targetPath fileName : String) : String :=
  normalizeWindowsTargetPath targetPath ++ "/" ++ fileName

section Playbook

variable (env : Env)

def copyTask (targetPath : String) (overwrite : Bool) (fileItem : Dict) :
    Except Failure CopyTask := do
  let fileName := stripped (textOf env.str fileItem "name")
  let localPath := stripped (textOf env.str fileItem "local_path")
  require (fileName ≠ "" && localPath ≠ "") "downloaded file item requires name and local_path"
  return { name := "Copy " ++ fileName ++ " to Windows host", src := localPath,
           dest := joinWindowsTargetPath targetPath fileName, force := overwrite }

/-- `_build_windows_file_distribution_playbook`, before it is printed. -/
def buildWindowsFileDistributionPlaybook (downloadedFiles : List Dict) (targetPath : String)
    (overwrite : Bool) : Except Failure (List Play) := do
  let tasks ← downloadedFiles.mapM
    (copyTask env (normalizeWindowsTargetPath targetPath) overwrite)
  return [{ hosts := "all", gatherFacts := false, tasks := tasks }]

/-- `extra_vars.setdefault(key, text)`. -/
def setdefault (d : Dict) (key text : String) : Dict :=
  if d.any (·.1 = key) then d else d ++ [(key, .str text)]

def materializePrivateKey (t : Folder Bytes) (req : PlaybookRequest) :
    Except Failure (Folder Bytes × Dict) :=
  match req.privateKeyContent.filter (fun key => key ≠ "" ∧ req.hostCredentials = []) with
  | none => .ok (t, req.extraVars)
  | some key => do
    let t ← (write t ["id_rsa"] (encode key)).mapError .fault
    let extraVars := setdefault req.extraVars "ansible_ssh_private_key_file"
      (env.workspace.pathText ["id_rsa"])
    return (t, if given req.privateKeyPassphrase then
        setdefault extraVars "ansible_ssh_passphrase" (req.privateKeyPassphrase.getD "")
      else extraVars)

/-- The inventory is written if the request has one, and its path is what Ansible is given. -/
def materializeInventory (t : Folder Bytes) (req : PlaybookRequest) :
    Except Failure (Folder Bytes × String) :=
  if given req.inventoryContent || !req.hostCredentials.isEmpty then do
    let (t, hosts) ← (if req.hostCredentials.isEmpty then .ok (t, none)
      else (buildHostCredentialsInventory env.str env.workspace.text t req.hostCredentials).map
        fun r => (r.1, some r.2)).mapError .fault
    let t ← (write t ["inventory.ini"]
      (encode (inventoryText req.inventoryContent hosts))).mapError .fault
    return (t, env.workspace.pathText ["inventory.ini"])
  else .ok (t, req.inventory)

def buildPlaybookCommand (payload : PreparedRequest) : List String :=
  env.currentEntrypointCommand ++ ["--internal-ansible-cli", "playbook", "--"] ++
    [payload.playbookPath, "-i", payload.inventory, "-vvv"] ++
    if payload.extraVars.isEmpty then [] else ["--extra-vars", env.dumps payload.extraVars]

def bucketNameOf (req : PlaybookRequest) : String :=
  stripped (textOf env.str req.fileDistribution "bucket_name")

def targetPathOf (req : PlaybookRequest) : String :=
  stripped (textOf env.str req.fileDistribution "target_path")

/-- `bool(file_distribution.get("overwrite", True))`. -/
def overwriteOf (req : PlaybookRequest) : Bool :=
  ((req.fileDistribution.find? (·.1 = "overwrite")).map (·.2.truthy)).getD true

/-- `prepare_playbook_execution` of a request that distributes files. -/
def preparePlaybookExecution (req : PlaybookRequest) : Except Failure Prepared := do
  let (t, extraVars) ← materializePrivateKey env empty req
  require (bucketNameOf env req ≠ "") "file_distribution.bucket_name is required"
  require (targetPathOf env req ≠ "") "file_distribution.target_path is required"
  let (t, downloadedFiles) ← downloadFiles env (bucketNameOf env req) t req.files
  let plays ← buildWindowsFileDistributionPlaybook env downloadedFiles (targetPathOf env req)
    (overwriteOf req)
  let t ← (write t ["playbook.yml"] (encode (env.safeDump plays))).mapError .fault
  let (t, inventoryValue) ← materializeInventory env t req
  let payload : PreparedRequest :=
    { playbookPath := env.workspace.pathText ["playbook.yml"], inventory := inventoryValue,
      extraVars := extraVars, executeTimeout := req.executeTimeout, taskId := req.taskId,
      callback := req.callback }
  return { cmd := buildPlaybookCommand env payload, workspace := t, payload := payload,
           plays := plays }

end Playbook

end Distribution
end Ansible

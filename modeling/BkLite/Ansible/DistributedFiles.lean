import BkLite.Ansible.Distribution

/-!
# Whether distributed files arrive intact

What `prepare_playbook_execution` leaves in the workspace of a request that distributes files, as
the list of its writes (`requestWrites`), and what the copy tasks then find (`Intact`).
-/

namespace Ansible
namespace Distribution

open Py FileTree Inventory

section Statement

variable (env : Env) (req : PlaybookRequest)

/-! ### The writes of a request -/

def pathOf (fileItem : Dict) : Path := partsOf (strip (fileNameOf env fileItem).toList)

def placeOf (fileItem : Dict) : Path :=
  partsOf ((joined (pathOf env fileItem)).rdropWhile isSpace)

def objectOf (fileItem : Dict) : Option Bytes :=
  (env.get (bucketNameOf env req) (fileKeyOf env fileItem)).toOption

def memberWrites (m : Member) : List (Path × Bytes) :=
  if m.isDir then [] else (m.contents.toOption.map fun b => (m.path, b)).toList

def archiveWrites (p : Path) (b : Bytes) : List (Path × Bytes) :=
  if isArchive p then
    let members := (env.infolist b).getD []
    (members.map (getinfo members)).flatMap memberWrites
  else []

def itemWrites (fileItem : Dict) : List (Path × Bytes) :=
  match objectOf env req fileItem with
  | none => []
  | some b => (pathOf env fileItem, b) :: archiveWrites env (pathOf env fileItem) b

def taskOf (fileItem : Dict) : CopyTask :=
  let fileName := stripped (textOf env.str fileItem "name")
  { name := "Copy " ++ fileName ++ " to Windows host",
    src := stripped (env.base.pathText (pathOf env fileItem)),
    dest := joinWindowsTargetPath (normalizeWindowsTargetPath (targetPathOf env req)) fileName,
    force := overwriteOf req }

def playsOf : List Play :=
  [{ hosts := "all", gatherFacts := false, tasks := req.files.map (taskOf env req) }]

def hasInventory : Bool := given req.inventoryContent || !req.hostCredentials.isEmpty

def inventoryOf : String :=
  inventoryText req.inventoryContent
    (if req.hostCredentials.isEmpty then none
      else some (hostsText env.str env.workspace.text req.hostCredentials))

def ownKey : Option String :=
  req.privateKeyContent.filter fun key => key ≠ "" ∧ req.hostCredentials = []

def generatedWrites : List (Path × Bytes) :=
  (["playbook.yml"], encode (env.safeDump (playsOf env req))) ::
    if hasInventory req then
      keyFiles env.str 0 req.hostCredentials ++
        [(["inventory.ini"], encode (inventoryOf env req))]
    else []

def requestWrites : List (Path × Bytes) :=
  ((ownKey req).map fun key => (["id_rsa"], encode key)).toList ++
    (req.files.flatMap (itemWrites env req) ++ generatedWrites env req)

/-! ### What is promised -/

/-- The texts of an entry of `host_credentials` that are secret. -/
def hostSecrets (item : Dict) : List String :=
  ["password", "private_key_content", "private_key_passphrase"].filterMap fun key =>
    let value := Value.lookup item key
    if value.truthy then some (env.str value) else none

def credentials : List String :=
  [req.privateKeyContent, req.privateKeyPassphrase].filterMap (fun text => text.filter (· ≠ "")) ++
    req.hostCredentials.flatMap (hostSecrets env)

def FreeOfCredentials (b : Bytes) : Prop := ∀ c ∈ credentials env req, ¬ encode c <:+: b

/-- The files of the workspace are those that the request means. -/
structure Intact (out : Prepared) : Prop where
  copied : ∃ play, out.plays = [play] ∧ List.Forall₂ (fun fileItem task =>
    ∃ b, objectOf env req fileItem = some b ∧
      env.base.fileNamed out.workspace task.src = some b) req.files play.tasks
  playbook : env.workspace.fileNamed out.workspace out.payload.playbookPath =
    some (encode (env.safeDump out.plays))
  inventory : hasInventory req = true →
    env.workspace.fileNamed out.workspace out.payload.inventory =
      some (encode (inventoryOf env req))
  free : ∀ play ∈ out.plays, ∀ task ∈ play.tasks, ∀ b,
    env.base.fileNamed out.workspace task.src = some b → FreeOfCredentials env req b

/-- The last write to the path that a task names is one of the item's own bytes, and these hold no
credential. -/
def Settled : Prop :=
  ∀ fileItem ∈ req.files, ∀ b, objectOf env req fileItem = some b →
    lastAt (requestWrites env req) (placeOf env fileItem) = some b ∧ FreeOfCredentials env req b

end Statement

/-! ### Paths and their texts -/

section Paths

variable {dir : Directory} {t : Folder Bytes} {p : Path} {s : List Char}

theorem rdropWhile_append_cons {α : Type*} (f : α → Bool) (xs ys : List α) {c : α}
    (h : ¬f c = true) : (xs ++ c :: ys).rdropWhile f = xs ++ (c :: ys).rdropWhile f := by
  induction ys using List.reverseRecOn with
  | nil =>
    rw [List.rdropWhile_concat_neg _ _ _ h]
    simp [List.rdropWhile_singleton, h]
  | append_singleton ys y ih =>
    rw [show xs ++ c :: (ys ++ [y]) = (xs ++ c :: ys) ++ [y] by simp,
      show c :: (ys ++ [y]) = (c :: ys) ++ [y] by simp, List.rdropWhile_concat,
      List.rdropWhile_concat, ih]
    split_ifs
    · rfl
    · simp

theorem strip_of_absolute (h : s.head? = some '/') : strip s = s.rdropWhile isSpace := by
  cases s with
  | nil => cases h
  | cons c s =>
    have h_head : c = '/' := Option.some.inj h
    rw [h_head]
    rfl

theorem joined_ne_nil (h : p ≠ []) : ∃ rest, joined p = '/' :: rest := by
  cases p with
  | nil => exact absurd rfl h
  | cons q p => exact ⟨_, rfl⟩

theorem fileNamed_stripped (h : p ≠ []) :
    dir.fileNamed t (stripped (dir.pathText p)) =
      read t (partsOf ((joined p).rdropWhile isSpace)) := by
  obtain ⟨rest, h_rest⟩ := joined_ne_nil h
  have h_text : (stripped (dir.pathText p)).toList =
      dir.text.toList ++ (joined p).rdropWhile isSpace := by
    have h_head : (dir.text.toList ++ joined p).head? = some '/' := by
      rw [List.head?_append, dir.absolute]
      rfl
    show (String.ofList (strip (String.ofList (dir.text.toList ++ joined p)).toList)).toList = _
    rw [String.toList_ofList, String.toList_ofList, strip_of_absolute h_head, h_rest,
      rdropWhile_append_cons _ _ _ (by decide)]
  have h_slash : ∃ rest', (joined p).rdropWhile isSpace = '/' :: rest' := by
    rw [h_rest]
    have h_keep := rdropWhile_append_cons isSpace [] rest (c := '/') (by decide)
    cases h_cut : ('/' :: rest).rdropWhile isSpace with
    | nil =>
      have h_all := List.rdropWhile_eq_nil_iff.mp h_cut '/' List.mem_cons_self
      exact absurd h_all (by decide)
    | cons c cs =>
      have h_start := List.rdropWhile_prefix isSpace (l := '/' :: rest)
      rw [h_cut, List.cons_prefix_cons] at h_start
      exact ⟨cs, by rw [h_start.1]⟩
  obtain ⟨rest', h_rest'⟩ := h_slash
  unfold Directory.fileNamed
  rw [h_text, if_pos, List.drop_left]
  rw [h_rest']
  exact ⟨rest', by simp⟩

theorem partsOf_cons_slash : partsOf ('/' :: s) = partsOf s := by
  unfold partsOf
  rw [List.splitOn_cons_eq_if_modifyHead]
  simp

def Proper (q : String) : Prop := q.toList ≠ [] ∧ q.toList ≠ ['.'] ∧ '/' ∉ q.toList

theorem partsOf_joined (h : ∀ q ∈ p, Proper q) : partsOf (joined p) = p := by
  induction p with
  | nil => rfl
  | cons q p ih =>
    obtain ⟨h_some, h_dot, h_slash⟩ := h q List.mem_cons_self
    have h_rest := ih fun r h_mem => h r (List.mem_cons_of_mem q h_mem)
    have h_one : ([q.toList].filter fun q => q ≠ [] ∧ q ≠ ['.']).map String.ofList = [q] := by
      simp [h_some, h_dot]
    show partsOf ('/' :: (q.toList ++ joined p)) = q :: p
    rw [partsOf_cons_slash]
    cases p with
    | nil =>
      show partsOf (q.toList ++ []) = [q]
      unfold partsOf
      rw [List.append_nil, List.splitOn_eq_singleton h_slash, h_one]
    | cons r p =>
      have h_join : joined (r :: p) = '/' :: (r.toList ++ joined p) := rfl
      rw [h_join, partsOf_cons_slash] at h_rest
      rw [h_join]
      unfold partsOf at h_rest ⊢
      rw [List.splitOn_append_cons_self, List.splitOn_eq_singleton h_slash, List.filter_append,
        List.map_append, h_rest, h_one]
      rfl

theorem fileNamed_pathText (h : p ≠ []) (h_proper : ∀ q ∈ p, Proper q) :
    dir.fileNamed t (dir.pathText p) = read t p := by
  obtain ⟨rest, h_rest⟩ := joined_ne_nil h
  unfold Directory.fileNamed Directory.pathText
  rw [String.toList_ofList, if_pos, List.drop_left, partsOf_joined h_proper]
  rw [h_rest]
  exact ⟨rest, by simp⟩

end Paths

/-! ### What the steps leave -/

section Steps

variable {env : Env} {req : PlaybookRequest} {t t' : Folder Bytes}

theorem mapError_eq_ok {α ε ε' : Type} {f : ε → ε'} {x : Except ε α} {a : α} :
    x.mapError f = .ok a ↔ x = .ok a := by
  cases x with
  | error e =>
    refine ⟨fun h => ?_, fun h => ?_⟩
    · cases h
    · cases h
  | ok b =>
    refine ⟨fun h => ?_, fun h => ?_⟩
    · cases h
      rfl
    · cases h
      rfl

theorem safeWorkspacePath_spec {relativePath fieldName : String} {p : Path}
    (h : safeWorkspacePath relativePath fieldName = .ok p) :
    p = partsOf (strip relativePath.toList) := by
  unfold safeWorkspacePath at h
  obtain ⟨-, -, h⟩ := bind_eq_ok.mp h
  obtain ⟨-, -, h⟩ := bind_eq_ok.mp h
  exact (Except.ok.inj h).symm

theorem download_spec {bucketName : String} {fileItem : Dict} {p : Path}
    (h : downloadObjectToWorkspace env t bucketName fileItem = .ok (t', p)) :
    p = pathOf env fileItem ∧ p ≠ [] ∧
      ∃ b, env.get bucketName (fileKeyOf env fileItem) = .ok b ∧ Leaves t t' [(p, b)] := by
  unfold downloadObjectToWorkspace at h
  obtain ⟨-, -, h⟩ := bind_eq_ok.mp h
  obtain ⟨-, -, h⟩ := bind_eq_ok.mp h
  obtain ⟨destination, h_path, h⟩ := bind_eq_ok.mp h
  obtain ⟨-, -, h⟩ := bind_eq_ok.mp h
  obtain ⟨size, -, h⟩ := bind_eq_ok.mp h
  obtain ⟨-, -, h⟩ := bind_eq_ok.mp h
  obtain ⟨t₁, h_dirs, h⟩ := bind_eq_ok.mp h
  obtain ⟨b, h_get, h⟩ := bind_eq_ok.mp h
  obtain ⟨t₂, h_write, h⟩ := bind_eq_ok.mp h
  cases h
  have h_leaves := (mkdirs_leaves (mapError_eq_ok.mp h_dirs)).trans
    (write_leaves (mapError_eq_ok.mp h_write))
  exact ⟨safeWorkspacePath_spec h_path, ne_nil_of_write (mapError_eq_ok.mp h_write), b,
    mapError_eq_ok.mp h_get, h_leaves⟩

theorem extract_leaves {m : Member} (h : extract t m = .ok t') : Leaves t t' (memberWrites m) := by
  unfold extract at h
  unfold memberWrites
  split_ifs at h ⊢ with h_dir
  · exact mkdirs_leaves (mapError_eq_ok.mp h)
  · obtain ⟨t₁, h_dirs, h⟩ := bind_eq_ok.mp h
    obtain ⟨b, h_contents, h_write⟩ := bind_eq_ok.mp h
    rw [mapError_eq_ok.mp h_contents]
    exact (mkdirs_leaves (mapError_eq_ok.mp h_dirs)).trans
      (write_leaves (mapError_eq_ok.mp h_write))

theorem extract_all_leaves {ms : List Member} (h : ms.foldlM extract t = .ok t') :
    Leaves t t' (ms.flatMap memberWrites) := by
  induction ms generalizing t with
  | nil =>
    cases h
    exact .refl
  | cons m ms ih =>
    rw [List.foldlM_cons] at h
    obtain ⟨t₁, h_one, h⟩ := bind_eq_ok.mp h
    rw [List.flatMap_cons]
    exact (extract_leaves h_one).trans (ih h)

theorem unpack_leaves {p : Path} {b : Bytes} (h_read : read t p = some b)
    (h : unpack env t p = .ok t') : Leaves t t' (archiveWrites env p b) := by
  unfold unpack at h
  unfold archiveWrites
  split_ifs at h ⊢ with h_zip
  · rw [h_read, Option.bind_some] at h
    cases h_members : env.infolist b with
    | none =>
      rw [h_members] at h
      cases h
    | some members =>
      rw [h_members] at h
      obtain ⟨-, -, h_all⟩ := bind_eq_ok.mp h
      exact extract_all_leaves h_all
  · cases h
    exact .refl

theorem itemWrites_of_object {fileItem : Dict} {b : Bytes}
    (h : objectOf env req fileItem = some b) :
    itemWrites env req fileItem =
      [(pathOf env fileItem, b)] ++ archiveWrites env (pathOf env fileItem) b := by
  unfold itemWrites
  simp only [h, List.cons_append, List.nil_append]

theorem downloadFiles_spec {files downloadedFiles : List Dict}
    (h : downloadFiles env (bucketNameOf env req) t files = .ok (t', downloadedFiles)) :
    Leaves t t' (files.flatMap (itemWrites env req)) ∧
      downloadedFiles = files.map (fun item => withLocalPath env (pathOf env item) item) ∧
      ∀ item ∈ files, pathOf env item ≠ [] ∧ ∃ b, objectOf env req item = some b := by
  induction files generalizing t downloadedFiles with
  | nil =>
    cases h
    exact ⟨.refl, rfl, fun item h_mem => absurd h_mem List.not_mem_nil⟩
  | cons item files ih =>
    unfold downloadFiles at h
    obtain ⟨⟨t₁, p⟩, h_down, h⟩ := bind_eq_ok.mp h
    obtain ⟨t₂, h_unpack, h⟩ := bind_eq_ok.mp h
    obtain ⟨⟨t₃, rest⟩, h_rest, h⟩ := bind_eq_ok.mp h
    cases h
    obtain ⟨h_path, h_ne, b, h_get, h_leaves⟩ := download_spec h_down
    rw [h_path] at h_unpack h_ne h_leaves
    obtain ⟨h_later, h_list, h_items⟩ := ih h_rest
    have h_object : objectOf env req item = some b := by
      unfold objectOf
      rw [h_get]
      rfl
    have h_read : read t₁ (pathOf env item) = some b := by
      rw [h_leaves, lastAt_cons]
      simp
    refine ⟨?_, ?_, ?_⟩
    · rw [List.flatMap_cons, itemWrites_of_object h_object]
      exact (h_leaves.trans (unpack_leaves h_read h_unpack)).trans h_later
    · rw [List.map_cons, h_list, h_path]
    · intro item' h_mem
      obtain rfl | h_in := List.mem_cons.mp h_mem
      · exact ⟨h_ne, b, h_object⟩
      · exact h_items item' h_in

/-! ### The playbook, the key and the inventory -/

theorem textOf_setItem_self {d : Dict} {key : String} {v : Value} {str : Value → String} :
    textOf str (setItem d key v) key = str v := by
  unfold textOf setItem
  split_ifs with h_mem
  · induction d with
    | nil => exact absurd h_mem List.not_mem_nil
    | cons e d ih =>
      by_cases h_key : e.1 = key
      · simp [h_key]
      · have h_later : key ∈ d.map (·.1) := by
          rw [List.map_cons, List.mem_cons] at h_mem
          exact h_mem.resolve_left fun h_eq => h_key h_eq.symm
        rw [List.map_cons, if_neg h_key, List.find?_cons_of_neg (by simpa using h_key)]
        exact ih h_later
  · have h_none : d.find? (·.1 = key) = none := by
      refine List.find?_eq_none.mpr fun e h_in h_key => h_mem ?_
      exact List.mem_map.mpr ⟨e, h_in, of_decide_eq_true h_key⟩
    simp [List.find?_append, h_none]

theorem textOf_setItem_ne {d : Dict} {key key' : String} {v : Value} {str : Value → String}
    (h : key' ≠ key) : textOf str (setItem d key v) key' = textOf str d key' := by
  unfold textOf setItem
  split_ifs with h_mem
  · congr 2
    clear h_mem
    induction d with
    | nil => rfl
    | cons e d ih =>
      rw [List.map_cons, List.find?_cons, List.find?_cons]
      by_cases h_key : e.1 = key
      · rw [if_pos h_key]
        simp only [h_key, h.symm, decide_false, ih]
      · rw [if_neg h_key]
        cases decide (e.1 = key')
        · exact ih
        · rfl
  · rw [List.find?_append]
    simp [h.symm]

theorem copyTask_spec {item : Dict} {task : CopyTask}
    (h : copyTask env (normalizeWindowsTargetPath (targetPathOf env req)) (overwriteOf req)
      (withLocalPath env (pathOf env item) item) = .ok task) : task = taskOf env req item := by
  unfold copyTask at h
  obtain ⟨-, -, h⟩ := bind_eq_ok.mp h
  cases h
  unfold withLocalPath taskOf
  rw [textOf_setItem_self, textOf_setItem_ne (by decide), env.str_text]

theorem copyTasks_spec {files : List Dict} {tasks : List CopyTask}
    (h : (files.map fun item => withLocalPath env (pathOf env item) item).mapM
      (copyTask env (normalizeWindowsTargetPath (targetPathOf env req)) (overwriteOf req)) =
        .ok tasks) : tasks = files.map (taskOf env req) := by
  induction files generalizing tasks with
  | nil =>
    cases h
    rfl
  | cons item files ih =>
    rw [List.map_cons, List.mapM_cons] at h
    obtain ⟨task, h_task, h⟩ := bind_eq_ok.mp h
    obtain ⟨rest, h_rest, h⟩ := bind_eq_ok.mp h
    cases h
    rw [List.map_cons, ← ih h_rest, copyTask_spec h_task]

theorem build_spec {plays : List Play}
    (h : buildWindowsFileDistributionPlaybook env
      (req.files.map fun item => withLocalPath env (pathOf env item) item) (targetPathOf env req)
      (overwriteOf req) = .ok plays) : plays = playsOf env req := by
  unfold buildWindowsFileDistributionPlaybook at h
  obtain ⟨tasks, h_tasks, h⟩ := bind_eq_ok.mp h
  cases h
  rw [copyTasks_spec h_tasks]
  rfl

theorem materializePrivateKey_spec {extraVars : Dict}
    (h : materializePrivateKey env t req = .ok (t', extraVars)) :
    Leaves t t' ((ownKey req).map fun key => (["id_rsa"], encode key)).toList := by
  unfold materializePrivateKey at h
  unfold ownKey
  cases h_key : req.privateKeyContent.filter fun key => key ≠ "" ∧ req.hostCredentials = [] with
  | none =>
    rw [h_key] at h
    cases h
    exact .refl
  | some key =>
    rw [h_key] at h
    obtain ⟨t₁, h_write, h⟩ := bind_eq_ok.mp h
    cases h
    exact write_leaves (mapError_eq_ok.mp h_write)

theorem materializeInventory_spec {inventoryValue : String}
    (h : materializeInventory env t req = .ok (t', inventoryValue)) :
    Leaves t t' (if hasInventory req then
      keyFiles env.str 0 req.hostCredentials ++ [(["inventory.ini"], encode (inventoryOf env req))]
      else []) ∧
    (hasInventory req = true → inventoryValue = env.workspace.pathText ["inventory.ini"]) := by
  unfold materializeInventory at h
  change (if hasInventory req = true then _ else _) = _ at h
  split_ifs at h ⊢ with h_has h_none
  · obtain ⟨⟨t₁, hosts⟩, h_hosts, h⟩ := bind_eq_ok.mp h
    obtain ⟨t₂, h_write, h⟩ := bind_eq_ok.mp h
    cases h
    have h_empty : req.hostCredentials = [] := List.isEmpty_iff.mp h_none
    cases mapError_eq_ok.mp h_hosts
    have h_leaves := write_leaves (mapError_eq_ok.mp h_write)
    refine ⟨?_, fun _ => rfl⟩
    unfold inventoryOf
    rw [if_pos h_none, h_empty]
    exact h_leaves
  · obtain ⟨⟨t₁, hosts⟩, h_hosts, h⟩ := bind_eq_ok.mp h
    obtain ⟨t₂, h_write, h⟩ := bind_eq_ok.mp h
    cases h
    cases h_built : buildHostCredentialsInventory env.str env.workspace.text t
        req.hostCredentials with
    | error e =>
      rw [h_built] at h_hosts
      cases h_hosts
    | ok r =>
      rw [h_built] at h_hosts
      cases h_hosts
      obtain ⟨h_keys, h_text⟩ := buildHostCredentialsInventory_spec h_built
      have h_leaves := h_keys.trans (write_leaves (mapError_eq_ok.mp h_write))
      refine ⟨?_, fun _ => rfl⟩
      unfold inventoryOf
      rw [if_neg h_none, ← h_text]
      exact h_leaves
  · cases h
    exact ⟨.refl, fun h_true => absurd h_true h_has⟩

/-! ### The run -/

theorem prepare_spec {out : Prepared} (h : preparePlaybookExecution env req = .ok out) :
    Leaves empty out.workspace (requestWrites env req) ∧ out.plays = playsOf env req ∧
      (∀ item ∈ req.files, pathOf env item ≠ [] ∧ ∃ b, objectOf env req item = some b) ∧
      out.payload.playbookPath = env.workspace.pathText ["playbook.yml"] ∧
      (hasInventory req = true →
        out.payload.inventory = env.workspace.pathText ["inventory.ini"]) := by
  unfold preparePlaybookExecution at h
  obtain ⟨⟨t₁, extraVars⟩, h_key, h⟩ := bind_eq_ok.mp h
  obtain ⟨-, -, h⟩ := bind_eq_ok.mp h
  obtain ⟨-, -, h⟩ := bind_eq_ok.mp h
  obtain ⟨⟨t₂, downloadedFiles⟩, h_files, h⟩ := bind_eq_ok.mp h
  obtain ⟨plays, h_plays, h⟩ := bind_eq_ok.mp h
  obtain ⟨t₃, h_write, h⟩ := bind_eq_ok.mp h
  obtain ⟨⟨t₄, inventoryValue⟩, h_inventory, h⟩ := bind_eq_ok.mp h
  cases h
  obtain ⟨h_items, h_downloaded, h_some⟩ := downloadFiles_spec h_files
  have h_play : plays = playsOf env req := build_spec (h_downloaded ▸ h_plays)
  obtain ⟨h_rest, h_value⟩ := materializeInventory_spec h_inventory
  have h_generated := (write_leaves (mapError_eq_ok.mp h_write)).trans h_rest
  rw [h_play] at h_generated
  exact ⟨(materializePrivateKey_spec h_key).trans (h_items.trans h_generated), h_play, h_some, rfl,
    h_value⟩

theorem read_of_prepare {out : Prepared} (h : preparePlaybookExecution env req = .ok out)
    (p : Path) : read out.workspace p = lastAt (requestWrites env req) p := by
  rw [(prepare_spec h).1, read_empty, Option.or_none]

theorem fileNamed_task {out : Prepared} (h : preparePlaybookExecution env req = .ok out)
    {item : Dict} (h_mem : item ∈ req.files) :
    env.base.fileNamed out.workspace (taskOf env req item).src =
      lastAt (requestWrites env req) (placeOf env item) := by
  obtain ⟨-, -, h_some, -, -⟩ := prepare_spec h
  rw [← read_of_prepare h]
  exact fileNamed_stripped (h_some item h_mem).1

theorem lastAt_generated {p : Path} {b : Bytes}
    (h : lastAt (generatedWrites env req) p = some b) :
    lastAt (requestWrites env req) p = some b := by
  unfold requestWrites
  rw [lastAt_append, lastAt_append, h]
  rfl

theorem keyFileName_ne (i : ℕ) :
    keyFileName i ≠ "playbook.yml" ∧ keyFileName i ≠ "inventory.ini" := by
  refine ⟨fun h => ?_, fun h => ?_⟩
  all_goals
    have h_chars := congrArg String.toList h
    unfold keyFileName at h_chars
    rw [String.toList_append] at h_chars
    revert h_chars
    simp

theorem lastAt_playbook : lastAt (requestWrites env req) ["playbook.yml"] =
    some (encode (env.safeDump (playsOf env req))) := by
  refine lastAt_generated (lastAt_eq_some List.mem_cons_self fun w h_mem h_at => ?_)
  unfold generatedWrites at h_mem
  obtain rfl | h_mem := List.mem_cons.mp h_mem
  · rfl
  · split_ifs at h_mem
    · obtain h_key | h_ini := List.mem_append.mp h_mem
      · obtain ⟨i, h_name⟩ := keyFiles_name h_key
        rw [h_name, List.cons.injEq] at h_at
        exact absurd h_at.1 (keyFileName_ne i).1
      · rw [List.mem_singleton.mp h_ini, List.cons.injEq] at h_at
        exact absurd h_at.1 (by decide)
    · exact absurd h_mem List.not_mem_nil

theorem lastAt_inventory (h : hasInventory req = true) :
    lastAt (requestWrites env req) ["inventory.ini"] =
      some (encode (inventoryOf env req)) := by
  refine lastAt_generated ?_
  unfold generatedWrites
  rw [if_pos h, ← List.cons_append, lastAt_append, lastAt_cons, lastAt_nil, if_pos rfl]
  rfl

/-! ### Files that arrive intact -/

theorem kept_of_intact {out : Prepared} (h : preparePlaybookExecution env req = .ok out)
    (h_intact : Intact env req out) {item : Dict} (h_mem : item ∈ req.files) {b : Bytes}
    (h_object : objectOf env req item = some b) :
    lastAt (requestWrites env req) (placeOf env item) = some b := by
  obtain ⟨play, h_play, h_copied⟩ := h_intact.copied
  rw [(prepare_spec h).2.1] at h_play
  have h_tasks : play.tasks = req.files.map (taskOf env req) := by
    rw [← (List.cons.inj h_play).1]
  rw [h_tasks, List.forall₂_map_right_iff, List.forall₂_same] at h_copied
  obtain ⟨b', h_object', h_found⟩ := h_copied item h_mem
  have h_same : b' = b := Option.some.inj (h_object'.symm.trans h_object)
  rw [← fileNamed_task h h_mem, h_found, h_same]

theorem intact_of_settled {out : Prepared} (h : preparePlaybookExecution env req = .ok out)
    (h_settled : Settled env req) : Intact env req out := by
  obtain ⟨-, h_plays, h_some, h_playbook, h_inventory⟩ := prepare_spec h
  have h_found : ∀ item ∈ req.files, ∃ b, objectOf env req item = some b ∧
      env.base.fileNamed out.workspace (taskOf env req item).src = some b := by
    intro item h_mem
    obtain ⟨b, h_object⟩ := (h_some item h_mem).2
    exact ⟨b, h_object, (fileNamed_task h h_mem).trans (h_settled item h_mem b h_object).1⟩
  refine ⟨⟨_, h_plays, ?_⟩, ?_, fun h_has => ?_, ?_⟩
  · rw [List.forall₂_map_right_iff, List.forall₂_same]
    exact h_found
  · rw [h_playbook, fileNamed_pathText (by simp) (by simp [Proper]), read_of_prepare h,
      lastAt_playbook, h_plays]
  · rw [h_inventory h_has, fileNamed_pathText (by simp) (by simp [Proper]),
      read_of_prepare h, lastAt_inventory h_has]
  · intro play h_play task h_task b h_at
    rw [h_plays] at h_play
    rw [List.mem_singleton.mp h_play] at h_task
    obtain ⟨item, h_mem, rfl⟩ := List.mem_map.mp h_task
    obtain ⟨b', h_object, h_at'⟩ := h_found item h_mem
    have h_same : b' = b := Option.some.inj (h_at'.symm.trans h_at)
    exact (h_settled item h_mem b (h_same ▸ h_object)).2

end Steps

section Examples

def taskDirectory : Directory where
  text := "/tmp/ansible-executor/t1"
  absolute := by decide

def dumpPlain (plays : List Play) : String :=
  String.join (plays.map fun play => "- hosts: " ++ play.hosts ++ "\n  gather_facts: false\n" ++
    "  tasks:\n" ++ String.join (play.tasks.map fun task => "  - name: " ++ task.name ++
      "\n    ansible.windows.win_copy:\n      src: " ++ task.src ++ "\n      dest: " ++
      task.dest ++ "\n      force: " ++ (if task.force then "true\n" else "false\n")))

def oneObject : Env where
  str
    | .str s => s
    | _ => ""
  str_text _ := rfl
  natsServers := ["nats://127.0.0.1:4222"]
  getInfo _ _ := .ok (some 2)
  get _ key := if key = "k1" then .ok [104, 105] else .error "not found"
  infolist _ := none
  safeDump := dumpPlain
  dumps _ := "\x7b\x7d"
  currentEntrypointCommand := ["ansible-executor"]
  workspace := taskDirectory
  base := taskDirectory

def oneFile (name : String) : PlaybookRequest where
  playbookPath := ""
  playbookContent := none
  inventory := ""
  inventoryContent := none
  extraVars := []
  executeTimeout := 600
  taskId := some "t1"
  callback := .null
  privateKeyContent := none
  privateKeyPassphrase := none
  hostCredentials :=
    [[("host", .str "10.0.0.5"), ("user", .str "root"), ("password", .str "s3cret")]]
  files := [[("name", .str name), ("file_key", .str "k1")]]
  fileDistribution := [("bucket_name", .str "bucket"), ("target_path", .str "/opt")]

theorem exists_of_isOk {ε α : Type} {x : Except ε α} (h : x.isOk = true) : ∃ a, x = .ok a := by
  cases x with
  | error e => cases h
  | ok a => exact ⟨a, rfl⟩

theorem oneFile_prepared :
    ∃ out, preparePlaybookExecution oneObject (oneFile "app.conf") = .ok out :=
  exists_of_isOk (by decide +kernel)

end Examples

end Distribution
end Ansible

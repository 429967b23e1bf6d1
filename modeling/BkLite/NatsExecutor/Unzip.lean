import BkLite.Framework.FileTree
import BkLite.Framework.SlashPaths

/-!
# Unpacking an archive

`utils/unzip.go`: the entries of an archive are put below a directory, in their order.

The file system is a tree without links, seen from the working directory of the process; an
operation fails if the tree does not allow it, and for no other reason. What an operation makes,
writes or removes is noted on the side.
-/

namespace NatsExecutor
namespace Unzip

open FileTree SlashPath

abbrev Bytes := List UInt8

/-- The type bits of `os.FileMode`: none, that of a directory, or another one. -/
inductive FileType
  | regular
  | directory
  | other
deriving DecidableEq

structure File where
  name : Text
  type : FileType := .regular
  content : Bytes := []

namespace File

variable (f : File)

/-- `f.FileInfo().IsDir()`: a slash at the end of the name says so too. -/
def isDir : Bool := f.type = .directory || f.name.getLast? = some '/'

/-- `f.Mode()&os.ModeType != 0 && !f.FileInfo().IsDir()`. -/
def unsupported : Bool := f.type ≠ .regular && !f.isDir

end File

structure UnzipRequest where
  zipPath : Text
  destDir : Text

inductive Touch
  | made (p : Place)
  | wrote (p : Place)
  | removed (p : Place)
deriving DecidableEq

def Touch.place : Touch → Place
  | made p => p
  | wrote p => p
  | removed p => p

structure Disk where
  tree : Folder Bytes
  touched : List Touch := []

inductive Refusal
  | tree (fault : Fault)
  | notEmpty
deriving DecidableEq

structure Failure where
  message : String
  cause : Option Refusal := none

def isSpace (c : Char) : Bool :=
  c.toNat ∈ [0x09, 0x0a, 0x0b, 0x0c, 0x0d, 0x20, 0x85, 0xa0, 0x1680, 0x2028, 0x2029, 0x202f, 0x205f,
    0x3000] || (0x2000 ≤ c.toNat && c.toNat ≤ 0x200a)

/-! ### The operations -/

section Operations

variable (cwd : Place)

/-- `os.MkdirAll`. Where a file is in the way all in front of it is there already. -/
def makeDirAll (path : Text) (d : Disk) : Except Refusal Disk :=
  let p := resolve cwd path
  match mkdirs d.tree p with
  | .ok t => .ok ⟨t, d.touched ++ (p.inits.filter fun q => (d.tree q).isNone).map .made⟩
  | .error e => .error (.tree e)

/-- `os.Stat`, as far as it says that there is a directory. -/
def isDirAt (path : Text) (d : Disk) : Bool :=
  match d.tree (resolve cwd path) with
  | some .dir => true
  | _ => false

/-- `os.RemoveAll`. A directory that is named by `..` is left without its contents. -/
def removePath (path : Text) (d : Disk) : Disk × Option Refusal :=
  let p := resolve cwd path
  if lastElem path = .up then
    (⟨clear d.tree p, d.touched ++ [.removed p]⟩, some .notEmpty)
  else (⟨removeAll d.tree p, d.touched ++ [.removed p]⟩, none)

def extractZipFile (f : File) (fpath : Text) (d : Disk) : Except Refusal Disk :=
  let p := resolve cwd fpath
  match write d.tree p f.content with
  | .ok t => .ok ⟨t, d.touched ++ [.wrote p]⟩
  | .error e => .error (.tree e)

end Operations

/-! ### The loop -/

/-- `fmt.Errorf` with a wrapped error, the disk as it is then. -/
def wrap (message : String) (d : Disk) : Except Refusal Disk → Except (Failure × Disk) Disk
  | .ok d' => .ok d'
  | .error e => .error (⟨message, some e⟩, d)

section Loop

variable (cwd : Place) (destDir : Text)

def illegalPath (f : File) : Option Text :=
  if isAbs f.name then some f.name
  else if (clean destDir ++ ['/']).isPrefixOf (join destDir f.name) then none
  else some (join destDir f.name)

def putContent (f : File) (fpath : Text) (d : Disk) : Except (Failure × Disk) Disk := do
  let d ←
    if isDirAt cwd fpath d then
      match removePath cwd fpath d with
      | (d, some e) => .error (⟨"failed to remove existing directory", some e⟩, d)
      | (d, none) => .ok d
    else .ok d
  wrap "failed to create output file" d (extractZipFile cwd f fpath d)

def putFile (d : Disk) (f : File) : Except (Failure × Disk) Disk :=
  match illegalPath destDir f with
  | some path => .error (⟨"illegal file path: " ++ String.ofList path, none⟩, d)
  | none =>
    let fpath := join destDir f.name
    if f.unsupported then
      .error (⟨"unsupported file type in zip: " ++ String.ofList f.name, none⟩, d)
    else if f.isDir then wrap "failed to create directory" d (makeDirAll cwd fpath d)
    else do
      let d ← wrap "failed to create parent directory" d (makeDirAll cwd (dir fpath) d)
      putContent cwd f fpath d

variable (openZipArchive : Text → Except Refusal (List File))

/-- `UnzipToDir`: the first part of the first name, and the disk. -/
def unzipToDir (req : UnzipRequest) (t : Folder Bytes) : Except (Failure × Disk) (Text × Disk) :=
  if req.destDir.all isSpace then .error (⟨"destination directory is required", none⟩, ⟨t, []⟩)
  else
    match openZipArchive req.zipPath with
    | .error e => .error (⟨"failed to open zip file", some e⟩, ⟨t, []⟩)
    | .ok [] => .error (⟨"zip file is empty", none⟩, ⟨t, []⟩)
    | .ok (firstFile :: files) => do
      let d ← (firstFile :: files).foldlM (putFile cwd req.destDir) ⟨t, []⟩
      return (firstFile.name.takeWhile (· ≠ '/'), d)

end Loop

def touchedBy : Except (Failure × Disk) (Text × Disk) → List Touch
  | .ok (_, d) => d.touched
  | .error (_, d) => d.touched

/-! ### What an archive asks for -/

section Spec

variable (cwd : Place) (destDir : Text)

def own (f : File) : Place := resolve [] f.name

def LeadsOutside (f : File) : Prop :=
  isAbs f.name = true ∨ ¬resolve cwd destDir <+: resolve (resolve cwd destDir) f.name

/-- Names that are relative and go down only, and no file where another entry has a directory or a
file. -/
structure Proper (files : List File) : Prop where
  relative : ∀ f ∈ files, isAbs f.name = false ∧ Elem.up ∉ elems f.name
  apart : files.Pairwise fun f g =>
    (f.isDir = false → ¬own f <+: own g) ∧ (g.isDir = false → ¬own g <+: own f)

/-- What is asked of a result `r` for the entries of an archive. -/
structure Contained (files : List File) (r : Except (Failure × Disk) (Text × Disk)) : Prop where
  inside : ∀ x ∈ touchedBy r, resolve cwd destDir <+: x.place
  rejects : (∃ f ∈ files, LeadsOutside cwd destDir f) → ∃ e, r = .error e
  accepts : Proper files → ∃ parentDir d, r = .ok (parentDir, d) ∧
    ∀ f ∈ files, f.isDir = false →
      read d.tree (resolve (resolve cwd destDir) f.name) = some f.content

end Spec

/-! ### One entry -/

section Steps

variable (cwd : Place) (destDir : Text) (f : File)

def target : Place := resolve cwd (join destDir f.name)

def needs : Place :=
  if f.isDir then target cwd destDir f else resolve cwd (dir (join destDir f.name))

/-- A file whose place is named by `..` in the end. -/
def climbs : Prop := f.isDir = false ∧ lastElem (join destDir f.name) = .up

def missing (t : Folder Bytes) (p : Place) : List Touch :=
  (p.inits.filter fun q => (t q).isNone).map .made

variable {cwd destDir f} {d : Disk} {t : Folder Bytes} {p q : Place} {n : Name}

theorem mem_missing {x : Touch} : x ∈ missing t p ↔ ∃ q, q <+: p ∧ t q = none ∧ x = .made q := by
  simp only [missing, List.mem_map, List.mem_filter, List.mem_inits, Option.isNone_iff_eq_none]
  constructor
  · rintro ⟨q, ⟨h_below, h_none⟩, rfl⟩
    exact ⟨q, h_below, h_none, rfl⟩
  · rintro ⟨q, h_below, h_none, rfl⟩
    exact ⟨q, ⟨h_below, h_none⟩, rfl⟩

theorem missing_eq_nil (h : IsTree t) (h_dir : t p = some .dir) : missing t p = [] := by
  rw [List.eq_nil_iff_forall_not_mem]
  intro x h_mem
  obtain ⟨q, h_below, h_none, -⟩ := mem_missing.mp h_mem
  rw [h.dir_of_dir h_dir h_below] at h_none
  cases h_none

theorem makeDirAll_of_free {path : Text} (h : ¬Blocked d.tree (resolve cwd path)) :
    makeDirAll cwd path d = .ok ⟨withDirs d.tree (resolve cwd path),
      d.touched ++ missing d.tree (resolve cwd path)⟩ := by
  dsimp only [makeDirAll]
  rw [mkdirs_of_free h]
  rfl

theorem makeDirAll_of_blocked {path : Text} (h : Blocked d.tree (resolve cwd path)) :
    makeDirAll cwd path d = .error (.tree .notADirectory) := by
  dsimp only [makeDirAll]
  rw [mkdirs_of_blocked h]

theorem putFile_illegal (h : illegalPath destDir f ≠ none) :
    ∃ e, putFile cwd destDir d f = .error (e, d) := by
  obtain ⟨path, h_path⟩ := Option.ne_none_iff_exists'.mp h
  unfold putFile
  rw [h_path]
  exact ⟨_, rfl⟩

theorem putContent_file {path : Text} (h_tree : IsTree d.tree) (h_dir : d.tree p = some .dir)
    (h_last : lastElem path = .name n) (h_path : resolve cwd path = p ++ [n.str]) :
    ∃ more, putContent cwd f path d =
        .ok ⟨fun q => if p ++ [n.str] <+: q then
            if q = p ++ [n.str] then some (.file f.content) else none else d.tree q,
          d.touched ++ more⟩ ∧
      (∀ x ∈ more, x.place = p ++ [n.str]) ∧ .wrote (p ++ [n.str]) ∈ more := by
  have h_shorter : ¬p ++ [n.str] <+: p := fun h => by
    have h_len := h.length_le
    rw [List.length_append, List.length_singleton] at h_len
    omega
  have h_write : ∀ t : Folder Bytes, t p = some .dir → t (p ++ [n.str]) ≠ some .dir →
      write t (p ++ [n.str]) f.content =
        .ok (Function.update t (p ++ [n.str]) (some (.file f.content))) := by
    intro t h_parent h_free
    unfold write
    rw [if_neg (by simp), List.dropLast_concat, h_parent]
    dsimp only
    split
    next h_eq => exact absurd h_eq h_free
    next => rfl
  by_cases h_there : d.tree (p ++ [n.str]) = some .dir
  · -- a directory is removed with all that is in it
    refine ⟨[.removed (p ++ [n.str]), .wrote (p ++ [n.str])], ?_, by simp [Touch.place], by simp⟩
    have h_at : isDirAt cwd path d = true := by
      unfold isDirAt
      rw [h_path, h_there]
    have h_removed : removePath cwd path d =
        (⟨removeAll d.tree (p ++ [n.str]), d.touched ++ [.removed (p ++ [n.str])]⟩, none) := by
      unfold removePath
      rw [h_last, h_path]
      rfl
    unfold putContent
    rw [if_pos h_at, h_removed]
    show wrap _ _ (extractZipFile cwd f path _) = _
    unfold extractZipFile
    rw [h_path]
    dsimp only
    rw [h_write (removeAll d.tree (p ++ [n.str])) (by rw [removeAll, if_neg h_shorter, h_dir])
      (by simp [removeAll])]
    show Except.ok _ = Except.ok _
    rw [List.append_assoc]
    congr 2
    funext q
    by_cases h_q : q = p ++ [n.str]
    · simp [h_q]
    · simp [h_q, removeAll]
  · refine ⟨[.wrote (p ++ [n.str])], ?_, by simp [Touch.place], by simp⟩
    have h_at : isDirAt cwd path d = false := by
      unfold isDirAt
      rw [h_path]
      split
      next h_eq => exact absurd h_eq h_there
      next => rfl
    unfold putContent
    rw [if_neg (by simp [h_at])]
    show wrap _ _ (extractZipFile cwd f path d) = _
    unfold extractZipFile
    rw [h_path]
    dsimp only
    rw [h_write d.tree h_dir h_there]
    show Except.ok _ = Except.ok _
    congr 2
    funext q
    by_cases h_q : q = p ++ [n.str]
    · simp [h_q]
    · rw [Function.update_of_ne h_q, if_neg h_q]
      split_ifs with h_below
      · -- nothing is below what is no directory
        by_contra h_some
        exact h_there (h_tree.dir_of_below h_some h_below (Ne.symm h_q))
      · rfl

theorem putContent_climbs {path : Text} (h_last : lastElem path = .up)
    (h_dir : d.tree (resolve cwd path) = some .dir) :
    ∃ e d', putContent cwd f path d = .error (e, d') ∧
      d'.touched = d.touched ++ [.removed (resolve cwd path)] := by
  have h_at : isDirAt cwd path d = true := by
    unfold isDirAt
    rw [h_dir]
  unfold putContent removePath
  rw [if_pos h_at, if_pos h_last]
  exact ⟨_, _, rfl, rfl⟩

variable (h_legal : illegalPath destDir f = none) (h_plain : f.unsupported = false)

include h_legal h_plain

theorem putFile_blocked (h : Blocked d.tree (needs cwd destDir f)) :
    ∃ e, putFile cwd destDir d f = .error (e, d) := by
  unfold putFile needs at *
  rw [h_legal]
  dsimp only
  rw [if_neg (by simp [h_plain])]
  split_ifs with h_dir
  · rw [if_pos h_dir] at h
    rw [makeDirAll_of_blocked h]
    exact ⟨_, rfl⟩
  · rw [if_neg h_dir] at h
    rw [makeDirAll_of_blocked h]
    exact ⟨_, rfl⟩

theorem putFile_dir (h_dir : f.isDir = true) (h : ¬Blocked d.tree (target cwd destDir f)) :
    putFile cwd destDir d f = .ok ⟨withDirs d.tree (target cwd destDir f),
      d.touched ++ missing d.tree (target cwd destDir f)⟩ := by
  unfold putFile
  rw [h_legal]
  dsimp only
  rw [if_neg (by simp [h_plain]), if_pos h_dir, makeDirAll_of_free h]
  rfl

theorem putFile_eq (h_dir : f.isDir = false) (h : ¬Blocked d.tree (needs cwd destDir f)) :
    putFile cwd destDir d f = putContent cwd f (join destDir f.name)
      ⟨withDirs d.tree (needs cwd destDir f),
        d.touched ++ missing d.tree (needs cwd destDir f)⟩ := by
  have h_needs : needs cwd destDir f = resolve cwd (dir (join destDir f.name)) := by
    unfold needs
    rw [if_neg (by simp [h_dir])]
  rw [h_needs] at h ⊢
  unfold putFile
  rw [h_legal]
  dsimp only
  rw [if_neg (by simp [h_plain]), if_neg (by simp [h_dir]), makeDirAll_of_free h]
  rfl

theorem putFile_file (h_dir : f.isDir = false) (h_tree : IsTree d.tree)
    (h_last : lastElem (join destDir f.name) = .name n)
    (h : ¬Blocked d.tree (needs cwd destDir f)) :
    target cwd destDir f = needs cwd destDir f ++ [n.str] ∧
    ∃ more, putFile cwd destDir d f =
        .ok ⟨withFile d.tree (needs cwd destDir f) n.str f.content,
          d.touched ++ missing d.tree (needs cwd destDir f) ++ more⟩ ∧
      (∀ x ∈ more, x.place = target cwd destDir f) ∧ .wrote (target cwd destDir f) ∈ more := by
  have h_target : target cwd destDir f = needs cwd destDir f ++ [n.str] := by
    unfold target needs
    rw [if_neg (by simp [h_dir]), resolve_eq_move, h_last]
    rfl
  rw [putFile_eq h_legal h_plain h_dir h, h_target]
  exact ⟨rfl, putContent_file h_tree.withDirs (by simp [withDirs]) h_last h_target⟩

theorem putFile_climbs (h : climbs destDir f) (h_tree : IsTree d.tree)
    (h_there : d.tree (needs cwd destDir f) = some .dir)
    (h_free : ¬Blocked d.tree (needs cwd destDir f)) :
    ∃ e d', putFile cwd destDir d f = .error (e, d') ∧
      d'.touched = d.touched ++ [.removed (target cwd destDir f)] := by
  obtain ⟨h_dir, h_last⟩ := h
  have h_target : target cwd destDir f <+: needs cwd destDir f := by
    unfold target needs
    rw [if_neg (by simp [h_dir]), resolve_eq_move, h_last]
    exact List.dropLast_prefix _
  obtain ⟨e, d', h_put, h_touched⟩ := @putContent_climbs cwd f
    ⟨withDirs d.tree (needs cwd destDir f), d.touched ++ missing d.tree (needs cwd destDir f)⟩
    (join destDir f.name) h_last (if_pos h_target)
  rw [missing_eq_nil h_tree h_there, List.append_nil] at h_touched
  exact ⟨e, d', (putFile_eq h_legal h_plain h_dir h_free).trans h_put, h_touched⟩

end Steps

/-! ### Where an entry is put -/

section Spots

variable {cwd : Place} {destDir : Text} {f : File}

def pathOf (destDir : Text) (f : File) : CleanPath := cleanPath (destDir ++ '/' :: f.name)

theorem legal_iff : illegalPath destDir f = none ↔ isAbs f.name = false ∧
    (cleanPath destDir).parts ≠ [] ∧ (cleanPath destDir).rooted = (pathOf destDir f).rooted ∧
    ∃ zs ≠ [], (pathOf destDir f).parts = (cleanPath destDir).parts ++ zs := by
  have h_text := @text_prefix_iff (cleanPath destDir) (pathOf destDir f)
  have h_starts : (clean destDir ++ ['/']).isPrefixOf (join destDir f.name) = true ↔
      (cleanPath destDir).text ++ ['/'] <+: (pathOf destDir f).text := List.isPrefixOf_iff_prefix
  rw [← h_text, ← h_starts]
  unfold illegalPath
  split_ifs with h_abs h_start
  · simp [h_abs]
  · simp [h_abs, h_start]
  · simp [h_start]

theorem target_eq (h : destDir ≠ []) :
    target cwd destDir f = (elems f.name).foldl move (resolve cwd destDir) := by
  unfold target join
  rw [resolve_clean, resolve_append h]

theorem resolve_relative (p : Place) (h : isAbs f.name = false) :
    resolve p f.name = (elems f.name).foldl move p := by
  unfold resolve
  rw [h]
  rfl

theorem target_of_legal (h : destDir ≠ []) (h_legal : illegalPath destDir f = none) :
    target cwd destDir f = resolve (resolve cwd destDir) f.name := by
  rw [target_eq h, resolve_relative _ (legal_iff.mp h_legal).1]

theorem leadsOutside_iff (h : destDir ≠ []) (h_legal : illegalPath destDir f = none) :
    LeadsOutside cwd destDir f ↔ ¬resolve cwd destDir <+: target cwd destDir f := by
  unfold LeadsOutside
  rw [target_of_legal h h_legal, (legal_iff.mp h_legal).1]
  simp

theorem parts_ne_nil (h_legal : illegalPath destDir f = none) : (pathOf destDir f).parts ≠ [] := by
  obtain ⟨-, -, -, zs, h_zs, h_parts⟩ := legal_iff.mp h_legal
  rw [h_parts]
  exact fun h_nil => h_zs (List.append_eq_nil_iff.mp h_nil).2

theorem last_cases_of_legal (h_legal : illegalPath destDir f = none) :
    (∃ n, lastElem (join destDir f.name) = .name n) ∨
      lastElem (join destDir f.name) = .up ∧ (pathOf destDir f).names = [] := by
  obtain h_names | h_names := eq_or_ne (pathOf destDir f).names []
  · refine .inr ⟨CleanPath.lastElem_up h_names fun h_ups => parts_ne_nil h_legal ?_, h_names⟩
    rw [CleanPath.parts, h_names, show (pathOf destDir f).ups = 0 from h_ups]
    rfl
  · obtain ⟨-, n, -, h_last⟩ := CleanPath.lastElem_name h_names
    exact .inl ⟨n, h_last⟩

theorem needs_prefix_of_climbs (h_legal : illegalPath destDir f = none) (h : climbs destDir f) :
    needs cwd destDir f <+: cwd := by
  obtain ⟨h_dir, h_last⟩ := h
  obtain ⟨n, h_name⟩ | ⟨-, h_names⟩ := last_cases_of_legal h_legal
  · rw [h_name] at h_last
    cases h_last
  have h_parts := parts_ne_nil h_legal
  have h_unrooted : ¬(pathOf destDir f).rooted = true := fun h_rooted => h_parts (by
    simp [CleanPath.parts, h_names, (pathOf destDir f).ups_of_rooted h_rooted])
  have h_elems : elems (join destDir f.name) = List.replicate (pathOf destDir f).ups .up := by
    show elems (pathOf destDir f).text = _
    rw [CleanPath.elems_text, if_neg h_unrooted, if_neg h_parts, CleanPath.elems, h_names]
    simp
  have h_abs : ¬isAbs (join destDir f.name) = true := by
    show ¬isAbs (pathOf destDir f).text = true
    rwa [CleanPath.isAbs_text]
  unfold needs
  rw [if_neg (by simp [h_dir]), resolve_dir, h_elems, if_neg h_abs, List.dropLast_replicate]
  generalize (pathOf destDir f).ups - 1 = k
  induction k with
  | zero => exact List.prefix_rfl
  | succ k ih =>
    rw [List.replicate_succ', List.foldl_append]
    exact (List.dropLast_prefix _).trans ih

theorem inside_of_name {n : Name} (h_name : lastElem (clean destDir) = .name n)
    (h_legal : illegalPath destDir f = none) :
    (∃ ns ≠ [], target cwd destDir f = resolve cwd destDir ++ ns) ∧ ¬climbs destDir f := by
  obtain ⟨-, h_parts, h_rooted, zs, h_zs, h_append⟩ := legal_iff.mp h_legal
  have h_names : (cleanPath destDir).names ≠ [] := fun h_nil => by
    have h_ups : (cleanPath destDir).ups ≠ 0 := fun h_zero =>
      h_parts (by simp [CleanPath.parts, h_nil, h_zero])
    have h_up := CleanPath.lastElem_up h_nil h_ups
    rw [show (cleanPath destDir).text = clean destDir from rfl, h_name] at h_up
    cases h_up
  have h_elems : (pathOf destDir f).elems = (cleanPath destDir).elems ++ zs.map Elem.of := by
    rw [← CleanPath.map_parts, ← CleanPath.map_parts, h_append, List.map_append]
  obtain ⟨h_ups, ns, h_ns, h_es⟩ := CleanPath.names_of_elems_append h_elems h_names
  refine ⟨⟨ns.map (·.str), ?_, ?_⟩, fun h_climbs => ?_⟩
  · rintro h_nil
    rw [List.map_eq_nil_iff.mp h_nil, List.map_nil, List.map_eq_nil_iff] at h_es
    exact h_zs h_es
  · rw [← place_cleanPath]
    show resolve cwd (clean _) = _
    rw [resolve_clean, ← place_cleanPath]
    show (pathOf destDir f).place cwd = _
    unfold CleanPath.place
    rw [h_ns, ← h_rooted, h_ups, List.map_append, ← List.append_assoc]
  · obtain ⟨m, h_last⟩ | ⟨-, h_nil⟩ := last_cases_of_legal h_legal
    · rw [h_climbs.2] at h_last
      cases h_last
    · rw [h_ns] at h_nil
      exact h_names (List.append_eq_nil_iff.mp h_nil).1

theorem down_cases (h : destDir ≠ []) (h_abs : isAbs f.name = false) (h_down : .up ∉ elems f.name) :
    target cwd destDir f = resolve cwd destDir ++ own f ∧
    (illegalPath destDir f = none ↔ (cleanPath destDir).parts ≠ [] ∧ own f ≠ []) ∧
    (own f ≠ [] → ¬climbs destDir f) := by
  obtain ⟨ns, h_step, h_move⟩ := exists_names_of_down h_down
  obtain ⟨h_rooted, h_ups, h_names⟩ := h_step (cleanPath destDir)
  rw [← cleanPath_append h] at h_rooted h_ups h_names
  have h_own : own f = ns.map (·.str) := by
    unfold own
    rw [resolve_relative _ h_abs, h_move, List.nil_append]
  have h_parts : (pathOf destDir f).parts =
      (cleanPath destDir).parts ++ ns.map fun n => n.str.toList := by
    show (cleanPath _).parts = _
    unfold CleanPath.parts
    rw [h_ups, h_names, List.map_append, List.append_assoc]
  have h_nil : own f = [] ↔ ns = [] := by rw [h_own, List.map_eq_nil_iff]
  refine ⟨by rw [target_eq h, h_move, h_own], ?_, fun h_own h_climbs => ?_⟩
  · rw [legal_iff, h_parts]
    constructor
    · rintro ⟨-, h_some, -, zs, h_zs, h_append⟩
      refine ⟨h_some, fun h_own => h_zs ?_⟩
      rw [h_nil.mp h_own, List.map_nil, List.append_cancel_left_eq] at h_append
      exact h_append.symm
    · rintro ⟨h_some, h_own⟩
      refine ⟨h_abs, h_some, h_rooted.symm, _, ?_, rfl⟩
      exact fun h_map => h_own (h_nil.mpr (List.map_eq_nil_iff.mp h_map))
  · have h_some : (pathOf destDir f).names ≠ [] := by
      show (cleanPath _).names ≠ []
      rw [h_names]
      exact fun h_append => h_own (h_nil.mpr (List.append_eq_nil_iff.mp h_append).2)
    obtain ⟨-, n, -, h_last⟩ := CleanPath.lastElem_name h_some
    have h_up : lastElem (pathOf destDir f).text = .up := h_climbs.2
    rw [h_last] at h_up
    cases h_up

end Spots

/-! ### A whole archive -/

section Runs

variable (cwd : Place) (destDir : Text) (t₀ : Folder Bytes)

def BlockedBy (done : List File) (p : Place) : Prop :=
  ∃ q, q <+: p ∧ (IsFile t₀ q ∨ ∃ f ∈ done, f.isDir = false ∧ target cwd destDir f = q)

def Stops (done : List File) (f : File) : Prop :=
  illegalPath destDir f ≠ none ∨ BlockedBy cwd destDir t₀ done (needs cwd destDir f)

def Put (files : List File) : Prop :=
  ∀ pre f post, files = pre ++ f :: post → ¬Stops cwd destDir t₀ pre f ∧ ¬climbs destDir f

/-- What holds of the disk when some entries have been put. -/
structure Inv (done : List File) (d : Disk) : Prop where
  tree : IsTree d.tree
  /-- A file is an old one or one of the archive, and such a file or one in front of it is there. -/
  file : ∀ q, IsFile d.tree q →
    IsFile t₀ q ∨ ∃ f ∈ done, f.isDir = false ∧ target cwd destDir f = q
  blocked : ∀ q, (IsFile t₀ q ∨ ∃ f ∈ done, f.isDir = false ∧ target cwd destDir f = q) →
    Blocked d.tree q
  /-- An old directory is lost to a file only, and a new one has been made. -/
  old : ∀ q, t₀ q = some .dir → d.tree q = some .dir ∨ Blocked d.tree q
  new : ∀ q, d.tree q = some .dir → t₀ q = some .dir ∨ .made q ∈ d.touched
  /-- Each entry has its directories and, if it is a file, has been written. -/
  dirs : ∀ f ∈ done, ∀ q, q <+: needs cwd destDir f →
    t₀ q = some .dir ∨ .made q ∈ d.touched
  wrote : ∀ f ∈ done, f.isDir = false → .wrote (target cwd destDir f) ∈ d.touched
  /-- What is touched is a file of the archive, or on the way to an entry and missing before. -/
  touched : ∀ x ∈ d.touched, ∃ f ∈ done, x.place <+: target cwd destDir f ∧
    (f.isDir = false ∧ x.place = target cwd destDir f ∨ t₀ x.place ≠ some .dir)
  /-- A file has its contents as long as no later entry is in its way. -/
  content : ∀ pre f post, done = pre ++ f :: post → f.isDir = false →
    (∀ g ∈ post, ¬target cwd destDir f <+: target cwd destDir g ∧
      (g.isDir = false → ¬target cwd destDir g <+: target cwd destDir f)) →
    d.tree (target cwd destDir f) = some (.file f.content)

variable {cwd destDir t₀} {done files : List File} {d : Disk} {f : File} {p q : Place}

theorem put_concat : Put cwd destDir t₀ (done ++ [f]) ↔
    Put cwd destDir t₀ done ∧ ¬Stops cwd destDir t₀ done f ∧ ¬climbs destDir f := by
  constructor
  · intro h
    refine ⟨fun pre g post h_split => h pre g (post ++ [f]) ?_, h done f [] rfl⟩
    rw [h_split, List.append_assoc]
    rfl
  · rintro ⟨h_done, h_last⟩ pre g post h_split
    obtain rfl | ⟨post', x, rfl⟩ := List.eq_nil_or_concat' post
    · obtain ⟨rfl, h_one⟩ := List.append_inj' h_split rfl
      cases h_one
      exact h_last
    · rw [← List.cons_append, ← List.append_assoc] at h_split
      exact h_done pre g post' (List.append_inj_left' h_split rfl)

theorem inv_nil (h : IsTree t₀) : Inv cwd destDir t₀ [] ⟨t₀, []⟩ where
  tree := h
  file _ h_file := .inl h_file
  blocked q h_file := by
    obtain h_old | ⟨f, h_mem, -⟩ := h_file
    · exact ⟨q, List.prefix_rfl, h_old⟩
    · exact absurd h_mem List.not_mem_nil
  old _ h_dir := .inl h_dir
  new _ h_dir := .inl h_dir
  dirs f h_mem := absurd h_mem List.not_mem_nil
  wrote f h_mem := absurd h_mem List.not_mem_nil
  touched x h_mem := absurd h_mem List.not_mem_nil
  content pre f post h_split := by simp at h_split

theorem Inv.blocked_iff (h : Inv cwd destDir t₀ done d) :
    Blocked d.tree p ↔ BlockedBy cwd destDir t₀ done p := by
  constructor
  · rintro ⟨q, h_below, h_file⟩
    exact ⟨q, h_below, h.file q h_file⟩
  · rintro ⟨q, h_below, h_file⟩
    exact (h.blocked q h_file).extend h_below

theorem split_concat {pre post : List File} {g : File} (h : done ++ [f] = pre ++ g :: post) :
    (post = [] ∧ g = f ∧ pre = done) ∨ ∃ post', post = post' ++ [f] ∧ done = pre ++ g :: post' := by
  obtain rfl | ⟨post', x, rfl⟩ := List.eq_nil_or_concat' post
  · obtain ⟨rfl, h_one⟩ := List.append_inj' h rfl
    cases h_one
    exact .inl ⟨rfl, rfl, rfl⟩
  · rw [← List.cons_append, ← List.append_assoc] at h
    obtain ⟨h_done, h_one⟩ := List.append_inj' h rfl
    cases h_one
    exact .inr ⟨post', rfl, h_done⟩

theorem Inv.missing_old (h : Inv cwd destDir t₀ done d) (h_free : ¬Blocked d.tree p)
    (h_below : q <+: p) (h_none : d.tree q = none) : t₀ q ≠ some .dir := by
  intro h_dir
  obtain h_there | h_blocked := h.old q h_dir
  · rw [h_there] at h_none
    cases h_none
  · exact h_free (h_blocked.extend h_below)

theorem Inv.new_withDirs (h : Inv cwd destDir t₀ done d) (h_free : ¬Blocked d.tree p)
    (h_dir : withDirs d.tree p q = some .dir) :
    t₀ q = some .dir ∨ .made q ∈ d.touched ++ missing d.tree p := by
  rw [List.mem_append]
  unfold withDirs at h_dir
  split_ifs at h_dir with h_below
  · cases h_q : d.tree q with
    | none => exact .inr (.inr (mem_missing.mpr ⟨q, h_below, h_q, rfl⟩))
    | some node =>
      cases node with
      | file b => exact absurd ⟨q, h_below, b, h_q⟩ h_free
      | dir => exact (h.new q h_q).imp_right .inl
  · exact (h.new q h_dir).imp_right .inl

theorem Inv.concat_dir (h : Inv cwd destDir t₀ done d) (h_dir : f.isDir = true)
    (h_free : ¬Blocked d.tree (target cwd destDir f)) :
    Inv cwd destDir t₀ (done ++ [f]) ⟨withDirs d.tree (target cwd destDir f),
      d.touched ++ missing d.tree (target cwd destDir f)⟩ := by
  have h_files : ∀ q, (∃ g ∈ done ++ [f], g.isDir = false ∧ target cwd destDir g = q) ↔
      ∃ g ∈ done, g.isDir = false ∧ target cwd destDir g = q := by
    intro q
    simp [h_dir]
  have h_blocked : ∀ q, Blocked d.tree q → Blocked (withDirs d.tree (target cwd destDir f)) q :=
    fun q ⟨r, h_below, h_file⟩ => ⟨r, h_below, (isFile_withDirs h_free).mpr h_file⟩
  constructor
  · exact h.tree.withDirs
  · intro q h_file
    rw [h_files]
    exact h.file q ((isFile_withDirs h_free).mp h_file)
  · intro q h_file
    rw [h_files] at h_file
    exact h_blocked q (h.blocked q h_file)
  · intro q h_old
    obtain h_there | h_behind := h.old q h_old
    · refine .inl ?_
      show withDirs _ _ q = _
      rw [withDirs, h_there, ite_self]
    · exact .inr (h_blocked q h_behind)
  · exact fun q h_new => h.new_withDirs h_free h_new
  · intro g h_mem q h_below
    obtain h_mem | h_mem := List.mem_append.mp h_mem
    · exact (h.dirs g h_mem q h_below).imp_right (List.mem_append_left _)
    · rw [List.mem_singleton.mp h_mem, needs, if_pos h_dir] at h_below
      exact h.new_withDirs h_free (if_pos h_below)
  · intro g h_mem h_file
    obtain h_mem | h_mem := List.mem_append.mp h_mem
    · exact List.mem_append_left _ (h.wrote g h_mem h_file)
    · rw [List.mem_singleton.mp h_mem, h_dir] at h_file
      cases h_file
  · intro x h_mem
    obtain h_mem | h_mem := List.mem_append.mp h_mem
    · obtain ⟨g, h_g, h_rest⟩ := h.touched x h_mem
      exact ⟨g, List.mem_append_left _ h_g, h_rest⟩
    · obtain ⟨q, h_below, h_none, rfl⟩ := mem_missing.mp h_mem
      exact ⟨f, by simp, h_below, .inr (h.missing_old h_free h_below h_none)⟩
  · intro pre g post h_split h_file h_later
    obtain ⟨-, rfl, -⟩ | ⟨post', rfl, h_done⟩ := split_concat h_split
    · rw [h_dir] at h_file
      cases h_file
    · have h_there := h.content pre g post' h_done h_file
        fun k h_k => h_later k (List.mem_append_left _ h_k)
      show withDirs _ _ _ = _
      rw [withDirs, if_neg (h_later f (by simp)).1, h_there]

theorem Inv.concat_file (h : Inv cwd destDir t₀ done d) (h_dir : f.isDir = false) {n : String}
    (h_free : ¬Blocked d.tree (needs cwd destDir f))
    (h_target : target cwd destDir f = needs cwd destDir f ++ [n]) {more : List Touch}
    (h_more : ∀ x ∈ more, x.place = target cwd destDir f)
    (h_wrote : .wrote (target cwd destDir f) ∈ more) :
    Inv cwd destDir t₀ (done ++ [f]) ⟨withFile d.tree (needs cwd destDir f) n f.content,
      d.touched ++ missing d.tree (needs cwd destDir f) ++ more⟩ := by
  have h_at : withFile d.tree (needs cwd destDir f) n f.content (target cwd destDir f) =
      some (.file f.content) := by
    rw [h_target]
    simp [withFile]
  have h_behind : ∀ q, target cwd destDir f <+: q →
      Blocked (withFile d.tree (needs cwd destDir f) n f.content) q :=
    fun q h_below => ⟨_, h_below, _, h_at⟩
  have h_blocked : ∀ q, Blocked d.tree q →
      Blocked (withFile d.tree (needs cwd destDir f) n f.content) q := by
    rintro q ⟨r, h_up, h_file⟩
    by_cases h_below : target cwd destDir f <+: r
    · exact h_behind q (h_below.trans h_up)
    · rw [h_target] at h_below
      exact ⟨r, h_up, (isFile_withFile h_free).mpr (.inr ⟨h_file, h_below⟩)⟩
  -- outside of what lies behind the file the tree is the one with the directories
  have h_new : ∀ q, withFile d.tree (needs cwd destDir f) n f.content q = some .dir →
      withDirs d.tree (needs cwd destDir f) q = some .dir := by
    intro q h_q
    unfold withFile at h_q
    split_ifs at h_q
    · cases h_q
    · exact h_q
  constructor
  · exact h.tree.withFile
  · intro q h_file
    obtain rfl | ⟨h_file, -⟩ := (isFile_withFile h_free).mp h_file
    · exact .inr ⟨f, by simp, h_dir, h_target⟩
    · obtain h_old | ⟨g, h_mem, h_g⟩ := h.file q h_file
      · exact .inl h_old
      · exact .inr ⟨g, List.mem_append_left _ h_mem, h_g⟩
  · rintro q (h_old | ⟨g, h_mem, h_g, rfl⟩)
    · exact h_blocked q (h.blocked q (.inl h_old))
    · obtain h_mem | h_mem := List.mem_append.mp h_mem
      · exact h_blocked _ (h.blocked _ (.inr ⟨g, h_mem, h_g, rfl⟩))
      · rw [List.mem_singleton.mp h_mem]
        exact h_behind _ List.prefix_rfl
  · intro q h_old
    obtain h_there | h_lost := h.old q h_old
    · obtain h_dir | h_below := dir_withFile (b := f.content) (n := n)
        (p := needs cwd destDir f) h_there
      · exact .inl h_dir
      · exact .inr (h_behind q (h_target ▸ h_below))
    · exact .inr (h_blocked q h_lost)
  · exact fun q h_q => (h.new_withDirs h_free (h_new q h_q)).imp_right (List.mem_append_left _)
  · intro g h_mem q h_below
    obtain h_mem | h_mem := List.mem_append.mp h_mem
    · refine (h.dirs g h_mem q h_below).imp_right fun h_made => ?_
      exact List.mem_append_left _ (List.mem_append_left _ h_made)
    · rw [List.mem_singleton.mp h_mem] at h_below
      exact (h.new_withDirs h_free (if_pos h_below)).imp_right (List.mem_append_left _)
  · intro g h_mem h_file
    obtain h_mem | h_mem := List.mem_append.mp h_mem
    · exact List.mem_append_left _ (List.mem_append_left _ (h.wrote g h_mem h_file))
    · rw [List.mem_singleton.mp h_mem]
      exact List.mem_append_right _ h_wrote
  · intro x h_mem
    obtain h_mem | h_mem := List.mem_append.mp h_mem
    · obtain h_mem | h_mem := List.mem_append.mp h_mem
      · obtain ⟨g, h_g, h_rest⟩ := h.touched x h_mem
        exact ⟨g, List.mem_append_left _ h_g, h_rest⟩
      · obtain ⟨q, h_below, h_none, rfl⟩ := mem_missing.mp h_mem
        refine ⟨f, by simp, ?_, .inr (h.missing_old h_free h_below h_none)⟩
        rw [h_target]
        exact h_below.trans (List.prefix_append _ _)
    · have h_place := h_more x h_mem
      exact ⟨f, by simp, h_place ▸ List.prefix_rfl, .inl ⟨h_dir, h_place⟩⟩
  · intro pre g post h_split h_file h_later
    obtain ⟨rfl, rfl, -⟩ | ⟨post', rfl, h_done⟩ := split_concat h_split
    · exact h_at
    · have h_there := h.content pre g post' h_done h_file
        fun k h_k => h_later k (List.mem_append_left _ h_k)
      obtain ⟨h_apart, h_apart'⟩ := h_later f (by simp)
      have h_short : ¬target cwd destDir g <+: needs cwd destDir f := fun h_below =>
        h_apart (h_target ▸ h_below.trans (List.prefix_append _ _))
      show withFile _ _ _ _ _ = _
      rw [withFile, if_neg (h_target ▸ h_apart' h_dir), withDirs, if_neg h_short, h_there]

theorem Inv.step (h : Inv cwd destDir t₀ done d) (h_plain : f.unsupported = false)
    (h_go : ¬Stops cwd destDir t₀ done f) (h_down : ¬climbs destDir f) :
    ∃ d', putFile cwd destDir d f = .ok d' ∧ Inv cwd destDir t₀ (done ++ [f]) d' := by
  obtain ⟨h_legal, h_way⟩ := not_or.mp h_go
  rw [not_not] at h_legal
  rw [← h.blocked_iff] at h_way
  by_cases h_dir : f.isDir = true
  · rw [needs, if_pos h_dir] at h_way
    exact ⟨_, putFile_dir h_legal h_plain h_dir h_way, h.concat_dir h_dir h_way⟩
  · rw [Bool.not_eq_true] at h_dir
    obtain ⟨n, h_last⟩ | ⟨h_last, -⟩ := last_cases_of_legal h_legal
    · obtain ⟨h_target, more, h_put, h_more, h_wrote⟩ :=
        putFile_file h_legal h_plain h_dir h.tree h_last h_way
      exact ⟨_, h_put, h.concat_file h_dir h_way h_target h_more h_wrote⟩
    · exact absurd ⟨h_dir, h_last⟩ h_down

theorem foldlM_concat {α ε σ : Type} (g : σ → α → Except ε σ) (l : List α) (a : α) (s : σ) :
    (l ++ [a]).foldlM g s = l.foldlM g s >>= fun s' => g s' a := by
  rw [List.foldlM_append]
  congr 1
  funext s'
  simp

theorem run_of_put (h_tree : IsTree t₀) (h_plain : ∀ f ∈ files, f.unsupported = false)
    (h : Put cwd destDir t₀ files) :
    ∃ d, files.foldlM (putFile cwd destDir) ⟨t₀, []⟩ = .ok d ∧ Inv cwd destDir t₀ files d := by
  induction files using List.reverseRecOn with
  | nil => exact ⟨_, rfl, inv_nil h_tree⟩
  | append_singleton files f ih =>
    obtain ⟨h_put, h_go, h_down⟩ := put_concat.mp h
    obtain ⟨d, h_run, h_inv⟩ := ih (fun g h_mem => h_plain g (List.mem_append_left _ h_mem)) h_put
    obtain ⟨d', h_step, h_inv'⟩ := h_inv.step (h_plain f (by simp)) h_go h_down
    refine ⟨d', ?_, h_inv'⟩
    rw [foldlM_concat, h_run]
    exact h_step

theorem exists_stop (h : ¬Put cwd destDir t₀ files) : ∃ pre f post, files = pre ++ f :: post ∧
    Put cwd destDir t₀ pre ∧ (Stops cwd destDir t₀ pre f ∨ climbs destDir f) := by
  induction files using List.reverseRecOn with
  | nil => exact absurd (fun pre f post h_split => by simp at h_split) h
  | append_singleton files f ih =>
    by_cases h_put : Put cwd destDir t₀ files
    · refine ⟨files, f, [], rfl, h_put, ?_⟩
      by_contra h_go
      exact h (put_concat.mpr ⟨h_put, not_or.mp h_go⟩)
    · obtain ⟨pre, g, post, h_split, h_rest⟩ := ih h_put
      exact ⟨pre, g, post ++ [f], by rw [h_split, List.append_assoc]; rfl, h_rest⟩

theorem prefix_of_put {pre pre' post post' : List File} {g : File}
    (h_split : files = pre ++ f :: post) (h_stop : Stops cwd destDir t₀ pre f ∨ climbs destDir f)
    (h_split' : files = pre' ++ g :: post') (h_put : Put cwd destDir t₀ (pre' ++ [g])) :
    g ∈ pre := by
  have h_first : pre ++ [f] <+: files := ⟨post, by rw [h_split]; simp⟩
  have h_second : pre' ++ [g] <+: files := ⟨post', by rw [h_split']; simp⟩
  obtain h_le | h_le := List.prefix_or_prefix_of_prefix h_first h_second
  · obtain ⟨rest, h_rest⟩ := h_le
    have h_go := h_put pre f rest (by rw [← h_rest]; simp)
    exact absurd h_stop (not_or.mpr h_go)
  · obtain h_eq | h_le := List.prefix_concat_iff.mp h_le
    · rw [h_eq] at h_put
      exact absurd h_stop (not_or.mpr (put_concat.mp h_put).2)
    · exact h_le.subset (by simp)

theorem run_of_stop {pre post : List File} (h_tree : IsTree t₀) (h_cwd : t₀ cwd = some .dir)
    (h_plain : ∀ f ∈ files, f.unsupported = false) (h_split : files = pre ++ f :: post)
    (h_put : Put cwd destDir t₀ pre) (h_stop : Stops cwd destDir t₀ pre f ∨ climbs destDir f) :
    ∃ e d d', Inv cwd destDir t₀ pre d ∧
      files.foldlM (putFile cwd destDir) ⟨t₀, []⟩ = .error (e, d') ∧
      (Stops cwd destDir t₀ pre f ∧ d' = d ∨
        ¬Stops cwd destDir t₀ pre f ∧ climbs destDir f ∧
          d'.touched = d.touched ++ [.removed (target cwd destDir f)]) := by
  obtain ⟨d, h_run, h_inv⟩ := run_of_put h_tree
    (fun g h_mem => h_plain g (h_split ▸ List.mem_append_left _ h_mem)) h_put
  have h_plain_f := h_plain f (by rw [h_split]; simp)
  have h_end : ∀ e d', putFile cwd destDir d f = .error (e, d') →
      files.foldlM (putFile cwd destDir) ⟨t₀, []⟩ = .error (e, d') := by
    intro e d' h_fail
    rw [h_split, List.foldlM_append, h_run]
    show (f :: post).foldlM (putFile cwd destDir) d = _
    rw [List.foldlM_cons, h_fail]
    rfl
  by_cases h_legal : illegalPath destDir f = none
  · by_cases h_way : BlockedBy cwd destDir t₀ pre (needs cwd destDir f)
    · obtain ⟨e, h_fail⟩ := putFile_blocked h_legal h_plain_f (h_inv.blocked_iff.mpr h_way)
      exact ⟨e, d, d, h_inv, h_end e d h_fail, .inl ⟨.inr h_way, rfl⟩⟩
    · -- the entry climbs, from a directory that is there
      have h_go : ¬Stops cwd destDir t₀ pre f := not_or.mpr ⟨not_not.mpr h_legal, h_way⟩
      have h_climbs := h_stop.resolve_left h_go
      rw [← h_inv.blocked_iff] at h_way
      have h_old := h_tree.dir_of_dir h_cwd (needs_prefix_of_climbs h_legal h_climbs)
      have h_there := (h_inv.old _ h_old).resolve_right h_way
      obtain ⟨e, d', h_fail, h_touched⟩ :=
        putFile_climbs h_legal h_plain_f h_climbs h_inv.tree h_there h_way
      exact ⟨e, d, d', h_inv, h_end e d' h_fail, .inr ⟨h_go, h_climbs, h_touched⟩⟩
  · obtain ⟨e, h_fail⟩ := @putFile_illegal cwd destDir f d h_legal
    exact ⟨e, d, d, h_inv, h_end e d h_fail, .inl ⟨.inl h_legal, rfl⟩⟩

end Runs

/-! ### When an archive is put as it should be -/

section Main

variable (cwd : Place) (destDir : Text) (t₀ : Folder Bytes)

/-- The condition: the destination, the entries and what is there before. -/
structure Meets (files : List File) : Prop where
  /-- Proper names are accepted. -/
  accepts : Proper files → clean destDir ≠ ['.'] ∧ clean destDir ≠ ['/'] ∧
    ∀ f ∈ files, own f ≠ [] ∧ ¬Blocked t₀ (needs cwd destDir f)
  /-- The destination has its directory, or the first entry is stopped. -/
  parent : t₀ (resolve cwd destDir).dropLast = some .dir ∨
    ∀ f ∈ files.head?, Stops cwd destDir t₀ [] f
  /-- Where the destination ends in `..`, what leads outside is stopped. -/
  climbing : lastElem (clean destDir) = .up →
    (∀ pre f post, files = pre ++ f :: post → Put cwd destDir t₀ pre →
      ¬Stops cwd destDir t₀ pre f → LeadsOutside cwd destDir f →
      f.isDir = true ∧ t₀ (target cwd destDir f) = some .dir) ∧
    ((∃ f ∈ files, LeadsOutside cwd destDir f) →
      ∃ pre f post, files = pre ++ f :: post ∧ (Stops cwd destDir t₀ pre f ∨ climbs destDir f))

variable {cwd destDir t₀} {files done : List File} {d : Disk} {f : File} {p : Place}

theorem kinds (destDir : Text) : (cleanPath destDir).parts = [] ∨
    (lastElem (clean destDir) = .up ∧ (cleanPath destDir).names = [] ∧
      (cleanPath destDir).rooted = false) ∨
    ∃ n, lastElem (clean destDir) = .name n := by
  obtain h_parts | h_parts := eq_or_ne (cleanPath destDir).parts []
  · exact .inl h_parts
  obtain h_names | h_names := eq_or_ne (cleanPath destDir).names []
  · have h_ups : (cleanPath destDir).ups ≠ 0 := fun h_zero =>
      h_parts (by rw [CleanPath.parts, h_names, h_zero]; rfl)
    refine .inr (.inl ⟨CleanPath.lastElem_up h_names h_ups, h_names, ?_⟩)
    by_contra h_rooted
    exact h_ups ((cleanPath destDir).ups_of_rooted (by simpa using h_rooted))
  · obtain ⟨-, n, -, h_last⟩ := CleanPath.lastElem_name h_names
    exact .inr (.inr ⟨n, h_last⟩)

theorem dest_below (h : (cleanPath destDir).names = [])
    (h_rooted : (cleanPath destDir).rooted = false) : resolve cwd destDir <+: cwd := by
  rw [← place_cleanPath, CleanPath.place, h, h_rooted]
  simp [List.take_prefix]

theorem Inv.inside (h : Inv cwd destDir t₀ done d) (h_tree : IsTree t₀)
    (h_parent : t₀ (resolve cwd destDir).dropLast = some .dir)
    (h_each : ∀ f ∈ done, resolve cwd destDir <+: target cwd destDir f ∨
      f.isDir = true ∧ t₀ (target cwd destDir f) = some .dir) :
    ∀ x ∈ d.touched, resolve cwd destDir <+: x.place := by
  intro x h_mem
  obtain ⟨f, h_f, h_below, h_why⟩ := h.touched x h_mem
  obtain h_in | ⟨h_dir, h_there⟩ := h_each f h_f
  · obtain ⟨-, h_place⟩ | h_new := h_why
    · rwa [h_place]
    · obtain h_shorter | h_longer := List.prefix_or_prefix_of_prefix h_below h_in
      · obtain h_eq | h_strict := eq_or_ne x.place (resolve cwd destDir)
        · exact h_eq ▸ List.prefix_rfl
        · -- what lies above the destination has been there
          have h_above : x.place <+: (resolve cwd destDir).dropLast := by
            obtain ⟨rest, h_rest⟩ := h_shorter
            obtain rfl | ⟨rest', n, rfl⟩ := List.eq_nil_or_concat' rest
            · exact absurd ((List.append_nil _).symm.trans h_rest) h_strict
            · rw [← h_rest, ← List.append_assoc, List.dropLast_concat]
              exact List.prefix_append _ _
          exact absurd (h_tree.dir_of_dir h_parent h_above) h_new
      · exact h_longer
  · obtain ⟨h_file, -⟩ | h_new := h_why
    · rw [h_dir] at h_file
      cases h_file
    · exact absurd (h_tree.dir_of_dir h_there h_below) h_new

variable {openZipArchive : Text → Except Refusal (List File)} {req : UnzipRequest}

theorem put_of_append {pre post : List File} (h : Put cwd destDir t₀ (pre ++ post)) :
    Put cwd destDir t₀ pre := by
  intro pre' g post' h_split
  exact h pre' g (post' ++ post) (by rw [h_split, List.append_assoc]; rfl)

/-- A destination that is not blank, an archive of plain files and directories with an entry, and a
tree with the working directory. -/
structure Job (cwd : Place) (openZipArchive : Text → Except Refusal (List File))
    (req : UnzipRequest) (t₀ : Folder Bytes) (files : List File) : Prop where
  blank : req.destDir.all isSpace = false
  opens : openZipArchive req.zipPath = .ok files
  nonempty : files ≠ []
  plain : ∀ f ∈ files, f.unsupported = false
  tree : IsTree t₀
  cwd_dir : t₀ cwd = some .dir

section Outcomes

variable (job : Job cwd openZipArchive req t₀ files)

include job

theorem Job.destDir_ne_nil : req.destDir ≠ [] := by
  intro h_nil
  have h_blank := job.blank
  rw [h_nil] at h_blank
  cases h_blank

theorem Job.unzip_eq : unzipToDir cwd openZipArchive req t₀ =
    (files.foldlM (putFile cwd req.destDir) ⟨t₀, []⟩).map
      fun d => ((files.headD ⟨[], .regular, []⟩).name.takeWhile (· ≠ '/'), d) := by
  have h_open := job.opens
  have h_blank := job.blank
  obtain ⟨first, rest, rfl⟩ := List.exists_cons_of_ne_nil job.nonempty
  unfold unzipToDir
  rw [if_neg (by simp [h_blank]), h_open]
  dsimp only
  cases (first :: rest).foldlM (putFile cwd req.destDir) ⟨t₀, []⟩ <;> rfl

theorem Job.of_put (h : Put cwd req.destDir t₀ files) :
    ∃ parentDir d, unzipToDir cwd openZipArchive req t₀ = .ok (parentDir, d) ∧
      Inv cwd req.destDir t₀ files d := by
  obtain ⟨d, h_run, h_inv⟩ := run_of_put job.tree job.plain h
  refine ⟨(files.headD ⟨[], .regular, []⟩).name.takeWhile (· ≠ '/'), d, ?_, h_inv⟩
  rw [job.unzip_eq, h_run]
  rfl

theorem Job.of_stop {pre post : List File} (h_split : files = pre ++ f :: post)
    (h_put : Put cwd req.destDir t₀ pre)
    (h_stop : Stops cwd req.destDir t₀ pre f ∨ climbs req.destDir f) :
    ∃ e d d', Inv cwd req.destDir t₀ pre d ∧
      unzipToDir cwd openZipArchive req t₀ = .error (e, d') ∧
      (Stops cwd req.destDir t₀ pre f ∧ d' = d ∨
        ¬Stops cwd req.destDir t₀ pre f ∧ climbs req.destDir f ∧
          d'.touched = d.touched ++ [.removed (target cwd req.destDir f)]) := by
  obtain ⟨e, d, d', h_inv, h_run, h_rest⟩ :=
    run_of_stop job.tree job.cwd_dir job.plain h_split h_put h_stop
  refine ⟨e, d, d', h_inv, ?_, h_rest⟩
  rw [job.unzip_eq, h_run]
  rfl

theorem Job.error_iff :
    (∃ e, unzipToDir cwd openZipArchive req t₀ = .error e) ↔ ¬Put cwd req.destDir t₀ files := by
  constructor
  · rintro ⟨e, h_run⟩ h_put
    obtain ⟨parentDir, d, h_ok, -⟩ := job.of_put h_put
    rw [h_ok] at h_run
    cases h_run
  · intro h
    obtain ⟨pre, f, post, h_split, h_put, h_stop⟩ := exists_stop h
    obtain ⟨e, d, d', -, h_run, -⟩ := job.of_stop h_split h_put h_stop
    exact ⟨_, h_run⟩

end Outcomes

theorem Meets.each {pre post : List File} (h : Meets cwd destDir t₀ files) (h_dest : destDir ≠ [])
    (h_split : files = pre ++ f :: post) (h_put : Put cwd destDir t₀ pre)
    (h_go : ¬Stops cwd destDir t₀ pre f) :
    resolve cwd destDir <+: target cwd destDir f ∨
      f.isDir = true ∧ t₀ (target cwd destDir f) = some .dir := by
  have h_legal : illegalPath destDir f = none := not_not.mp (not_or.mp h_go).1
  obtain h_parts | ⟨h_up, -⟩ | ⟨n, h_name⟩ := kinds destDir
  · exact absurd h_parts (legal_iff.mp h_legal).2.1
  · by_cases h_out : LeadsOutside cwd destDir f
    · exact .inr ((h.climbing h_up).1 pre f post h_split h_put h_go h_out)
    · rw [leadsOutside_iff h_dest h_legal, not_not] at h_out
      exact .inl h_out
  · obtain ⟨⟨ns, -, h_target⟩, -⟩ := @inside_of_name cwd _ _ _ h_name h_legal
    exact .inl (h_target ▸ List.prefix_append _ _)

theorem Meets.inside (h : Meets cwd destDir t₀ files) (h_dest : destDir ≠ []) (h_tree : IsTree t₀)
    {pre post : List File} (h_split : files = pre ++ post) (h_put : Put cwd destDir t₀ pre)
    (h_inv : Inv cwd destDir t₀ pre d) : ∀ x ∈ d.touched, resolve cwd destDir <+: x.place := by
  cases h_pre : pre with
  | nil =>
    -- nothing has been done yet
    intro x h_mem
    obtain ⟨f, h_f, -⟩ := h_inv.touched x h_mem
    rw [h_pre] at h_f
    exact absurd h_f List.not_mem_nil
  | cons first rest =>
    have h_first := (h_put [] first rest h_pre).1
    refine h_inv.inside h_tree (h.parent.resolve_right fun h_stops => ?_) fun f h_f => ?_
    · exact h_first (h_stops first (by rw [h_split, h_pre]; rfl))
    · obtain ⟨pre₁, pre₂, h_cut⟩ := List.append_of_mem h_f
      have h_whole : files = pre₁ ++ f :: (pre₂ ++ post) := by
        rw [h_split, h_cut, List.append_assoc]
        rfl
      refine h.each h_dest h_whole ?_ (h_put pre₁ f pre₂ h_cut).1
      · rw [h_cut] at h_put
        exact put_of_append h_put

theorem Meets.put (h : Meets cwd destDir t₀ files) (h_dest : destDir ≠ [])
    (h_proper : Proper files) : Put cwd destDir t₀ files := by
  obtain ⟨h_dot, h_root, h_each⟩ := h.accepts h_proper
  have h_parts : (cleanPath destDir).parts ≠ [] := fun h_nil => by
    obtain h_eq | h_eq := CleanPath.text_iff.mpr h_nil
    · exact h_root h_eq
    · exact h_dot h_eq
  have h_target : ∀ f ∈ files, target cwd destDir f = resolve cwd destDir ++ own f := fun f h_f =>
    (down_cases h_dest (h_proper.relative f h_f).1 (h_proper.relative f h_f).2).1
  rintro pre f post h_split
  have h_f : f ∈ files := by rw [h_split]; simp
  obtain ⟨h_own, h_free⟩ := h_each f h_f
  obtain ⟨-, h_legal, h_down⟩ :=
    @down_cases cwd _ _ h_dest (h_proper.relative f h_f).1 (h_proper.relative f h_f).2
  refine ⟨not_or.mpr ⟨not_not.mpr (h_legal.mpr ⟨h_parts, h_own⟩), ?_⟩, h_down h_own⟩
  rintro ⟨q, h_below, h_old | ⟨g, h_g, h_dir, rfl⟩⟩
  · exact h_free ⟨q, h_below, h_old⟩
  · -- a file of the archive on the way would have a name that starts this one
    have h_way : target cwd destDir g <+: target cwd destDir f := by
      refine h_below.trans ?_
      unfold needs
      split_ifs
      · exact List.prefix_rfl
      · obtain ⟨n, h_last⟩ | ⟨h_last, -⟩ :=
          last_cases_of_legal (h_legal.mpr ⟨h_parts, h_own⟩)
        · unfold target
          conv_rhs => rw [resolve_eq_move, h_last]
          exact List.prefix_append _ _
        · exact absurd ⟨by simp_all, h_last⟩ (h_down h_own)
    rw [h_target g (by rw [h_split]; simp [h_g]), h_target f h_f,
      List.prefix_append_right_inj] at h_way
    have h_apart := h_proper.apart
    rw [h_split, List.pairwise_append] at h_apart
    exact (h_apart.2.2 g h_g f List.mem_cons_self).1 h_dir h_way

/-! #### From the condition -/

section FromCondition

variable (job : Job cwd openZipArchive req t₀ files) (h : Meets cwd req.destDir t₀ files)

include job h

theorem Meets.touched_inside : ∀ x ∈ touchedBy (unzipToDir cwd openZipArchive req t₀),
    resolve cwd req.destDir <+: x.place := by
  have h_dest := job.destDir_ne_nil
  by_cases h_put : Put cwd req.destDir t₀ files
  · obtain ⟨parentDir, d, h_run, h_inv⟩ := job.of_put h_put
    rw [h_run]
    exact h.inside h_dest job.tree (List.append_nil files).symm h_put h_inv
  · obtain ⟨pre, f, post, h_split, h_pre, h_stop⟩ := exists_stop h_put
    obtain ⟨e, d, d', h_inv, h_run, h_end⟩ := job.of_stop h_split h_pre h_stop
    have h_before := h.inside h_dest job.tree h_split h_pre h_inv
    rw [h_run]
    show ∀ x ∈ d'.touched, _
    obtain ⟨-, rfl⟩ | ⟨h_go, h_climbs, h_touched⟩ := h_end
    · exact h_before
    · -- what is cleared lies inside, as it is no directory of the archive
      rw [h_touched]
      intro x h_mem
      obtain h_mem | h_mem := List.mem_append.mp h_mem
      · exact h_before x h_mem
      · rw [List.mem_singleton.mp h_mem]
        obtain h_in | ⟨h_dir, -⟩ := h.each h_dest h_split h_pre h_go
        · exact h_in
        · rw [h_climbs.1] at h_dir
          cases h_dir

theorem Meets.rejected (h_out : ∃ f ∈ files, LeadsOutside cwd req.destDir f) :
    ∃ e, unzipToDir cwd openZipArchive req t₀ = .error e := by
  rw [job.error_iff]
  intro h_put
  obtain ⟨f, h_f, h_leads⟩ := h_out
  obtain ⟨pre, post, h_split⟩ := List.append_of_mem h_f
  have h_legal : illegalPath req.destDir f = none :=
    not_not.mp (not_or.mp (h_put pre f post h_split).1).1
  obtain h_parts | ⟨h_up, -⟩ | ⟨n, h_name⟩ := kinds req.destDir
  · exact (legal_iff.mp h_legal).2.1 h_parts
  · obtain ⟨pre', g, post', h_split', h_stop⟩ := (h.climbing h_up).2 ⟨f, h_f, h_leads⟩
    exact (not_or.mpr (h_put pre' g post' h_split')) h_stop
  · obtain ⟨⟨ns, -, h_target⟩, -⟩ := @inside_of_name cwd _ _ _ h_name h_legal
    rw [leadsOutside_iff job.destDir_ne_nil h_legal, h_target] at h_leads
    exact h_leads (List.prefix_append _ _)

theorem Meets.accepted (h_proper : Proper files) :
    ∃ parentDir d, unzipToDir cwd openZipArchive req t₀ = .ok (parentDir, d) ∧
      ∀ f ∈ files, f.isDir = false →
        read d.tree (resolve (resolve cwd req.destDir) f.name) = some f.content := by
  have h_dest := job.destDir_ne_nil
  obtain ⟨parentDir, d, h_run, h_inv⟩ := job.of_put (h.put h_dest h_proper)
  refine ⟨parentDir, d, h_run, fun f h_f h_file => ?_⟩
  have h_target : ∀ g ∈ files,
      target cwd req.destDir g = resolve cwd req.destDir ++ own g := fun g h_g =>
    (down_cases h_dest (h_proper.relative g h_g).1 (h_proper.relative g h_g).2).1
  obtain ⟨pre, post, h_split⟩ := List.append_of_mem h_f
  have h_apart := h_proper.apart
  rw [h_split, List.pairwise_append, List.pairwise_cons] at h_apart
  have h_content := h_inv.content pre f post h_split h_file fun g h_g => by
    obtain ⟨h_one, h_other⟩ := h_apart.2.1.1 g h_g
    rw [h_target f h_f, h_target g (by rw [h_split]; simp [h_g]), List.prefix_append_right_inj,
      List.prefix_append_right_inj]
    exact ⟨h_one h_file, h_other⟩
  rw [resolve_relative _ (h_proper.relative f h_f).1, ← target_eq h_dest]
  unfold FileTree.read
  rw [h_content]

end FromCondition

/-! #### To the condition -/

section ToCondition

variable (job : Job cwd openZipArchive req t₀ files)
  (h : Contained cwd req.destDir files (unzipToDir cwd openZipArchive req t₀))

include job h

theorem Contained.climbs_inside {pre post : List File} (h_split : files = pre ++ f :: post)
    (h_put : Put cwd req.destDir t₀ pre) (h_go : ¬Stops cwd req.destDir t₀ pre f)
    (h_climbs : climbs req.destDir f) :
    resolve cwd req.destDir <+: target cwd req.destDir f := by
  obtain ⟨e, d, d', -, h_run, h_end⟩ := job.of_stop h_split h_put (.inr h_climbs)
  have h_in := h.inside
  rw [h_run] at h_in
  obtain ⟨h_stop, -⟩ | ⟨-, -, h_touched⟩ := h_end
  · exact absurd h_stop h_go
  · refine h_in (.removed (target cwd req.destDir f)) ?_
    show _ ∈ d'.touched
    rw [h_touched]
    exact List.mem_append_right _ (List.mem_singleton.mpr rfl)

theorem Contained.marks {pre post : List File} (h_split : files = pre ++ f :: post)
    (h_put : Put cwd req.destDir t₀ pre) (h_go : ¬Stops cwd req.destDir t₀ pre f)
    (h_down : ¬climbs req.destDir f) :
    ∃ done d, Inv cwd req.destDir t₀ done d ∧ f ∈ done ∧
      ∀ x ∈ d.touched, resolve cwd req.destDir <+: x.place := by
  have h_more := put_concat.mpr ⟨h_put, h_go, h_down⟩
  have h_in := h.inside
  by_cases h_all : Put cwd req.destDir t₀ files
  · obtain ⟨parentDir, d, h_run, h_inv⟩ := job.of_put h_all
    rw [h_run] at h_in
    exact ⟨files, d, h_inv, by rw [h_split]; simp, h_in⟩
  · obtain ⟨pre', g, post', h_split', h_put', h_stop⟩ := exists_stop h_all
    obtain ⟨e, d, d', h_inv, h_run, h_end⟩ := job.of_stop h_split' h_put' h_stop
    rw [h_run] at h_in
    refine ⟨pre', d, h_inv, prefix_of_put h_split' h_stop h_split h_more, fun x h_x => h_in x ?_⟩
    show x ∈ d'.touched
    obtain ⟨-, rfl⟩ | ⟨-, -, h_touched⟩ := h_end
    · exact h_x
    · rw [h_touched]
      exact List.mem_append_left _ h_x

theorem Contained.meets_accepts (h_proper : Proper files) :
    clean req.destDir ≠ ['.'] ∧ clean req.destDir ≠ ['/'] ∧
      ∀ f ∈ files, own f ≠ [] ∧ ¬Blocked t₀ (needs cwd req.destDir f) := by
  have h_dest := job.destDir_ne_nil
  have h_put : Put cwd req.destDir t₀ files := by
    by_contra h_not
    obtain ⟨e, h_error⟩ := job.error_iff.mpr h_not
    obtain ⟨parentDir, d, h_run, -⟩ := h.accepts h_proper
    rw [h_error] at h_run
    cases h_run
  have h_each : ∀ f ∈ files, ((cleanPath req.destDir).parts ≠ [] ∧ own f ≠ []) ∧
      ¬Blocked t₀ (needs cwd req.destDir f) := by
    intro f h_f
    obtain ⟨pre, post, h_split⟩ := List.append_of_mem h_f
    obtain ⟨h_legal, h_way⟩ := not_or.mp (h_put pre f post h_split).1
    rw [not_not] at h_legal
    refine ⟨?_, fun ⟨q, h_below, h_file⟩ => h_way ⟨q, h_below, .inl h_file⟩⟩
    obtain ⟨h_abs, h_down⟩ := h_proper.relative f h_f
    exact (@down_cases cwd _ _ h_dest h_abs h_down).2.1.mp h_legal
  obtain ⟨f, h_f⟩ := List.exists_mem_of_ne_nil files job.nonempty
  have h_parts := (h_each f h_f).1.1
  refine ⟨fun h_dot => h_parts (CleanPath.text_iff.mp (.inr h_dot)),
    fun h_root => h_parts (CleanPath.text_iff.mp (.inl h_root)), fun g h_g => ?_⟩
  exact ⟨(h_each g h_g).1.2, (h_each g h_g).2⟩

theorem Contained.meets_parent : t₀ (resolve cwd req.destDir).dropLast = some .dir ∨
    ∀ f ∈ files.head?, Stops cwd req.destDir t₀ [] f := by
  by_contra h_not
  rw [not_or] at h_not
  obtain ⟨h_parent, h_first⟩ := h_not
  simp only [not_forall] at h_first
  obtain ⟨f, h_head, h_go⟩ := h_first
  obtain ⟨rest, rfl⟩ : ∃ rest, files = f :: rest := by
    cases files with
    | nil => cases h_head
    | cons g rest => cases h_head; exact ⟨rest, rfl⟩
  have h_legal : illegalPath req.destDir f = none := not_not.mp (not_or.mp h_go).1
  obtain h_parts | ⟨-, h_names, h_rooted⟩ | ⟨n, h_name⟩ := kinds req.destDir
  · exact (legal_iff.mp h_legal).2.1 h_parts
  · -- a directory above the working one is there, and so is the one it is in
    exact h_parent (job.tree.dir_of_dir job.cwd_dir
      ((List.dropLast_prefix _).trans (dest_below h_names h_rooted)))
  · -- the missing directory above the destination is made for the first entry
    obtain ⟨⟨ns, h_ns, h_target⟩, h_down⟩ := @inside_of_name cwd _ _ _ h_name h_legal
    obtain ⟨done, d, h_inv, h_f, h_in⟩ :=
      Contained.marks job h rfl (fun pre g post h_split => by simp at h_split) h_go h_down
    have h_above : (resolve cwd req.destDir).dropLast <+: needs cwd req.destDir f := by
      refine (List.dropLast_prefix _).trans ?_
      unfold needs
      split_ifs with h_dir
      · rw [h_target]
        exact List.prefix_append _ _
      · obtain ⟨m, h_last⟩ | ⟨h_last, -⟩ := last_cases_of_legal h_legal
        · have h_cut : target cwd req.destDir f = _ := resolve_eq_move
          rw [h_last, h_target] at h_cut
          have h_short := congrArg List.dropLast h_cut
          rw [List.dropLast_append_of_ne_nil h_ns, move, List.dropLast_concat] at h_short
          rw [← h_short]
          exact List.prefix_append _ _
        · exact absurd ⟨by simpa using h_dir, h_last⟩ h_down
    have h_made := (h_inv.dirs f h_f _ h_above).resolve_left h_parent
    have h_len := (h_in _ h_made).length_le
    rw [Touch.place, List.length_dropLast] at h_len
    have h_root : resolve cwd req.destDir = [] := List.eq_nil_of_length_eq_zero (by omega)
    rw [h_root] at h_parent
    exact h_parent job.tree.root

theorem Contained.meets_climbing {pre post : List File} (h_split : files = pre ++ f :: post)
    (h_put : Put cwd req.destDir t₀ pre) (h_go : ¬Stops cwd req.destDir t₀ pre f)
    (h_out : LeadsOutside cwd req.destDir f) :
    f.isDir = true ∧ t₀ (target cwd req.destDir f) = some .dir := by
  have h_legal : illegalPath req.destDir f = none := not_not.mp (not_or.mp h_go).1
  rw [leadsOutside_iff job.destDir_ne_nil h_legal] at h_out
  by_cases h_climbs : climbs req.destDir f
  · exact absurd (Contained.climbs_inside job h h_split h_put h_go h_climbs) h_out
  obtain ⟨done, d, h_inv, h_f, h_in⟩ := Contained.marks job h h_split h_put h_go h_climbs
  cases h_dir : f.isDir with
  | false => exact absurd (h_in _ (h_inv.wrote f h_f h_dir)) h_out
  | true =>
    refine ⟨rfl, (h_inv.dirs f h_f _ ?_).resolve_right fun h_made => h_out (h_in _ h_made)⟩
    rw [needs, if_pos h_dir]

end ToCondition

/-- Unpacking stays inside, rejects and accepts as it should exactly under the condition. -/
theorem contained_iff (h_blank : req.destDir.all isSpace = false)
    (h_open : openZipArchive req.zipPath = .ok files) (h_some : files ≠ [])
    (h_plain : ∀ f ∈ files, f.unsupported = false) (h_tree : IsTree t₀)
    (h_cwd : t₀ cwd = some .dir) :
    Contained cwd req.destDir files (unzipToDir cwd openZipArchive req t₀) ↔
      Meets cwd req.destDir t₀ files := by
  have job : Job cwd openZipArchive req t₀ files :=
    ⟨h_blank, h_open, h_some, h_plain, h_tree, h_cwd⟩
  constructor
  · intro h
    refine ⟨Contained.meets_accepts job h, Contained.meets_parent job h, fun _ => ⟨?_, ?_⟩⟩
    · exact fun pre f post h_split => Contained.meets_climbing job h h_split
    · intro h_out
      obtain ⟨pre, f, post, h_split, -, h_stop⟩ := exists_stop (job.error_iff.mp (h.rejects h_out))
      exact ⟨pre, f, post, h_split, h_stop⟩
  · exact fun h => ⟨Meets.touched_inside job h, Meets.rejected job h, Meets.accepted job h⟩

section Examples

private def bare : Folder Bytes := fun p =>
  if p = [] ∨ p = ["srv"] ∨ p = ["srv", "app"] then some .dir else none

private theorem bare_isTree : IsTree bare := by
  refine ⟨rfl, fun p n h_some => ?_⟩
  have h_cases : p ++ [n] = [] ∨ p ++ [n] = ["srv"] ∨ p ++ [n] = ["srv", "app"] := by
    by_contra h_none
    exact h_some (if_neg h_none)
  obtain h | h | h := h_cases
  · simp at h
  all_goals
    have h_front := congrArg List.dropLast h
    rw [List.dropLast_concat] at h_front
    rw [h_front]
    rfl

private theorem not_blocked_bare (p : Place) : ¬Blocked bare p := by
  rintro ⟨q, -, b, h_file⟩
  unfold bare at h_file
  split_ifs at h_file
  cases h_file

private def packed : List File :=
  [⟨"conf/".toList, .directory, []⟩, ⟨"conf/a.yml".toList, .regular, [1, 2]⟩]

private def toOut : UnzipRequest := ⟨"a.zip".toList, "out".toList⟩

theorem contained_packed : Contained ["srv", "app"] toOut.destDir packed
    (unzipToDir ["srv", "app"] (fun _ => .ok packed) toOut bare) := by
  have h_plain : ∀ f ∈ packed, f.unsupported = false := by decide
  have h_own : ∀ f ∈ packed, own f ≠ [] := by decide
  refine (contained_iff (by decide) rfl (by decide) h_plain bare_isTree rfl).mpr ⟨?_, ?_, ?_⟩
  · exact fun _ => ⟨by decide, by decide, fun f h_f => ⟨h_own f h_f, not_blocked_bare _⟩⟩
  · exact .inl (if_pos (by decide))
  · exact fun h_up => absurd h_up (by decide)

/-- An entry of an archive for the directory above leads out of it. -/
theorem not_contained : ¬∀ (cwd : Place) (openZipArchive : Text → Except Refusal (List File))
    (req : UnzipRequest) (t₀ : Folder Bytes) (files : List File),
    req.destDir.all isSpace = false → openZipArchive req.zipPath = .ok files → files ≠ [] →
    (∀ f ∈ files, f.unsupported = false) → IsTree t₀ → t₀ cwd = some .dir →
    Contained cwd req.destDir files (unzipToDir cwd openZipArchive req t₀) := by
  intro h
  have h_in := (h ["srv", "app"] (fun _ => .ok [⟨"../evil".toList, .regular, [1]⟩])
    ⟨"a.zip".toList, "..".toList⟩ bare [⟨"../evil".toList, .regular, [1]⟩] (by decide) rfl
    (List.cons_ne_nil _ _) (by decide) bare_isTree rfl).inside
  have h_evil := h_in (.wrote ["evil"]) (by decide +kernel)
  exact absurd h_evil (by decide)

end Examples

end Main

end Unzip
end NatsExecutor

import Mathlib.Data.List.Infix

/-!
# File trees

A file tree gives each path a node, a directory or a file with its contents. Two operations change
it, and both can be refused: `mkdirs` makes the directories along a path, and `write` puts a file
where no directory is.

What a sequence of operations leaves is said by the list of its writes (`Leaves`): a path holds what
the last write to it wrote, and what it held before where there is none.
-/

namespace FileTree

abbrev Path := List String

inductive Node (β : Type*)
  | dir
  | file (contents : β)

/-- The refusals of the file system. -/
inductive Fault
  | notADirectory
  | isADirectory
  | notFound
deriving DecidableEq, Repr

abbrev Folder (β : Type*) := Path → Option (Node β)

section Operations

variable {β : Type*}

def empty : Folder β := fun p => if p = [] then some .dir else none

def read (t : Folder β) (p : Path) : Option β :=
  match t p with
  | some (.file b) => some b
  | _ => none

def mkdir (t : Folder β) (p : Path) : Except Fault (Folder β) :=
  match t p with
  | none => .ok (Function.update t p (some .dir))
  | some .dir => .ok t
  | some (.file _) => .error .notADirectory

def mkdirs (t : Folder β) (p : Path) : Except Fault (Folder β) := p.inits.foldlM mkdir t

/-- A file is written in a directory, over a file or where nothing is. The root is no file. -/
def write (t : Folder β) (p : Path) (b : β) : Except Fault (Folder β) :=
  if p = [] then .error .isADirectory
  else
    match t p.dropLast with
    | none => .error .notFound
    | some (.file _) => .error .notADirectory
    | some .dir =>
      match t p with
      | some .dir => .error .isADirectory
      | _ => .ok (Function.update t p (some (.file b)))

end Operations

/-! ### The writes of a run -/

section Writes

variable {β : Type*} {t t' t'' : Folder β} {p q : Path} {b : β} {ws ws' : List (Path × β)}

def lastAt : List (Path × β) → Path → Option β
  | [], _ => none
  | w :: ws, p => (lastAt ws p).or (if w.1 = p then some w.2 else none)

@[simp] theorem lastAt_nil : lastAt ([] : List (Path × β)) p = none := rfl

theorem lastAt_cons {w : Path × β} :
    lastAt (w :: ws) p = (lastAt ws p).or (if w.1 = p then some w.2 else none) := rfl

theorem lastAt_append : lastAt (ws ++ ws') p = (lastAt ws' p).or (lastAt ws p) := by
  induction ws with
  | nil => simp
  | cons w ws ih => rw [List.cons_append, lastAt_cons, ih, lastAt_cons, Option.or_assoc]

theorem lastAt_eq_none (h : ∀ w ∈ ws, w.1 ≠ p) : lastAt ws p = none := by
  induction ws with
  | nil => rfl
  | cons w ws ih =>
    rw [lastAt_cons, ih fun w' h_mem => h w' (List.mem_cons_of_mem w h_mem),
      if_neg (h w List.mem_cons_self)]
    rfl

theorem lastAt_eq_some (h_mem : (p, b) ∈ ws) (h_same : ∀ w ∈ ws, w.1 = p → w.2 = b) :
    lastAt ws p = some b := by
  induction ws with
  | nil => exact absurd h_mem List.not_mem_nil
  | cons w ws ih =>
    rw [lastAt_cons]
    by_cases h_later : (p, b) ∈ ws
    · rw [ih h_later fun w' h_in => h_same w' (List.mem_cons_of_mem w h_in)]
      rfl
    · -- a later write to the path would be one more copy of this one
      have h_none : lastAt ws p = none := by
        refine lastAt_eq_none fun w' h_in h_at => h_later ?_
        rw [← h_at, ← h_same w' (List.mem_cons_of_mem w h_in) h_at]
        exact h_in
      obtain h_head | h_in := List.mem_cons.mp h_mem
      · rw [h_none, ← h_head]
        simp
      · exact absurd h_in h_later

/-- From `t` to `t'` the files change by the writes, and by nothing else. -/
def Leaves (t t' : Folder β) (ws : List (Path × β)) : Prop :=
  ∀ p, read t' p = (lastAt ws p).or (read t p)

theorem Leaves.refl : Leaves t t [] := fun _ => rfl

theorem Leaves.trans (h : Leaves t t' ws) (h' : Leaves t' t'' ws') :
    Leaves t t'' (ws ++ ws') := by
  intro p
  rw [h' p, h p, lastAt_append, Option.or_assoc]

@[simp] theorem read_empty : read (empty : Folder β) p = none := by
  unfold read empty
  split_ifs <;> rfl

theorem mkdir_leaves (h : mkdir t p = .ok t') : Leaves t t' [] := by
  unfold mkdir at h
  split at h
  next h_free =>
    cases h
    intro q
    by_cases h_at : q = p
    · subst h_at
      simp [read, h_free]
    · simp [read, Function.update_of_ne h_at]
  next => cases h; exact .refl
  next => cases h

theorem mkdirs_leaves (h : mkdirs t p = .ok t') : Leaves t t' [] := by
  unfold mkdirs at h
  generalize p.inits = ps at h
  induction ps generalizing t with
  | nil => cases h; exact .refl
  | cons q ps ih =>
    rw [List.foldlM_cons] at h
    cases h_made : mkdir t q with
    | error e => rw [h_made] at h; cases h
    | ok t₁ =>
      rw [h_made] at h
      exact (mkdir_leaves h_made).trans (ih h)

theorem write_leaves (h : write t p b = .ok t') : Leaves t t' [(p, b)] := by
  have h_update : t' = Function.update t p (some (.file b)) := by
    unfold write at h
    repeat' split at h
    all_goals first | cases h; rfl | cases h
  intro q
  rw [h_update, lastAt_cons]
  by_cases h_at : p = q
  · subst h_at
    simp [read]
  · simp [read, h_at, Function.update_of_ne (Ne.symm h_at)]

theorem ne_nil_of_write (h : write t p b = .ok t') : p ≠ [] := by
  rintro rfl
  cases h

end Writes

/-! ### Trees -/

section Trees

variable {β : Type*} {t t' : Folder β} {p q : Path} {n : String} {b : β}

/-- What is there is in a directory, the root apart. -/
structure IsTree (t : Folder β) : Prop where
  root : t [] = some .dir
  parent : ∀ p n, t (p ++ [n]) ≠ none → t p = some .dir

def IsFile (t : Folder β) (p : Path) : Prop := ∃ b, t p = some (.file b)

def Blocked (t : Folder β) (p : Path) : Prop := ∃ q, q <+: p ∧ IsFile t q

def withDirs (t : Folder β) (p : Path) : Folder β := fun q => if q <+: p then some .dir else t q

def removeAll (t : Folder β) (p : Path) : Folder β := fun q => if p <+: q then none else t q

def clear (t : Folder β) (p : Path) : Folder β := fun q => if p <+: q ∧ p ≠ q then none else t q

def withFile (t : Folder β) (p : Path) (n : String) (b : β) : Folder β := fun q =>
  if p ++ [n] <+: q then if q = p ++ [n] then some (.file b) else none
  else withDirs t p q

theorem Blocked.extend (h : Blocked t q) (h_below : q <+: p) : Blocked t p := by
  obtain ⟨r, h_r, h_file⟩ := h
  exact ⟨r, h_r.trans h_below, h_file⟩

theorem mkdirs_of_free (h : ¬Blocked t p) : mkdirs t p = .ok (withDirs t p) := by
  have h_run : ∀ (ps : List Path) (t : Folder β), (∀ q ∈ ps, ¬IsFile t q) →
      ps.foldlM mkdir t = .ok fun q => if q ∈ ps then some .dir else t q := by
    intro ps
    induction ps with
    | nil => simp [pure, Except.pure]
    | cons r ps ih =>
      intro t h_free
      have h_made : mkdir t r = .ok (Function.update t r (some .dir)) := by
        unfold mkdir
        split
        next => rfl
        next h_dir => rw [← h_dir, Function.update_eq_self]
        next b h_file => exact absurd ⟨b, h_file⟩ (h_free r List.mem_cons_self)
      rw [List.foldlM_cons, h_made]
      show ps.foldlM mkdir (Function.update t r (some .dir)) = _
      rw [ih]
      · congr 1
        funext q
        by_cases h_at : q = r
        · simp [h_at]
        · simp [h_at]
      · rintro q h_mem ⟨b, h_file⟩
        by_cases h_at : q = r
        · simp [h_at] at h_file
        · rw [Function.update_of_ne h_at] at h_file
          exact h_free q (List.mem_cons_of_mem r h_mem) ⟨b, h_file⟩
  unfold mkdirs
  rw [h_run p.inits t fun q h_mem h_file => h ⟨q, (List.mem_inits q p).mp h_mem, h_file⟩]
  congr 1
  funext q
  simp [withDirs]

theorem mkdirs_of_blocked (h : Blocked t p) : mkdirs t p = .error .notADirectory := by
  have h_run : ∀ (ps : List Path) (t : Folder β), (∃ q ∈ ps, IsFile t q) →
      ps.foldlM mkdir t = .error .notADirectory := by
    intro ps
    induction ps with
    | nil =>
      rintro t ⟨q, h_mem, -⟩
      exact absurd h_mem List.not_mem_nil
    | cons r ps ih =>
      rintro t ⟨q, h_mem, h_file⟩
      rw [List.foldlM_cons]
      by_cases h_here : IsFile t r
      · obtain ⟨b, h_here⟩ := h_here
        simp [mkdir, h_here, bind, Except.bind]
      · have h_at : q ≠ r := fun h_eq => h_here (h_eq ▸ h_file)
        have h_later : q ∈ ps := (List.mem_cons.mp h_mem).resolve_left h_at
        obtain ⟨t', h_made, h_same⟩ : ∃ t', mkdir t r = .ok t' ∧ t' q = t q := by
          unfold mkdir
          split
          next => exact ⟨_, rfl, Function.update_of_ne h_at _ _⟩
          next => exact ⟨t, rfl, rfl⟩
          next b h_r => exact absurd ⟨b, h_r⟩ h_here
        obtain ⟨b, h_b⟩ := h_file
        rw [h_made]
        exact ih t' ⟨q, h_later, b, h_same.trans h_b⟩
  obtain ⟨q, h_below, h_file⟩ := h
  exact h_run p.inits t ⟨q, (List.mem_inits q p).mpr h_below, h_file⟩

theorem isFile_withDirs (h : ¬Blocked t p) : IsFile (withDirs t p) q ↔ IsFile t q := by
  unfold IsFile withDirs
  split_ifs with h_below
  · constructor
    · rintro ⟨b, h_file⟩
      cases h_file
    · exact fun h_file => absurd ⟨q, h_below, h_file⟩ h
  · rfl

theorem isFile_withFile (h : ¬Blocked t p) :
    IsFile (withFile t p n b) q ↔ q = p ++ [n] ∨ IsFile t q ∧ ¬p ++ [n] <+: q := by
  rw [← isFile_withDirs h]
  unfold withFile
  by_cases h_below : p ++ [n] <+: q
  · by_cases h_at : q = p ++ [n] <;> simp [IsFile, h_at, h_below]
  · have h_ne : q ≠ p ++ [n] := fun h_eq => h_below (h_eq ▸ List.prefix_rfl)
    simp [IsFile, h_ne, h_below]

theorem dir_withFile (h : t q = some .dir) :
    withFile t p n b q = some .dir ∨ p ++ [n] <+: q := by
  by_cases h_below : p ++ [n] <+: q
  · exact .inr h_below
  · unfold withFile withDirs
    rw [if_neg h_below, h, ite_self]
    exact .inl rfl

namespace IsTree

variable (h : IsTree t)

include h in
theorem dir_of_below (h_some : t p ≠ none) (h_below : q <+: p) (h_ne : q ≠ p) :
    t q = some .dir := by
  obtain ⟨r, rfl⟩ := h_below
  induction r using List.reverseRecOn with
  | nil => exact absurd (List.append_nil q).symm h_ne
  | append_singleton r n ih =>
    rw [← List.append_assoc] at h_some
    have h_dir := h.parent (q ++ r) n h_some
    obtain rfl | h_more := eq_or_ne r []
    · rwa [List.append_nil] at h_dir
    · refine ih ?_ ?_
      · rw [h_dir]
        exact Option.some_ne_none _
      · simpa using h_more

include h in
theorem dir_of_dir (h_dir : t p = some .dir) (h_below : q <+: p) : t q = some .dir := by
  obtain rfl | h_ne := eq_or_ne q p
  · exact h_dir
  · exact h.dir_of_below (h_dir ▸ Option.some_ne_none _) h_below h_ne

include h in
theorem withDirs : IsTree (withDirs t p) := by
  constructor
  · simp [FileTree.withDirs]
  · intro q n h_some
    unfold FileTree.withDirs at h_some ⊢
    split_ifs with h_below
    · rfl
    · split_ifs at h_some with h_longer
      · exact absurd ((List.prefix_append q [n]).trans h_longer) h_below
      · exact h.parent q n h_some

include h in
theorem withFile : IsTree (withFile t p n b) := by
  have h_tree : IsTree (FileTree.withDirs t p) := h.withDirs
  have h_root : ¬p ++ [n] <+: [] := by simp
  constructor
  · unfold FileTree.withFile
    rw [if_neg h_root]
    exact h_tree.root
  · intro q m h_some
    unfold FileTree.withFile at h_some ⊢
    by_cases h_below : p ++ [n] <+: q
    · -- nothing is left below the file
      have h_longer : p ++ [n] <+: q ++ [m] := h_below.trans (List.prefix_append q [m])
      have h_ne : q ++ [m] ≠ p ++ [n] := fun h_eq => by
        have h_len := h_below.length_le
        rw [← h_eq, List.length_append, List.length_singleton] at h_len
        omega
      rw [if_pos h_longer, if_neg h_ne] at h_some
      exact absurd rfl h_some
    · rw [if_neg h_below]
      by_cases h_longer : p ++ [n] <+: q ++ [m]
      · have h_eq : p ++ [n] = q ++ [m] :=
          (List.prefix_concat_iff.mp h_longer).resolve_right h_below
        have h_q : q = p := (List.append_inj_left' h_eq rfl).symm
        rw [h_q]
        simp [FileTree.withDirs]
      · rw [if_neg h_longer] at h_some
        exact h_tree.parent q m h_some

end IsTree

end Trees

end FileTree

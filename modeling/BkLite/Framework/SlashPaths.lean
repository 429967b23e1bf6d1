import Mathlib.Data.List.DropRight
import Mathlib.Data.List.Infix

/-!
# Texts of paths with slashes

A text names a path by its parts between slashes: a part is a name, the place itself (`.` or
nothing), or the directory above (`..`). Where such a text leads from a working directory is
`resolve`; links are left out, so that `..` undoes a name.
-/

namespace SlashPath

abbrev Text := List Char

abbrev Place := List String

/-! ### Parts -/

/-- A part of a path that leads to an entry of a directory. -/
structure Name where
  str : String
  proper : str ≠ "" ∧ str ≠ "." ∧ str ≠ ".." ∧ '/' ∉ str.toList
deriving DecidableEq

/-- What a part of a path does. -/
inductive Elem
  | here
  | up
  | name (n : Name)
deriving DecidableEq

def Elem.of (part : Text) : Elem :=
  let s := String.ofList part
  if h : s ≠ "" ∧ s ≠ "." ∧ s ≠ ".." ∧ '/' ∉ s.toList then .name ⟨s, h⟩
  else if s = ".." then .up
  else .here

def isAbs (s : Text) : Bool := s.head? = some '/'

def elems (s : Text) : List Elem := (s.splitOn '/').map .of

/-! ### Where a text leads -/

def move (p : Place) : Elem → Place
  | .here => p
  | .up => p.dropLast
  | .name n => p ++ [n.str]

def resolve (cwd : Place) (s : Text) : Place :=
  (elems s).foldl move (if isAbs s then [] else cwd)

/-! ### Cleaning -/

/-- The root or some steps up, and then names. -/
structure CleanPath where
  rooted : Bool
  ups : ℕ
  names : List Name
  ups_of_rooted : rooted = true → ups = 0
deriving DecidableEq

namespace CleanPath

def start (rooted : Bool) : CleanPath := ⟨rooted, 0, [], fun _ => rfl⟩

/-- A part more: `..` takes the last name away, or adds itself where there is none and no root. -/
def step (c : CleanPath) : Elem → CleanPath
  | .here => c
  | .name n => { c with names := c.names ++ [n] }
  | .up =>
    if c.names ≠ [] then { c with names := c.names.dropLast }
    else if h : c.rooted = true then c
    else { c with ups := c.ups + 1, ups_of_rooted := fun h' => absurd h' h }

def parts (c : CleanPath) : List Text :=
  List.replicate c.ups ['.', '.'] ++ c.names.map fun n => n.str.toList

def text (c : CleanPath) : Text :=
  if c.rooted then '/' :: ['/'].intercalate c.parts
  else if c.parts = [] then ['.']
  else ['/'].intercalate c.parts

def place (cwd : Place) (c : CleanPath) : Place :=
  (if c.rooted then [] else cwd.take (cwd.length - c.ups)) ++ c.names.map (·.str)

end CleanPath

def cleanPath (s : Text) : CleanPath := (elems s).foldl .step (.start (isAbs s))

def clean (s : Text) : Text := (cleanPath s).text

/-- `filepath.Join` of two elements, the first one not empty. -/
def join (s s' : Text) : Text := clean (s ++ '/' :: s')

def dir (s : Text) : Text := clean (s.rdropWhile (· ≠ '/'))

def lastElem (s : Text) : Elem := .of (s.rtakeWhile (· ≠ '/'))

/-! ### The parts of a text -/

section Parts

variable {s s' part : Text}

@[simp] theorem of_nil : Elem.of [] = .here := by decide

@[simp] theorem of_dot : Elem.of ['.'] = .here := by decide

@[simp] theorem of_dots : Elem.of ['.', '.'] = .up := by decide

@[simp] theorem of_name (n : Name) : Elem.of n.str.toList = .name n := by
  unfold Elem.of
  simp only [String.ofList_toList]
  rw [dif_pos n.proper]

theorem elems_append : elems (s ++ '/' :: s') = elems s ++ elems s' := by
  unfold elems
  rw [List.splitOn_append_cons_self, List.map_append]

theorem elems_of_notMem (h : '/' ∉ part) : elems part = [.of part] := by
  unfold elems
  rw [List.splitOn_eq_singleton h]
  rfl

theorem isAbs_append (h : s ≠ []) : isAbs (s ++ s') = isAbs s := by
  obtain ⟨c, cs, rfl⟩ := List.exists_cons_of_ne_nil h
  rfl

theorem last_cases (s : Text) :
    (s.rdropWhile (· ≠ '/') = [] ∧ '/' ∉ s ∧ s.rtakeWhile (· ≠ '/') = s) ∨
      ∃ s₁ x, s = s₁ ++ '/' :: x ∧ '/' ∉ x ∧ s.rdropWhile (· ≠ '/') = s₁ ++ ['/'] ∧
        s.rtakeWhile (· ≠ '/') = x := by
  have h_split := @List.rdropWhile_append_rtakeWhile _ (fun c => decide (c ≠ '/')) s
  have h_last : '/' ∉ s.rtakeWhile (· ≠ '/') := fun h_mem => by
    simpa using List.mem_rtakeWhile_imp h_mem
  obtain h_nil | h_some := eq_or_ne (s.rdropWhile (· ≠ '/')) []
  · rw [h_nil, List.nil_append] at h_split
    exact .inl ⟨h_nil, h_split ▸ h_last, h_split⟩
  · refine .inr ⟨(s.rdropWhile (· ≠ '/')).dropLast, s.rtakeWhile (· ≠ '/'), ?_, h_last, ?_, rfl⟩
    all_goals
      have h_slash := List.rdropWhile_last_not (fun c => decide (c ≠ '/')) s h_some
      have h_end : (s.rdropWhile (· ≠ '/')).getLast h_some = '/' := by simpa using h_slash
      have h_cut := List.dropLast_append_getLast h_some
      rw [h_end] at h_cut
    · rw [← List.singleton_append, ← List.append_assoc, h_cut]
      exact h_split.symm
    · exact h_cut.symm

end Parts

/-! ### Cleaning leads to the same place -/

section Places

variable {s s' : Text} {cwd p : Place} {c c' : CleanPath} {e : Elem}

theorem place_step : (c.step e).place cwd = move (c.place cwd) e := by
  cases e with
  | here => rfl
  | name n =>
    show _ ++ (c.names ++ [n]).map _ = _ ++ c.names.map _ ++ [n.str]
    rw [List.map_append, ← List.append_assoc]
    rfl
  | up =>
    by_cases h_names : c.names = []
    · have h_place : c.place cwd = if c.rooted then [] else cwd.take (cwd.length - c.ups) := by
        rw [CleanPath.place, h_names, List.map_nil, List.append_nil]
      by_cases h_rooted : c.rooted = true
      · simp [CleanPath.step, h_names, h_rooted, h_place, move]
      · -- one directory more that is left upwards
        have h_step : c.step .up = ⟨c.rooted, c.ups + 1, c.names, fun h => absurd h h_rooted⟩ := by
          simp [CleanPath.step, h_names, h_rooted]
        rw [h_step, h_place, if_neg h_rooted]
        show (if c.rooted then _ else _) ++ c.names.map _ = (List.take _ cwd).dropLast
        rw [if_neg h_rooted, h_names, List.map_nil, List.append_nil, List.dropLast_eq_take,
          List.length_take, List.take_take]
        congr 1
        show cwd.length - (c.ups + 1) = _
        omega
    · have h_map : c.names.map (·.str) ≠ [] := by simpa using h_names
      have h_step : c.step .up = { c with names := c.names.dropLast } := by
        simp [CleanPath.step, h_names]
      rw [h_step]
      show _ ++ c.names.dropLast.map _ = (_ ++ c.names.map _).dropLast
      rw [List.map_dropLast, List.dropLast_append_of_ne_nil h_map]

theorem place_foldl (es : List Elem) (c : CleanPath) :
    (es.foldl .step c).place cwd = es.foldl move (c.place cwd) := by
  induction es generalizing c with
  | nil => rfl
  | cons e es ih => rw [List.foldl_cons, List.foldl_cons, ih, place_step]

theorem place_cleanPath : (cleanPath s).place cwd = resolve cwd s := by
  unfold cleanPath resolve
  rw [place_foldl]
  congr 1
  simp [CleanPath.place, CleanPath.start]

theorem cleanPath_append (h : s ≠ []) :
    cleanPath (s ++ '/' :: s') = (elems s').foldl .step (cleanPath s) := by
  unfold cleanPath
  rw [elems_append, List.foldl_append, isAbs_append h]

theorem resolve_append (h : s ≠ []) :
    resolve cwd (s ++ '/' :: s') = (elems s').foldl move (resolve cwd s) := by
  unfold resolve
  rw [elems_append, List.foldl_append, isAbs_append h]

end Places

/-! ### The text of a cleaned path -/

section Texts

variable {s : Text} {cwd : Place} {c c' : CleanPath}

namespace CleanPath

def elems (c : CleanPath) : List Elem := List.replicate c.ups .up ++ c.names.map .name

theorem map_parts : c.parts.map Elem.of = c.elems := by
  simp [parts, elems, Function.comp_def]

theorem notMem_part {part : Text} (h : part ∈ c.parts) : '/' ∉ part := by
  obtain h_up | h_name := List.mem_append.mp h
  · rw [List.eq_of_mem_replicate h_up]
    decide
  · obtain ⟨n, -, rfl⟩ := List.mem_map.mp h_name
    exact n.proper.2.2.2

theorem part_ne_nil {part : Text} (h : part ∈ c.parts) : part ≠ [] ∧ part ≠ ['.'] := by
  obtain h_up | h_name := List.mem_append.mp h
  · rw [List.eq_of_mem_replicate h_up]
    decide
  · obtain ⟨n, -, rfl⟩ := List.mem_map.mp h_name
    exact ⟨fun h_eq => n.proper.1 (String.toList_injective h_eq),
      fun h_eq => n.proper.2.1 (String.toList_injective h_eq)⟩

theorem splitOn_text : c.text.splitOn '/' =
    (if c.rooted then [[]] else []) ++
      if c.parts = [] then [if c.rooted then [] else ['.']] else c.parts := by
  have h_split : c.parts ≠ [] → (['/'].intercalate c.parts).splitOn '/' = c.parts :=
    List.splitOn_intercalate '/' fun part h_mem => notMem_part h_mem
  have h_root : ∀ t : Text, ('/' :: t).splitOn '/' = [] :: t.splitOn '/' := fun t => by
    rw [List.splitOn_cons_eq_if_modifyHead]
    rfl
  unfold text
  split_ifs with h_rooted h_parts h_parts
  · rw [h_parts]
    rfl
  · rw [h_root, h_split h_parts]
    rfl
  · rfl
  · exact h_split h_parts

theorem elems_text : SlashPath.elems c.text =
    (if c.rooted then [.here] else []) ++ if c.parts = [] then [.here] else c.elems := by
  unfold SlashPath.elems
  rw [splitOn_text, List.map_append, ← map_parts]
  split_ifs <;> simp

theorem isAbs_text : isAbs c.text = c.rooted := by
  unfold text
  split_ifs with h_rooted h_parts
  · rw [h_rooted]
    rfl
  · rw [Bool.not_eq_true] at h_rooted
    rw [h_rooted]
    rfl
  · rw [Bool.not_eq_true] at h_rooted
    rw [h_rooted]
    obtain ⟨part, rest, h_cons⟩ := List.exists_cons_of_ne_nil h_parts
    have h_mem : part ∈ c.parts := h_cons ▸ List.mem_cons_self
    obtain ⟨a, as, rfl⟩ := List.exists_cons_of_ne_nil (part_ne_nil h_mem).1
    have h_slash : '/' ≠ a := fun h => notMem_part h_mem (h ▸ List.mem_cons_self)
    rw [h_cons, List.intercalate_cons_cons_left]
    simpa [isAbs] using h_slash.symm

theorem foldl_elems : c.elems.foldl step (.start c.rooted) = c := by
  obtain ⟨rooted, ups, names, h_ups⟩ := c
  have h_up : ∀ k (h : rooted = true → k = 0),
      (List.replicate k Elem.up).foldl step (start rooted) = ⟨rooted, k, [], h⟩ := by
    intro k h
    induction k with
    | zero => rfl
    | succ k ih =>
      have h_rooted : ¬rooted = true := fun h_root => Nat.succ_ne_zero k (h h_root)
      rw [List.replicate_succ', List.foldl_append, ih fun h_root => absurd h_root h_rooted]
      simp [step, h_rooted]
  have h_names : ∀ ns₁ ns₂ : List Name, (ns₂.map Elem.name).foldl step ⟨rooted, ups, ns₁, h_ups⟩ =
      ⟨rooted, ups, ns₁ ++ ns₂, h_ups⟩ := by
    intro ns₁ ns₂
    induction ns₂ generalizing ns₁ with
    | nil => simp
    | cons n ns₂ ih =>
      rw [List.map_cons, List.foldl_cons]
      show (ns₂.map Elem.name).foldl step ⟨rooted, ups, ns₁ ++ [n], h_ups⟩ = _
      rw [ih, List.append_assoc]
      rfl
  show (List.replicate ups Elem.up ++ names.map Elem.name).foldl step (start rooted) = _
  rw [List.foldl_append, h_up ups h_ups, h_names]
  rfl

theorem cleanPath_text : cleanPath c.text = c := by
  unfold cleanPath
  rw [elems_text, isAbs_text, List.foldl_append]
  have h_here : (if c.rooted then [Elem.here] else []).foldl step (start c.rooted) =
      start c.rooted := by
    split_ifs <;> rfl
  rw [h_here]
  split_ifs with h_parts
  · -- without a part there is nothing to build
    have h_elems : c.elems = [] := by rw [← map_parts, h_parts, List.map_nil]
    have h_built := @foldl_elems c
    rw [h_elems] at h_built
    exact h_built
  · exact foldl_elems

end CleanPath

theorem resolve_clean : resolve cwd (clean s) = resolve cwd s := by
  rw [← place_cleanPath, clean, CleanPath.cleanPath_text, place_cleanPath]

theorem elems_eq_concat : elems s = (elems s).dropLast ++ [lastElem s] := by
  unfold lastElem
  obtain ⟨-, h_slash, h_last⟩ | ⟨s₁, x, h_s, h_slash, -, h_last⟩ := last_cases s
  · rw [h_last, elems_of_notMem h_slash]
    rfl
  · rw [h_last, h_s, elems_append, elems_of_notMem h_slash, List.dropLast_concat]

theorem resolve_dir : resolve cwd (dir s) =
    (elems s).dropLast.foldl move (if isAbs s then [] else cwd) := by
  unfold dir
  rw [resolve_clean]
  obtain ⟨h_dir, h_slash, -⟩ | ⟨s₁, x, h_s, h_slash, h_dir, -⟩ := last_cases s
  · have h_abs : isAbs s = false := by
      cases s with
      | nil => rfl
      | cons c cs =>
        have h_ne : '/' ≠ c := fun h => h_slash (h ▸ List.mem_cons_self)
        simpa [isAbs] using h_ne.symm
    rw [h_dir, elems_of_notMem h_slash, h_abs]
    rfl
  · have h_abs : isAbs (s₁ ++ '/' :: x) = isAbs (s₁ ++ ['/']) := by cases s₁ <;> rfl
    rw [h_dir, h_s, elems_append, elems_of_notMem h_slash, List.dropLast_concat, h_abs]
    unfold resolve
    rw [elems_append, List.foldl_append]
    rfl

theorem resolve_eq_move : resolve cwd s = move (resolve cwd (dir s)) (lastElem s) := by
  rw [resolve_dir]
  unfold resolve
  conv_lhs => rw [elems_eq_concat, List.foldl_append]
  rfl

namespace CleanPath

theorem elems_ne_nil (h : c.parts ≠ []) : c.elems ≠ [] := by
  rw [← map_parts]
  exact fun h_nil => h (List.map_eq_nil_iff.mp h_nil)

theorem getLast?_elems (h : c.parts ≠ []) : c.elems.getLast? = some (lastElem c.text) := by
  have h_cut := @SlashPath.elems_eq_concat c.text
  rw [elems_text, if_neg h] at h_cut
  have h_last := congrArg List.getLast? h_cut
  rw [List.getLast?_concat, List.getLast?_append_of_ne_nil _ (elems_ne_nil h)] at h_last
  exact h_last

theorem lastElem_name (h : c.names ≠ []) :
    ∃ ns n, c.names = ns ++ [n] ∧ lastElem c.text = .name n := by
  have h_parts : c.parts ≠ [] := by simp [parts, h]
  have h_last := getLast?_elems h_parts
  have h_cut := List.dropLast_append_getLast h
  refine ⟨_, _, h_cut.symm, ?_⟩
  rw [elems, ← h_cut, List.map_append, List.map_singleton, ← List.append_assoc,
    List.getLast?_concat] at h_last
  exact (Option.some.inj h_last).symm

theorem lastElem_up (h : c.names = []) (h_ups : c.ups ≠ 0) : lastElem c.text = .up := by
  obtain ⟨k, h_k⟩ := Nat.exists_eq_succ_of_ne_zero h_ups
  have h_parts : c.parts ≠ [] := by simp [parts, h_k, List.replicate_succ]
  have h_last := getLast?_elems h_parts
  rw [elems, h, h_k, List.map_nil, List.append_nil, List.replicate_succ', List.getLast?_concat]
    at h_last
  exact (Option.some.inj h_last).symm

theorem text_iff : c.text = ['/'] ∨ c.text = ['.'] ↔ c.parts = [] := by
  constructor
  · rintro (h | h)
    all_goals
      by_contra h_parts
      have h_split := @splitOn_text c
      obtain ⟨part, rest, h_cons⟩ := List.exists_cons_of_ne_nil h_parts
      have h_ne := part_ne_nil (h_cons ▸ List.mem_cons_self : part ∈ c.parts)
      rw [h, if_neg h_parts, h_cons] at h_split
      cases h_root : c.rooted <;> rw [h_root] at h_split <;>
        simp [List.splitOn_cons_eq_if_modifyHead] at h_split
      all_goals simp_all
  · intro h
    unfold text
    rw [if_pos h, h]
    split_ifs
    · exact .inl rfl
    · exact .inr rfl

theorem names_of_elems_append {es : List Elem} (h : c'.elems = c.elems ++ es)
    (h_names : c.names ≠ []) :
    c'.ups = c.ups ∧ ∃ ns, c'.names = c.names ++ ns ∧ es = ns.map .name := by
  have h_while : ∀ (k : ℕ) (ns : List Name) (es : List Elem),
      (ns = [] → es = []) →
      (List.replicate k Elem.up ++ (ns.map Elem.name ++ es)).takeWhile (· = .up) =
        List.replicate k .up := by
    intro k ns es h_end
    induction k with
    | zero =>
      cases ns with
      | nil => simp [h_end rfl]
      | cons n ns => simp
    | succ k ih => simp [List.replicate_succ, ih]
  have h_eq : List.replicate c'.ups Elem.up ++ (c'.names.map .name ++ []) =
      List.replicate c.ups .up ++ (c.names.map .name ++ es) := by
    rw [List.append_nil, ← List.append_assoc]
    exact h
  have h_ups : c'.ups = c.ups := by
    have h_both := congrArg (List.takeWhile (· = Elem.up)) h_eq
    rw [h_while _ _ _ fun _ => rfl, h_while _ _ _ fun h_nil => absurd h_nil h_names] at h_both
    simpa using congrArg List.length h_both
  rw [h_ups] at h_eq
  obtain ⟨ns₁, ns₂, h_cut, h₁, h₂⟩ := List.map_eq_append_iff.mp
    ((List.append_nil _).symm.trans (List.append_cancel_left h_eq))
  have h_inj : Function.Injective Elem.name := fun _ _ h_name => Elem.name.inj h_name
  rw [h_inj.list_map h₁] at h_cut
  exact ⟨h_ups, ns₂, h_cut, h₂.symm⟩

end CleanPath

theorem exists_names_of_down {es : List Elem} (h : .up ∉ es) : ∃ ns : List Name,
    (∀ c : CleanPath, (es.foldl .step c).rooted = c.rooted ∧ (es.foldl .step c).ups = c.ups ∧
      (es.foldl .step c).names = c.names ++ ns) ∧
    ∀ p, es.foldl move p = p ++ ns.map (·.str) := by
  induction es with
  | nil =>
    refine ⟨[], fun c => ⟨rfl, rfl, (List.append_nil c.names).symm⟩, fun p => ?_⟩
    exact (List.append_nil p).symm
  | cons e es ih =>
    rw [List.mem_cons, not_or] at h
    obtain ⟨ns, h_step, h_move⟩ := ih h.2
    cases e with
    | up => exact absurd rfl h.1
    | here => exact ⟨ns, h_step, h_move⟩
    | name n =>
      refine ⟨n :: ns, fun c => ?_, fun p => ?_⟩
      · obtain ⟨h_rooted, h_ups, h_names⟩ := h_step (c.step (.name n))
        refine ⟨h_rooted, h_ups, h_names.trans ?_⟩
        show (c.names ++ [n]) ++ ns = _
        rw [List.append_assoc]
        rfl
      · rw [List.foldl_cons, h_move]
        show (p ++ [n.str]) ++ _ = _
        rw [List.append_assoc]
        rfl

theorem intercalate_append {ps zs : List Text} (h : ps ≠ []) (h' : zs ≠ []) :
    ['/'].intercalate (ps ++ zs) = ['/'].intercalate ps ++ '/' :: ['/'].intercalate zs := by
  induction ps with
  | nil => exact absurd rfl h
  | cons p ps ih =>
    obtain rfl | h_some := eq_or_ne ps []
    · rw [List.singleton_append, List.intercalate_cons_of_ne_nil h', List.intercalate_singleton]
      simp
    · rw [List.cons_append, List.intercalate_cons_of_ne_nil (by simp [h_some]),
        List.intercalate_cons_of_ne_nil h_some, ih h_some]
      simp

theorem text_append {zs : List Text} (h : c.parts ≠ []) (h' : zs ≠ [])
    (h_root : c.rooted = c'.rooted) (h_parts : c'.parts = c.parts ++ zs) : c'.text = c.text ++ ['/'] ++ ['/'].intercalate zs := by
  have h_some : c.parts ++ zs ≠ [] := fun h_nil => h (List.append_eq_nil_iff.mp h_nil).1
  unfold CleanPath.text
  rw [h_parts, if_neg h, if_neg h_some, ← h_root, intercalate_append h h']
  split_ifs <;> simp

theorem text_prefix_iff : c.text ++ ['/'] <+: c'.text ↔
    c.parts ≠ [] ∧ c.rooted = c'.rooted ∧ ∃ zs ≠ [], c'.parts = c.parts ++ zs := by
  constructor
  · rintro ⟨r, h_text⟩
    have h_rest := List.splitOn_ne_nil '/' r
    have h_split : c'.text.splitOn '/' = c.text.splitOn '/' ++ r.splitOn '/' := by
      rw [← h_text, List.append_assoc, List.singleton_append, List.splitOn_append_cons_self]
    rw [CleanPath.splitOn_text, CleanPath.splitOn_text] at h_split
    have h_ne := fun part => @CleanPath.part_ne_nil c part
    have h_ne' := fun part => @CleanPath.part_ne_nil c' part
    generalize r.splitOn '/' = zs at h_rest h_split
    obtain ⟨z, zs, rfl⟩ := List.exists_cons_of_ne_nil h_rest
    generalize h_ps : c.parts = ps at h_ne h_split ⊢
    generalize h_ps' : c'.parts = ps' at h_ne' h_split ⊢
    -- the text of a root starts with an empty part, and no part is empty or a dot
    cases h_root : c.rooted <;> cases h_root' : c'.rooted <;> rw [h_root, h_root'] at h_split <;>
      cases ps <;> cases ps' <;> simp_all
  · rintro ⟨h_parts, h_root, zs, h_zs, h_append⟩
    exact ⟨['/'].intercalate zs, (text_append h_parts h_zs h_root h_append).symm⟩

end Texts

end SlashPath

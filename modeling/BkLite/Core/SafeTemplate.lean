import BkLite.Framework.Find
import BkLite.Framework.Value
import Mathlib

/-!
# Templates with placeholders

A template is searched for dangerous patterns inside its expressions, and then the placeholders of a
simple form are replaced (`safe_render`, `utils/safe_template.py`). Both are scans of their own: the
expressions are found in the lower-cased text, from two opening braces to the next two closing ones,
and the placeholders in the text itself.

A placeholder has no brace inside, so an expression that begins at or before it cannot end within it
(`exists_expression`): each placeholder has been searched.
-/

namespace Core
namespace SafeTemplate

open Py

abbrev Text := List Char

def opening : Text := ['\x7b', '\x7b']

def closing : Text := ['\x7d', '\x7d']

/-! ### The characters -/

/-- A character of an identifier, `[a-zA-Z0-9_]`. -/
def isIdChar (c : Char) : Bool := c.isAlphanum || c = '_'

/-- The parts of the pattern of a placeholder that the lower case and `\w` are known for. -/
def isPlain (c : Char) : Bool :=
  isSpace c || isIdChar c || ['\x7b', '\x7d', '.'].contains c

/-- `str.lower` (each character with what becomes of it, which may depend on its place), `\w`, and
equality under `re.IGNORECASE`. -/
structure Unicode where
  lower : Text → List (Char × Text)
  isWord : Char → Bool
  same : Char → Char → Bool
  map_fst_lower : ∀ t, (lower t).map Prod.fst = t
  lower_plain : ∀ t, ∀ x ∈ lower t, isPlain x.1 = true → x.2 = [x.1.toLower]
  isWord_plain : ∀ c, isPlain c = true → isWord c = isIdChar c
  same_refl : ∀ c, same c c = true

def Unicode.lowerText (u : Unicode) (t : Text) : Text := (u.lower t).flatMap Prod.snd

/-! ### The dangerous patterns -/

/-- `__\w+__`, a word between word boundaries, a word and a dot, or a character. -/
inductive Pattern
  | dunder
  | word (w : String)
  | module (w : String)
  | char (c : Char)
deriving DecidableEq, Repr

def globalDangerousPattern : Text × String := (['\x7b', '%'], "Jinja2 控制语句")

def expressionDangerousPatterns : List (Pattern × String) :=
  [(.dunder, "dunder 属性访问 (如 __class__, __globals__)"),
    (.word "mro", "MRO 链访问"),
    (.word "base", "base 类访问"),
    (.word "subclasses", "subclasses 枚举"),
    (.word "cycler", "cycler 对象（可访问 __globals__）"),
    (.word "joiner", "joiner 对象（可访问 __globals__）"),
    (.word "namespace", "namespace 对象（可访问 __globals__）"),
    (.word "lipsum", "lipsum 对象（可访问 __globals__）"),
    (.word "eval", "eval 函数"),
    (.word "exec", "exec 函数"),
    (.word "import", "import 语句"),
    (.word "open", "open 函数"),
    (.word "popen", "popen 命令执行"),
    (.word "subprocess", "subprocess 模块"),
    (.module "os", "os 模块访问"),
    (.module "sys", "sys 模块访问"),
    (.word "builtins", "builtins 访问"),
    (.word "globals", "globals 访问"),
    (.word "getattr", "getattr 函数"),
    (.word "setattr", "setattr 函数"),
    (.word "delattr", "delattr 函数"),
    (.char '|', "Jinja2 过滤器"),
    (.char '[', "下标/切片访问"),
    (.char '(', "函数调用"),
    (.word "request", "request 对象"),
    (.word "config", "config 对象"),
    (.word "self", "self 引用"),
    (.word "url_for", "url_for 函数"),
    (.word "g", "Flask g 对象")]

variable (u : Unicode)

/-- `\b` between two characters, or at an end of the text. -/
def boundary (before after : Option Char) : Bool := before.any u.isWord != after.any u.isWord

def startsWith : Text → Text → Bool
  | [], _ => true
  | _ :: _, [] => false
  | a :: w, c :: s => u.same a c && startsWith w s

/-- The pattern matches here, behind the character `before`. -/
def Pattern.matchesAt (before : Option Char) (s : Text) : Pattern → Bool
  | .dunder =>
    startsWith u ['_', '_'] s && decide (['_', '_'] <:+: ((s.drop 2).takeWhile u.isWord).drop 1)
  | .word w =>
    boundary u before s.head? && startsWith u w.toList s &&
      boundary u s[w.length - 1]? (s.drop w.length).head?
  | .module w =>
    boundary u before s.head? && startsWith u w.toList s &&
      ((s.drop w.length).dropWhile isSpace).head? == some '.'
  | .char c => s.head?.any (u.same c)

/-- `re.search`. -/
def Pattern.search (p : Pattern) (before : Option Char) : Text → Bool
  | [] => p.matchesAt u before []
  | c :: cs => p.matchesAt u before (c :: cs) || Pattern.search p (some c) cs

def findDangerousPattern (content : Text) : Option String :=
  (expressionDangerousPatterns.find? fun p => p.1.search u none content).map Prod.snd

/-- `JINJA_EXPRESSION_PATTERN.findall`, behind the last match. -/
def expressions : ℕ → Text → List Text
  | _, [] => []
  | skip + 1, _ :: cs => expressions skip cs
  | 0, c :: cs =>
    if opening <+: c :: cs then
      match Find.find closing ((c :: cs).drop 2) with
      | some k => (c :: cs).take (k + 4) :: expressions (k + 3) cs
      | none => expressions 0 cs
    else expressions 0 cs

/-- `check_dangerous_patterns`, with the text of `TemplateSecurityError`. -/
def checkDangerousPatterns (t : Text) : Except String Unit :=
  let templateLower := u.lowerText t
  if globalDangerousPattern.1 <:+: templateLower then
    .error ("模板包含禁止的模式: " ++ globalDangerousPattern.2)
  else
    match (expressions 0 templateLower).findSome? (findDangerousPattern u) with
    | some description => .error ("模板包含禁止的模式: " ++ description)
    | none => .ok ()

/-! ### The placeholders -/

def isIdentifier (part : Text) : Bool := part.head?.any (!·.isDigit) && part.all isIdChar

/-- `SAFE_VAR_PATTERN`: the parts of the path, and the length of the match. No two neighbouring
parts of the pattern begin alike, so it is read without going back. -/
def matchVar (t : Text) : Option (List Text × ℕ) :=
  let s := (t.drop 2).dropWhile isSpace
  let path := (s.takeWhile fun c => isIdChar c || c = '.').splitOn '.'
  let rest := (s.dropWhile fun c => isIdChar c || c = '.').dropWhile isSpace
  if opening <+: t ∧ path.all isIdentifier ∧ closing <+: rest then
    some (path, t.length - rest.length + 2)
  else none

inductive Piece
  | copied (c : Char)
  | placeholder (source : Text) (path : List Text)
deriving DecidableEq, Repr

def Piece.source : Piece → Text
  | .copied c => [c]
  | .placeholder source _ => source

/-- What `SAFE_VAR_PATTERN.sub` goes through. -/
def pieces : ℕ → Text → List Piece
  | _, [] => []
  | skip + 1, _ :: cs => pieces skip cs
  | 0, c :: cs =>
    match matchVar (c :: cs) with
    | some (path, n) => .placeholder ((c :: cs).take n) path :: pieces (n - 1) cs
    | none => .copied c :: pieces 0 cs

/-- `value.get(part, "")` of a dictionary, `getattr` (none where it fails), and `str`, empty for
`None` and where it raises. -/
structure Objects (V : Type*) where
  dict : V → Option (Text → V)
  getattr : V → Text → Option V
  str : V → Text

variable {V : Type*} (o : Objects V)

/-- The loop of `replace_var`: the parts that are read, and what is inserted. -/
def replaceVar (value : V) : List Text → List Text × Text
  | [] => ([], o.str value)
  | part :: parts =>
    if part.head? = some '_' then ([], [])
    else
      match o.dict value with
      | some get => (part :: (replaceVar (get part) parts).1, (replaceVar (get part) parts).2)
      | none =>
        match o.getattr value part with
        | some next => (part :: (replaceVar next parts).1, (replaceVar next parts).2)
        | none => ([part], [])

def Piece.output (context : V) : Piece → Text
  | .copied c => [c]
  | .placeholder _ path => (replaceVar o context path).2

def safeRender (context : V) (t : Text) : Except String Text :=
  if t = [] then .ok t
  else (checkDangerousPatterns u t).map fun _ => (pieces 0 t).flatMap (Piece.output o context)

/-! ### The expression around a placeholder -/

section Expressions

variable {u}

theorem find_closing {s : Text} (h : '\x7d' ∉ s) (q : Text) :
    Find.find closing (s ++ closing ++ q) = some s.length := by
  induction s with
  | nil => exact Find.find_cons_of_begins ⟨q, rfl⟩
  | cons c s ih =>
    rw [List.mem_cons, not_or] at h
    rw [List.cons_append, List.cons_append, Find.find_cons_of_not_begins, ih h.2]
    · rfl
    · rw [closing, List.cons_prefix_cons]
      exact fun h_c => h.1 h_c.1

theorem take_closing (s q : Text) : (s ++ closing ++ q).take (s.length + 2) = s ++ closing := by
  rw [List.append_assoc, List.take_length_add_append]
  rfl

theorem find_closing_append {s : Text} (h : '\x7d' ∉ s) (h_nil : s ≠ []) (p q : Text) :
    (∃ k, Find.find closing (p ++ s ++ closing ++ q) = some k ∧ k + 2 ≤ p.length) ∨
      Find.find closing (p ++ s ++ closing ++ q) = some (p.length + s.length) := by
  induction p with
  | nil => exact .inr (by simpa using find_closing h q)
  | cons c p ih =>
    simp only [List.cons_append]
    by_cases h_here : closing <+: c :: (p ++ s ++ closing ++ q)
    · left
      refine ⟨0, Find.find_cons_of_begins h_here, ?_⟩
      cases p with
      | nil =>
        obtain ⟨d, s, rfl⟩ := List.exists_cons_of_ne_nil h_nil
        rw [closing, List.cons_prefix_cons, List.nil_append, List.cons_append, List.cons_append,
          List.cons_prefix_cons] at h_here
        exact absurd (h_here.2.1 ▸ List.mem_cons_self) h
      | cons d p => simp
    · rw [Find.find_cons_of_not_begins h_here]
      obtain ⟨k, h_find, h_k⟩ | h_find := ih
      · exact .inl ⟨k + 1, by rw [h_find]; rfl, by simp only [List.length_cons]; omega⟩
      · right
        rw [h_find, Option.map_some, List.length_cons]
        congr 1
        omega

theorem exists_expression {s : Text} (h : '\x7d' ∉ s) (skip : ℕ) (p q : Text)
    (h_skip : skip ≤ p.length) :
    ∃ e ∈ expressions skip (p ++ (opening ++ s ++ closing) ++ q), ∃ l x,
      e = x ++ (opening ++ s ++ closing) ∧ p = l ++ x := by
  have h_open : '\x7d' ∉ opening ++ s := by simp [opening, h]
  induction p generalizing skip with
  | nil =>
    obtain rfl : skip = 0 := Nat.le_zero.mp h_skip
    refine ⟨opening ++ s ++ closing, ?_, [], [], rfl, rfl⟩
    have h_find := find_closing h q
    simp only [List.nil_append, opening, List.cons_append] at h_find ⊢
    rw [expressions, if_pos ⟨_, rfl⟩, List.drop_succ_cons, List.drop_succ_cons, List.drop_zero,
      h_find]
    refine List.mem_cons.mpr (.inl ?_)
    simpa [closing] using (take_closing s q).symm
  | cons c p ih =>
    -- what is found behind `c` is found with `c` in front
    have h_later : ∀ skip, skip ≤ p.length → (∃ e ∈ expressions skip
        (p ++ (opening ++ s ++ closing) ++ q), ∃ l x, e = x ++ (opening ++ s ++ closing) ∧
          c :: p = l ++ x) := by
      intro skip h_skip
      obtain ⟨e, h_e, l, x, h_eq, rfl⟩ := ih skip h_skip
      exact ⟨e, h_e, c :: l, x, h_eq, rfl⟩
    cases skip with
    | succ skip => exact h_later skip (Nat.le_of_succ_le_succ h_skip)
    | zero =>
      simp only [List.cons_append, expressions]
      split_ifs with h_begins
      · cases p with
        | nil =>
          have h_find := @find_closing ('\x7b' :: s) (by simp [h]) q
          simp only [List.nil_append, opening, List.cons_append, List.drop_succ_cons,
            List.drop_zero] at h_find ⊢
          rw [h_find]
          refine ⟨c :: (opening ++ s ++ closing), List.mem_cons.mpr (.inl ?_), [], [c], rfl, rfl⟩
          simpa [opening, closing] using (take_closing s q).symm
        | cons d p =>
          have h_drop : (c :: (d :: p ++ (opening ++ s ++ closing) ++ q)).drop 2 =
              p ++ (opening ++ s) ++ closing ++ q := by simp
          obtain ⟨k, h_find, h_k⟩ | h_find :=
            find_closing_append h_open (by simp [opening]) p q <;>
            rw [h_drop, h_find]
          · obtain ⟨e, h_e, h_rest⟩ := h_later (k + 3) (by simp only [List.length_cons]; omega)
            exact ⟨e, List.mem_cons_of_mem _ h_e, h_rest⟩
          · refine ⟨c :: d :: p ++ (opening ++ s ++ closing), List.mem_cons.mpr (.inl ?_), [],
              c :: d :: p, rfl, rfl⟩
            have h_take := take_closing (c :: d :: p ++ (opening ++ s)) q
            simp only [List.length_append, List.length_cons, List.append_assoc, List.cons_append]
              at h_take ⊢
            rw [← h_take]
      · exact h_later 0 (Nat.zero_le _)

end Expressions

/-! ### The pieces -/

/-- What a placeholder is made of. -/
structure IsPlaceholder (source : Text) (path : List Text) (spaces spaces' : Text) : Prop where
  source_eq : source = opening ++ (spaces ++ ['.'].intercalate path ++ spaces') ++ closing
  spaces_all : ∀ c ∈ spaces, isSpace c = true
  spaces'_all : ∀ c ∈ spaces', isSpace c = true
  path_all : ∀ part ∈ path, isIdentifier part = true

theorem of_matchVar {t : Text} {path : List Text} {n : ℕ} (h : matchVar t = some (path, n)) :
    (∃ spaces spaces', IsPlaceholder (t.take n) path spaces spaces') ∧ 0 < n := by
  unfold matchVar at h
  dsimp only at h
  split_ifs at h with h_all
  obtain ⟨⟨t, rfl⟩, h_path, rest, h_rest⟩ := h_all
  obtain ⟨rfl, rfl⟩ := Prod.mk.inj (Option.some.inj h)
  set isPath : Char → Bool := fun c => isIdChar c || c = '.' with h_isPath
  have h_drop : (opening ++ t).drop 2 = t := rfl
  rw [h_drop] at h_path h_rest ⊢
  set s := t.dropWhile isSpace with h_s
  have h_t : opening ++ t = (opening ++ (t.takeWhile isSpace ++ s.takeWhile isPath ++
      (s.dropWhile isPath).takeWhile isSpace) ++ closing) ++ rest := by
    rw [List.append_assoc, h_rest, List.append_assoc, List.append_assoc, List.append_assoc,
      List.takeWhile_append_dropWhile, List.takeWhile_append_dropWhile, h_s,
      List.takeWhile_append_dropWhile]
  have h_length : (opening ++ t).length - ((s.dropWhile isPath).dropWhile isSpace).length + 2 =
      (opening ++ (t.takeWhile isSpace ++ s.takeWhile isPath ++
        (s.dropWhile isPath).takeWhile isSpace) ++ closing).length := by
    rw [← h_rest, h_t]
    simp only [List.length_append, closing, List.length_cons, List.length_nil]
    omega
  refine ⟨⟨t.takeWhile isSpace, (s.dropWhile isPath).takeWhile isSpace, ?_, ?_, ?_, ?_⟩, by omega⟩
  · rw [h_length, h_t, List.take_left, List.intercalate_splitOn]
  · exact List.all_eq_true.mp List.all_takeWhile
  · exact List.all_eq_true.mp List.all_takeWhile
  · exact List.all_eq_true.mp h_path

theorem flatMap_source (skip : ℕ) (t : Text) :
    (pieces skip t).flatMap Piece.source = t.drop skip := by
  induction t generalizing skip with
  | nil => simp [pieces]
  | cons c cs ih =>
    cases skip with
    | succ skip => exact ih skip
    | zero =>
      rw [pieces]
      split
      · rename_i path n h_match
        obtain ⟨-, h_pos⟩ := of_matchVar h_match
        obtain ⟨n, rfl⟩ := Nat.exists_eq_succ_of_ne_zero h_pos.ne'
        rw [List.flatMap_cons, ih, Piece.source, Nat.succ_sub_one, List.take_succ_cons,
          List.cons_append, List.take_append_drop]
        rfl
      · exact congrArg (c :: ·) (ih 0)

theorem intercalate_split (before after : List Text) (part : Text) :
    ['.'].intercalate (before ++ part :: after) =
      (before.flatMap fun p => p ++ ['.']) ++ part ++ after.flatMap fun p => '.' :: p := by
  have h_after : ∀ part : Text, ['.'].intercalate (part :: after) =
      part ++ after.flatMap fun p => '.' :: p := by
    induction after with
    | nil => simp [List.intercalate]
    | cons next after ih =>
      intro part
      rw [List.flatMap_cons, List.cons_append, ← ih next]
      simp [List.intercalate]
  induction before with
  | nil => exact h_after part
  | cons p before ih =>
    rw [List.flatMap_cons, List.append_assoc, List.append_assoc, ← List.append_assoc _ part, ← ih]
    cases before <;> simp [List.intercalate]

theorem lower_append {u : Unicode} {t before source after : Text}
    (h : t = before ++ source ++ after) (h_plain : ∀ c ∈ source, isPlain c = true) :
    ∃ q, u.lowerText t = ((u.lower t).take before.length).flatMap Prod.snd ++
      source.map Char.toLower ++ q := by
  have h_fst := u.map_fst_lower t
  obtain ⟨xs, zs, h_lower, h_xs, -⟩ := List.map_eq_append_iff.mp (h_fst.trans h)
  obtain ⟨ws, ys, rfl, h_ws, rfl⟩ := List.map_eq_append_iff.mp h_xs
  have h_length : before.length = ws.length := by rw [← h_ws, List.length_map]
  have h_ys : ys.flatMap Prod.snd = (ys.map Prod.fst).map Char.toLower := by
    rw [List.map_map, List.map_eq_flatMap]
    refine List.flatMap_congr fun y h_y => u.lower_plain t y ?_ ?_
    · rw [h_lower]
      exact List.mem_append_left _ (List.mem_append_right _ h_y)
    · exact h_plain y.1 (List.mem_map_of_mem h_y)
  rw [Unicode.lowerText, h_lower, h_length, List.append_assoc, List.take_left, List.flatMap_append,
    List.flatMap_append, h_ys]
  exact ⟨zs.flatMap Prod.snd, by rw [List.append_assoc]⟩

/-! ### The search -/

def Edge (c : Char) : Prop := isPlain c = true ∧ isIdChar c = false

section Search

variable {u : Unicode} {w : String} {a b : Text}

theorem search_of_matchesAt {p : Pattern} {before : Option Char}
    (h : p.matchesAt u (a.getLast?.or before) b = true) : p.search u before (a ++ b) = true := by
  induction a generalizing before with
  | nil =>
    cases b with
    | nil => exact h
    | cons c b => exact Bool.or_eq_true _ _ |>.mpr (.inl h)
  | cons c a ih =>
    refine (Bool.or_eq_true _ _).mpr (.inr (ih ?_))
    cases a with
    | nil => exact h
    | cons d a =>
      rw [List.getLast?_cons_cons, List.getLast?_cons, Option.some_or] at h
      rwa [List.getLast?_cons, Option.some_or]

theorem startsWith_append (w s : Text) : startsWith u w (w ++ s) = true := by
  induction w with
  | nil => cases s <;> rfl
  | cons c w ih => rw [List.cons_append, startsWith, u.same_refl, ih]; rfl

theorem isWord_edge {before : Option Char} (h : ∀ c ∈ before, Edge c) :
    before.any u.isWord = false := by
  cases before with
  | none => rfl
  | some c =>
    obtain ⟨h_plain, h_id⟩ := h c rfl
    exact (u.isWord_plain c h_plain).trans h_id

theorem isWord_id {c : Char} (h : isIdChar c = true) : u.isWord c = true := by
  rw [u.isWord_plain c (by simp [isPlain, h]), h]

variable (h_ne : w.toList ≠ []) (h_id : ∀ c ∈ w.toList, isIdChar c = true)
  (h_a : ∀ c ∈ a.getLast?, Edge c)

include h_ne h_id h_a in
theorem boundary_before : boundary u a.getLast? (w.toList ++ b).head? = true := by
  obtain ⟨c, cs, h_w⟩ := List.exists_cons_of_ne_nil h_ne
  have h_c := @isWord_id u _ (h_id c (h_w ▸ List.mem_cons_self))
  rw [boundary, isWord_edge h_a, h_w]
  simp [h_c]

theorem drop_word (b : Text) : (w.toList ++ b).drop w.length = b := by
  rw [← String.length_toList, List.drop_left]

include h_ne h_id h_a in
theorem search_word (h_b : ∀ c ∈ b.head?, Edge c) :
    (Pattern.word w).search u none (a ++ (w.toList ++ b)) = true := by
  have h_pos := List.length_pos_iff.mpr h_ne
  have h_last : (w.toList ++ b)[w.length - 1]? = some (w.toList.getLast h_ne) := by
    rw [← String.length_toList, List.getElem?_append_left (by omega), ← List.getLast?_eq_getElem?,
      List.getLast?_eq_some_getLast h_ne]
  refine search_of_matchesAt ?_
  rw [Option.or_none, Pattern.matchesAt, boundary_before h_ne h_id h_a, startsWith_append, h_last,
    drop_word, boundary, isWord_edge h_b, Option.any_some,
    isWord_id (h_id _ (List.getLast_mem h_ne))]
  rfl

include h_ne h_id h_a in
theorem search_module (h_b : b.head? = some '.') :
    (Pattern.module w).search u none (a ++ (w.toList ++ b)) = true := by
  obtain ⟨b, rfl⟩ := List.head?_eq_some_iff.mp h_b
  refine search_of_matchesAt ?_
  rw [Option.or_none, Pattern.matchesAt, boundary_before h_ne h_id h_a, startsWith_append,
    drop_word]
  rfl

end Search

/-! ### What is rendered -/

section Rendered

theorem of_checkDangerousPatterns {u : Unicode} {t : Text}
    (h : checkDangerousPatterns u t = .ok ()) :
    ∀ e ∈ expressions 0 (u.lowerText t), ∀ p ∈ expressionDangerousPatterns,
      p.1.search u none e = false := by
  intro e h_e p h_p
  unfold checkDangerousPatterns at h
  dsimp only at h
  split_ifs at h
  split at h
  · cases h
  · rename_i h_none
    have h_find := List.findSome?_eq_none_iff.mp h_none e h_e
    rw [findDangerousPattern, Option.map_eq_none_iff] at h_find
    simpa using List.find?_eq_none.mp h_find p h_p

theorem isIdChar_toLower {c : Char} (h : isIdChar c = true) : isIdChar c.toLower = true := by
  by_cases h_upper : c.isUpper = true
  · rw [isIdChar, Char.isAlphanum, Char.isAlpha_toLower_eq_isAlpha, Char.isAlpha, h_upper]
    rfl
  · rwa [Char.toLower_eq_of_not_isUpper h_upper]

theorem Edge.toLower_eq {c : Char} (h : Edge c) : c.toLower = c := by
  refine Char.toLower_eq_of_not_isUpper fun h_upper => ?_
  have h_id : isIdChar c = true := by simp [isIdChar, Char.isAlphanum, Char.isAlpha, h_upper]
  exact absurd h.2 (by simp [h_id])

theorem toNat_of_isIdChar {c : Char} (h : isIdChar c = true) : 48 ≤ c.toNat ∧ c.toNat ≤ 122 := by
  simp only [isIdChar, Char.isAlphanum, Char.isAlpha, Char.isUpper, Char.isLower, Char.isDigit,
    ge_iff_le, Bool.decide_and, Bool.or_eq_true, Bool.and_eq_true, decide_eq_true_eq,
    UInt32.le_iff_toNat_le] at h
  obtain ((h | h) | h) | rfl := h
  · exact ⟨le_trans (by decide) h.1, le_trans h.2 (by decide)⟩
  · exact ⟨le_trans (by decide) h.1, le_trans h.2 (by decide)⟩
  · exact ⟨le_trans (by decide) h.1, le_trans h.2 (by decide)⟩
  · decide

theorem edge_of_isSpace {c : Char} (h : isSpace c = true) : Edge c := by
  refine ⟨by simp [isPlain, h], ?_⟩
  by_contra h_id
  have h_range := toNat_of_isIdChar (Bool.not_eq_false _ ▸ h_id)
  simp only [isSpace, Bool.or_eq_true, Bool.and_eq_true, decide_eq_true_eq, beq_iff_eq] at h
  omega

def deniedWords : List String :=
  expressionDangerousPatterns.filterMap fun
    | (.word w, _) => some w
    | _ => none

def deniedModules : List String :=
  expressionDangerousPatterns.filterMap fun
    | (.module w, _) => some w
    | _ => none

/-- The placeholder behind `before` is inside one of the expressions that are searched. -/
def Examined (u : Unicode) (t before source : Text) : Prop :=
  ∃ e ∈ expressions 0 (u.lowerText t), ∃ l x y r, u.lowerText t = l ++ e ++ r ∧
    e = x ++ source.map Char.toLower ++ y ∧
    l ++ x = ((u.lower t).take before.length).flatMap Prod.snd

theorem exists_isPlaceholder {skip : ℕ} {t source : Text} {path : List Text}
    (h : .placeholder source path ∈ pieces skip t) :
    ∃ spaces spaces', IsPlaceholder source path spaces spaces' := by
  induction t generalizing skip with
  | nil => simp [pieces] at h
  | cons c cs ih =>
    cases skip with
    | succ skip => exact ih h
    | zero =>
      rw [pieces] at h
      split at h
      · rename_i h_match
        obtain h_eq | h := List.mem_cons.mp h
        · obtain ⟨rfl, rfl⟩ := Piece.placeholder.inj h_eq
          exact (of_matchVar h_match).1
        · exact ih h
      · exact ih ((List.mem_cons.mp h).resolve_left nofun)

theorem mem_intercalate {path : List Text} {c : Char} (h : c ∈ ['.'].intercalate path) :
    c = '.' ∨ ∃ part ∈ path, c ∈ part := by
  cases path with
  | nil => cases h
  | cons part path =>
    rw [← List.nil_append (part :: path), intercalate_split] at h
    simp only [List.flatMap_nil, List.nil_append, List.mem_append, List.mem_flatMap,
      List.mem_cons] at h
    obtain h | ⟨next, h_next, rfl | h⟩ := h
    · exact .inr ⟨part, List.mem_cons_self, h⟩
    · exact .inl rfl
    · exact .inr ⟨next, List.mem_cons_of_mem _ h_next, h⟩

section Placeholder

variable {source spaces spaces' : Text} {path : List Text}
  (h : IsPlaceholder source path spaces spaces')

include h

theorem IsPlaceholder.edge_or_id {c : Char}
    (h_c : c ∈ spaces ++ ['.'].intercalate path ++ spaces') :
    Edge c ∧ c ≠ '\x7d' ∨ isIdChar c = true := by
  have h_space : isSpace c = true → Edge c ∧ c ≠ '\x7d' := fun h_c =>
    ⟨edge_of_isSpace h_c, by rintro rfl; exact absurd h_c (by decide)⟩
  rw [List.mem_append, List.mem_append] at h_c
  obtain (h_c | h_c) | h_c := h_c
  · exact .inl (h_space (h.spaces_all c h_c))
  · obtain rfl | ⟨part, h_part, h_c⟩ := mem_intercalate h_c
    · exact .inl ⟨⟨by decide, by decide⟩, by decide⟩
    · have h_id := (Bool.and_eq_true _ _).mp (h.path_all part h_part)
      exact .inr (List.all_eq_true.mp h_id.2 c h_c)
  · exact .inl (h_space (h.spaces'_all c h_c))

theorem IsPlaceholder.plain : ∀ c ∈ source, isPlain c = true := by
  intro c h_c
  rw [h.source_eq, List.mem_append, List.mem_append] at h_c
  obtain (h_c | h_c) | h_c := h_c
  · obtain rfl : c = '\x7b' := by simpa [opening] using h_c
    decide
  · obtain h_edge | h_id := h.edge_or_id h_c
    · exact h_edge.1.1
    · simp [isPlain, h_id]
  · obtain rfl : c = '\x7d' := by simpa [closing] using h_c
    decide

theorem IsPlaceholder.split {before after : List Text} {part : Text}
    (h_path : path = before ++ part :: after) :
    ∃ a b, source = a ++ part ++ b ∧ a ≠ [] ∧ b ≠ [] ∧ (∀ c ∈ a.getLast?, Edge c) ∧
      (∀ c ∈ b.head?, Edge c) ∧ (after ≠ [] → b.head? = some '.') := by
  refine ⟨opening ++ spaces ++ before.flatMap fun p => p ++ ['.'],
    (after.flatMap fun p => '.' :: p) ++ spaces' ++ closing, ?_, by simp [opening],
    by simp [closing], ?_, ?_, ?_⟩
  · rw [h.source_eq, h_path, intercalate_split]
    simp only [List.append_assoc]
  · intro c h_c
    obtain rfl | ⟨before, p, rfl⟩ := List.eq_nil_or_concat' before
    · obtain rfl | ⟨spaces, d, rfl⟩ := List.eq_nil_or_concat' spaces
      · obtain rfl : '\x7b' = c := by simpa [opening] using h_c
        exact ⟨by decide, by decide⟩
      · obtain rfl : d = c := by simpa using h_c
        exact edge_of_isSpace (h.spaces_all d (by simp))
    · obtain rfl : '.' = c := by simpa using h_c
      exact ⟨by decide, by decide⟩
  · intro c h_c
    cases after with
    | cons p after =>
      obtain rfl : '.' = c := by simpa using h_c
      exact ⟨by decide, by decide⟩
    | nil =>
      cases spaces' with
      | cons d spaces' =>
        obtain rfl : d = c := by simpa using h_c
        exact edge_of_isSpace (h.spaces'_all d (by simp))
      | nil =>
        obtain rfl : '\x7d' = c := by simpa [closing] using h_c
        exact ⟨by decide, by decide⟩
  · intro h_after
    obtain ⟨p, after, rfl⟩ := List.exists_cons_of_ne_nil h_after
    simp

theorem examined_of_isPlaceholder {u : Unicode} {t before after : Text}
    (h_t : t = before ++ source ++ after) : Examined u t before source := by
  obtain ⟨q, h_lower⟩ := @lower_append u t before source after h_t h.plain
  set s := (spaces ++ ['.'].intercalate path ++ spaces').map Char.toLower with h_s
  have h_source : source.map Char.toLower = opening ++ s ++ closing := by
    rw [h.source_eq, List.map_append, List.map_append, h_s]
    rfl
  have h_brace : '\x7d' ∉ s := by
    rw [h_s, List.mem_map]
    rintro ⟨c, h_c, h_eq⟩
    obtain ⟨h_edge, h_ne⟩ | h_id := h.edge_or_id h_c
    · exact h_ne (h_edge.toLower_eq.symm.trans h_eq)
    · exact absurd (h_eq ▸ isIdChar_toLower h_id) (by decide)
  rw [h_source] at h_lower
  obtain ⟨e, h_e, l, x, h_eq, h_before⟩ := exists_expression h_brace 0 _ q (Nat.zero_le _)
  rw [← h_lower] at h_e
  refine ⟨e, h_e, l, x, [], q, ?_, ?_, h_before.symm⟩
  · rw [h_lower, h_before, h_eq]
    simp only [List.append_assoc]
  · rw [h_eq, h_source, List.append_nil]

end Placeholder

theorem replaceVar_read {V : Type*} (o : Objects V) (value : V) (path : List Text) :
    ∀ part ∈ (replaceVar o value path).1, part.head? ≠ some '_' := by
  induction path generalizing value with
  | nil => exact fun _ h => absurd h List.not_mem_nil
  | cons p path ih =>
    intro part h_part
    rw [replaceVar] at h_part
    split_ifs at h_part with h_private
    · cases h_part
    · split at h_part
      · obtain rfl | h_part := List.mem_cons.mp h_part
        · exact h_private
        · exact ih _ part h_part
      · split at h_part
        · obtain rfl | h_part := List.mem_cons.mp h_part
          · exact h_private
          · exact ih _ part h_part
        · rw [List.mem_singleton.mp h_part]
          exact h_private

theorem edge_map_getLast? {a : Text} (h_ne : a ≠ []) (h : ∀ c ∈ a.getLast?, Edge c) (x : Text) :
    ∀ c ∈ (x ++ a.map Char.toLower).getLast?, Edge c := by
  obtain ⟨a, d, rfl⟩ := (List.eq_nil_or_concat' a).resolve_left h_ne
  have h_d : Edge d := h d (by simp)
  intro c h_c
  obtain rfl : d.toLower = c := by simpa using h_c
  rwa [h_d.toLower_eq]

theorem edge_map_head? {b : Text} (h_ne : b ≠ []) (h : ∀ c ∈ b.head?, Edge c) (y : Text) :
    (b.map Char.toLower ++ y).head? = b.head? := by
  obtain ⟨d, b, rfl⟩ := List.exists_cons_of_ne_nil h_ne
  have h_d : Edge d := h d rfl
  rw [List.map_cons, List.cons_append, List.head?_cons, List.head?_cons, h_d.toLower_eq]

theorem not_denied {u : Unicode} {source spaces spaces' e x y part : Text}
    {path ps qs : List Text} (h : IsPlaceholder source path spaces spaces')
    (h_path : path = ps ++ part :: qs) (h_e : e = x ++ source.map Char.toLower ++ y)
    (h_safe : ∀ p ∈ expressionDangerousPatterns, p.1.search u none e = false) :
    String.ofList (part.map Char.toLower) ∉ deniedWords ∧
      (qs ≠ [] → String.ofList (part.map Char.toLower) ∉ deniedModules) := by
  obtain ⟨a, b, rfl, h_a, h_b, h_last, h_head, h_dot⟩ := h.split h_path
  set w := String.ofList (part.map Char.toLower)
  have h_w : w.toList = part.map Char.toLower := String.toList_ofList
  obtain ⟨h_first, h_all⟩ := (Bool.and_eq_true _ _).mp (h.path_all part (by simp [h_path]))
  have h_ne : w.toList ≠ [] := by
    rw [h_w]
    rintro h_nil
    rw [List.map_eq_nil_iff.mp h_nil] at h_first
    cases h_first
  have h_id : ∀ c ∈ w.toList, isIdChar c = true := by
    rw [h_w]
    intro c h_c
    obtain ⟨d, h_d, rfl⟩ := List.mem_map.mp h_c
    exact isIdChar_toLower (List.all_eq_true.mp h_all d h_d)
  have h_split : e = (x ++ a.map Char.toLower) ++ (w.toList ++ (b.map Char.toLower ++ y)) := by
    rw [h_e, h_w]
    simp only [List.map_append, List.append_assoc]
  have h_before := edge_map_getLast? h_a h_last x
  have h_after := edge_map_head? h_b h_head y
  constructor
  · intro h_mem
    obtain ⟨⟨pattern, description⟩, h_p, h_eq⟩ := List.mem_filterMap.mp h_mem
    cases pattern <;> cases h_eq
    have h_safe := h_safe _ h_p
    rw [h_split, search_word h_ne h_id h_before (h_after ▸ h_head)] at h_safe
    cases h_safe
  · intro h_qs h_mem
    obtain ⟨⟨pattern, description⟩, h_p, h_eq⟩ := List.mem_filterMap.mp h_mem
    cases pattern <;> cases h_eq
    have h_safe := h_safe _ h_p
    rw [h_split, search_module h_ne h_id h_before (h_after.trans (h_dot h_qs))] at h_safe
    cases h_safe

theorem of_safeRender {V : Type*} {u : Unicode} {o : Objects V} {context : V} {t out : Text}
    (h : safeRender u o context t = .ok out) :
    out = (pieces 0 t).flatMap (Piece.output o context) ∧
      (t = [] ∨ checkDangerousPatterns u t = .ok ()) := by
  unfold safeRender at h
  split_ifs at h with h_nil
  · obtain rfl := Except.ok.inj h
    rw [h_nil]
    exact ⟨rfl, .inl rfl⟩
  · cases h_check : checkDangerousPatterns u t with
    | error description =>
      rw [h_check] at h
      cases h
    | ok =>
      rw [h_check] at h
      exact ⟨(Except.ok.inj h).symm, .inr rfl⟩

end Rendered

/-- **Placeholders.** Each has been searched, no part of its path is a denied word, none that is
read begins with an underscore, and the rest is copied. -/
theorem safeRender_examined {V : Type*} (u : Unicode) (o : Objects V) (context : V) (t out : Text)
    (h : safeRender u o context t = .ok out) :
    t = (pieces 0 t).flatMap Piece.source ∧ out = (pieces 0 t).flatMap (Piece.output o context) ∧
      ∀ before source path after, pieces 0 t = before ++ .placeholder source path :: after →
        Examined u t (before.flatMap Piece.source) source ∧
        (∀ ps part qs, path = ps ++ part :: qs →
          String.ofList (part.map Char.toLower) ∉ deniedWords ∧
            (qs ≠ [] → String.ofList (part.map Char.toLower) ∉ deniedModules)) ∧
        ∀ part ∈ (replaceVar o context path).1, part.head? ≠ some '_' := by
  have h_source := flatMap_source 0 t
  rw [List.drop_zero] at h_source
  obtain ⟨h_out, h_checked⟩ := of_safeRender h
  refine ⟨h_source.symm, h_out, fun before source path after h_pieces => ?_⟩
  have h_checked : checkDangerousPatterns u t = .ok () := by
    refine h_checked.resolve_left fun h_nil => ?_
    rw [h_nil] at h_pieces
    simp [pieces] at h_pieces
  have h_mem : .placeholder source path ∈ pieces 0 t := by simp [h_pieces]
  obtain ⟨spaces, spaces', h_placeholder⟩ := exists_isPlaceholder h_mem
  have h_t : t = before.flatMap Piece.source ++ source ++ after.flatMap Piece.source := by
    rw [← h_source, h_pieces, List.flatMap_append, List.flatMap_cons, Piece.source,
      List.append_assoc]
  have h_examined := @examined_of_isPlaceholder _ _ _ _ h_placeholder u _ _ _ h_t
  refine ⟨h_examined, fun ps part qs h_path => ?_, replaceVar_read o context path⟩
  obtain ⟨e, h_e, l, x, y, r, -, h_eq, -⟩ := h_examined
  exact not_denied h_placeholder h_path h_eq (of_checkDangerousPatterns h_checked e h_e)

def Unicode.ascii : Unicode where
  lower t := t.map fun c => (c, [c.toLower])
  isWord := isIdChar
  same a b := a == b
  map_fst_lower t := by rw [List.map_map]; exact List.map_id t
  lower_plain t x h _ := by
    obtain ⟨c, -, rfl⟩ := List.mem_map.mp h
    rfl
  isWord_plain _ _ := rfl
  same_refl := beq_self_eq_true

def Objects.plain : Objects String where
  dict _ := none
  getattr _ part := some (String.ofList part)
  str := String.toList

theorem safeRender_examined_braces :
    safeRender .ascii .plain "" "\x7b\x7b\x7ba\x7d\x7d".toList = .ok "\x7ba".toList ∧
      Examined .ascii "\x7b\x7b\x7ba\x7d\x7d".toList ['\x7b'] "\x7b\x7ba\x7d\x7d".toList := by
  have h : safeRender .ascii .plain "" "\x7b\x7b\x7ba\x7d\x7d".toList = .ok "\x7ba".toList := by
    decide +kernel
  have h_pieces : pieces 0 "\x7b\x7b\x7ba\x7d\x7d".toList =
      [.copied '\x7b'] ++ .placeholder "\x7b\x7ba\x7d\x7d".toList [['a']] :: [] := by
    decide +kernel
  exact ⟨h, ((safeRender_examined _ _ _ _ _ h).2.2 _ _ _ _ h_pieces).1⟩

end SafeTemplate
end Core

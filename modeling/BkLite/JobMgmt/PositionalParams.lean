import BkLite.Framework.JsonText
import BkLite.Framework.Lines
import BkLite.Framework.Quoting
import Mathlib.Data.List.DropRight

/-!
# Positional parameters of a script

The values of the parameters go through five texts: they are quoted and joined (`params_to_string`),
split again and put before the script in its own language (`merge_script_with_params`), line ends
are normalized, the first line is looked at for an interpreter, and for a target that is reached by
SSH the whole becomes a heredoc. Each language has a reader for what is put before the script
(`Injection`), and what a target runs is compared with the values, the script and the interpreter
without parameters (`arrives_iff`).

The readers know the forms that are written: words of a POSIX shell, a list of Python and one of
PowerShell, where a single quote is written twice.
-/

namespace JobMgmt
namespace PositionalParams

open Py Quoting

inductive ScriptType
  | shell
  | python
  | powershell
  | bat
deriving DecidableEq

/-- `TargetSource`. -/
inductive Source
  | nodeMgmt
  | sync
  | manual
deriving DecidableEq

/-! ### The texts -/

/-- The characters that `shlex.quote` leaves as they are. -/
def isSafe (c : Char) : Bool := c.isAlphanum || "_@%+=:,.-/".toList.contains c

/-- `shlex.quote`. -/
def shlexQuote (s : List Char) : List Char :=
  if s = [] then ['\x27', '\x27']
  else if s.all isSafe then s
  else
    '\x27' :: (s.flatMap fun c => if c = '\x27' then "\x27\"\x27\"\x27".toList else [c]) ++
      ['\x27']

/-- `params_to_string`, of the values. -/
def paramsToString (values : List (List Char)) : List Char :=
  [' '].intercalate (values.map shlexQuote)

def psQuote (token : List Char) : List Char :=
  '\x27' :: (token.flatMap fun c => if c = '\x27' then ['\x27', '\x27'] else [c]) ++ ['\x27']

/-- `str.split()`. -/
def words (s : List Char) : List (List Char) := (s.splitOnP isSpace).filter (· ≠ [])

variable (split : List Char → Option (List (List Char)))

/-- `merge_script_with_params`; `split` is `shlex.split`, without a result for a `ValueError`. -/
def mergeScriptWithParams (scriptContent params : List Char) (scriptType : ScriptType) :
    List Char :=
  if params = [] then scriptContent
  else
    let tokens := (split params).getD (words params)
    if tokens = [] then scriptContent
    else
      match scriptType with
      | .shell =>
        "set -- ".toList ++ [' '].intercalate (tokens.map shlexQuote) ++ '\n' :: scriptContent
      | .python =>
        "import sys as _sys\n_sys.argv = [".toList ++
          [',', ' '].intercalate (("script".toList :: tokens).map jsonString) ++
          "]\n".toList ++ scriptContent
      | .powershell =>
        "$args = @(".toList ++ [',', ' '].intercalate (tokens.map psQuote) ++ ")\n".toList ++
          scriptContent
      | .bat => scriptContent

/-- `replace("\r\n", "\n")`. -/
def replaceCrlf : List Char → List Char
  | [] => []
  | '\r' :: '\n' :: cs => '\n' :: replaceCrlf cs
  | c :: cs => c :: replaceCrlf cs

def normalizeScriptLineEndings (scriptContent : List Char) (scriptType : ScriptType) : List Char :=
  if scriptType = .bat ∨ scriptType = .powershell then scriptContent
  else (replaceCrlf scriptContent).map fun c => if c = '\r' then '\n' else c

def supportedShells : List (List Char) :=
  ["sh", "bash", "python", "python3", "powershell", "pwsh"].map String.toList

/-- `path.rsplit("/", 1)[-1]`. -/
def lastSegment (path : List Char) : List Char := (path.splitOn '/').getLast?.getD []

def parseShebang (script : List Char) : Option (List Char) :=
  match splitlines script with
  | [] => none
  | line :: _ =>
    let firstLine := strip line
    if ['#', '!'] <+: firstLine then
      match words (strip (firstLine.drop 2)) with
      | [] => none
      | path :: others =>
        let interpreter := match others with
          | second :: _ => if "/env".toList <:+ path then second else lastSegment path
          | [] => lastSegment path
        if interpreter ∈ supportedShells then some interpreter else none
    else none

def shellMapping : ScriptType → List Char
  | .shell => "bash".toList
  | .python => "python".toList
  | .powershell => "powershell".toList
  | .bat => "cmd".toList

/-- `'__SCRIPT__'`, the delimiter of the heredoc. -/
def delimiter : List Char := "__SCRIPT__".toList

def buildHeredocCommand (interpreter script : List Char) : List Char :=
  interpreter ++ " <<\x27__SCRIPT__\x27".toList ++ '\n' :: (script ++ '\n' :: delimiter)

inductive Sent
  | localStream (shell script : List Char)
  | sshStream (command : List Char)

/-- `parse_shebang(script_content) or SHELL_MAPPING.get(script_type)`. -/
def shellOf (scriptContent : List Char) (scriptType : ScriptType) : List Char :=
  (parseShebang scriptContent).getD (shellMapping scriptType)

/-- `execute_script_on_target`, what it sends. -/
def executeScriptOnTarget (source : Source) (scriptContent : List Char) (scriptType : ScriptType) :
    Sent :=
  let script := normalizeScriptLineEndings scriptContent scriptType
  let shell := shellOf script scriptType
  if source = .manual then .sshStream (buildHeredocCommand shell script)
  else .localStream shell script

def Sent.run : Sent → List Char × List Char
  | .localStream shell script => (shell, script)
  | .sshStream command =>
    match command.splitOn '\n' with
    | [] => ([], [])
    | line :: lines => (line.takeWhile (· ≠ ' '), heredoc delimiter lines)

/-! ### Reading them back -/

section Readers

variable {w v cs : List Char} {c : Char}

/-- Where the reader of shell words is: between words, in a word, or in quotes within one. -/
inductive ShPlace
  | gap
  | bare
  | single
  | double

def shOpen (c : Char) : Option (Move ShPlace) :=
  if c = '\x27' then some (.skip .single)
  else if c = '"' then some (.skip .double)
  else if isSafe c then some (.add .bare c)
  else none

def shStep : ShPlace → Char → Option (Move ShPlace)
  | .gap, c => if c = ' ' then some (.skip .gap) else shOpen c
  | .bare, c => if c = ' ' then some (.next .gap) else if c = '\n' then some .stop else shOpen c
  | .single, c => some (if c = '\x27' then .skip .bare else .add .single c)
  | .double, c =>
    if c = '"' then some (.skip .bare)
    else if c ∈ ['$', '\x60', '\\'] then none
    else some (.add .double c)

theorem eq_of_shStep {s s' : ShPlace} {d : Char} (h : shStep s c = some (.add s' d)) : d = c := by
  have h_open {o : ShPlace} (h_o : shOpen c = some (.add o d)) : d = c := by
    unfold shOpen at h_o
    split_ifs at h_o <;> cases h_o
    rfl
  cases s with
  | gap =>
    rw [shStep] at h
    split_ifs at h
    · cases h
    · exact h_open h
  | bare =>
    rw [shStep] at h
    split_ifs at h
    · cases h
    · cases h
    · exact h_open h
  | single =>
    rw [shStep] at h
    split_ifs at h <;> cases h
    rfl
  | double =>
    rw [shStep] at h
    split_ifs at h <;> cases h
    rfl

theorem shOpen_of_isSafe (h : isSafe c = true) : shOpen c = some (.add .bare c) := by
  have h_ne : c ≠ '\x27' ∧ c ≠ '"' := by
    constructor <;> rintro rfl <;> exact absurd h (by decide)
  rw [shOpen, if_neg h_ne.1, if_neg h_ne.2, if_pos h]

theorem shStep_of_isSafe (h : isSafe c = true) :
    shStep .gap c = some (.add .bare c) ∧ shStep .bare c = some (.add .bare c) := by
  have h_ne : c ≠ ' ' ∧ c ≠ '\n' := by
    constructor <;> rintro rfl <;> exact absurd h (by decide)
  rw [shStep, shStep, if_neg h_ne.1, if_neg h_ne.1, if_neg h_ne.2, shOpen_of_isSafe h]
  exact ⟨rfl, rfl⟩

theorem read_shlexQuote : readWords shStep .gap [] (shlexQuote v ++ cs) =
    readWords shStep .bare v cs := by
  unfold shlexQuote
  split_ifs with h_nil h_safe
  · rw [h_nil]
    rfl
  · obtain ⟨c, v, rfl⟩ := List.exists_cons_of_ne_nil h_nil
    obtain ⟨h_c, h_v⟩ := List.forall_mem_cons.mp (List.all_eq_true.mp h_safe)
    have h_rest : readWords shStep .bare [c] (v.flatMap (fun c => [c]) ++ cs) =
        readWords shStep .bare ([c] ++ v) cs :=
      read_flatMap fun d h_d w cs => readWords_add (shStep_of_isSafe (h_v d h_d)).2
    rw [List.flatMap_singleton'] at h_rest
    exact (readWords_add (shStep_of_isSafe h_c).1).trans h_rest
  · -- the first quote is passed, and behind the last one the word is in a bare place
    show readWords shStep .single [] (List.flatMap _ v ++ ['\x27'] ++ cs) = _
    rw [List.append_assoc, read_flatMap]
    · rfl
    · intro c _ w cs
      split_ifs with h_c
      · rw [h_c]
        rfl
      · exact readWords_add (congrArg some (if_neg h_c))

inductive PyPlace
  | gap
  | text
  | escape
  | hex (digits : List Char)
  | closed
  | line

/-- `int(digits, 16)` of lower case digits. -/
def hexValue (digits : List Char) : Option ℕ :=
  digits.foldlM (fun n c =>
    let hexes := "0123456789abcdef".toList
    if c ∈ hexes then some (16 * n + hexes.idxOf c) else none) 0

def pyStep : PyPlace → Char → Option (Move PyPlace)
  | .gap, c => if c = ' ' then some (.skip .gap) else if c = '"' then some (.skip .text) else none
  | .text, c =>
    if c = '"' then some (.skip .closed)
    else if c = '\\' then some (.skip .escape)
    else if c = '\n' then none
    else some (.add .text c)
  | .escape, c =>
    if c = 'u' then some (.skip (.hex []))
    else (shortEscapes.find? (·.2 = c)).map fun e => .add .text e.1
  | .hex digits, c =>
    if digits.length < 3 then some (.skip (.hex (digits ++ [c])))
    else (hexValue (digits ++ [c])).map fun n => .add .text (Char.ofNat n)
  | .closed, c =>
    if c = ',' then some (.next .gap) else if c = ']' then some (.skip .line) else none
  | .line, c => if c = '\n' then some .stop else none

theorem read_jsonEscape : readWords pyStep .text w (jsonEscape c ++ cs) =
    readWords pyStep .text (w ++ [c]) cs := by
  have h_short : ∀ e ∈ shortEscapes, e.2 ≠ 'u' ∧ shortEscapes.find? (·.2 = e.2) = some e :=
    List.forall_of_all (by decide)
  have h_hex : ∀ n < 0x20, hexValue (hexDigits 4 n) = some n := by decide
  unfold jsonEscape
  cases h_c : shortEscapes.find? (·.1 = c) with
  | some e =>
    obtain ⟨h_u, h_find⟩ := h_short _ (mem_shortEscapes h_c)
    have h_escape : pyStep .text '\\' = some (.skip .escape) := rfl
    refine (readWords_skip h_escape).trans (readWords_add ?_)
    rw [pyStep, if_neg h_u, h_find]
    rfl
  | none =>
    have h_plain : c ≠ '"' ∧ c ≠ '\\' ∧ c ≠ '\n' := by
      refine ⟨?_, ?_, ?_⟩ <;> rintro rfl <;> exact absurd h_c (by decide)
    dsimp only
    split_ifs with h_low
    · have h_value : pyStep (.hex (hexDigits 3 (c.toNat / 16))) (Nat.digitChar (c.toNat % 16)) =
          some (.add .text c) := by
        show (hexValue (hexDigits 4 c.toNat)).map _ = _
        rw [h_hex _ h_low, Option.map_some, Char.ofNat_toNat]
      exact readWords_add h_value
    · refine readWords_add ?_
      rw [pyStep, if_neg h_plain.1, if_neg h_plain.2.1, if_neg h_plain.2.2]

theorem read_jsonString : readWords pyStep .gap [] (jsonString v ++ cs) =
    readWords pyStep .closed v cs := by
  show readWords pyStep .text [] (v.flatMap jsonEscape ++ ['"'] ++ cs) = _
  rw [List.append_assoc, read_flatMap fun c _ w cs => read_jsonEscape]
  rfl

inductive PsPlace
  | gap
  | text
  | closed
  | line

def psStep : PsPlace → Char → Option (Move PsPlace)
  | .gap, c =>
    if c = ' ' then some (.skip .gap) else if c = '\x27' then some (.skip .text) else none
  | .text, c => some (if c = '\x27' then .skip .closed else .add .text c)
  | .closed, c =>
    if c = '\x27' then some (.add .text c)
    else if c = ',' then some (.next .gap)
    else if c = ')' then some (.skip .line)
    else none
  | .line, c => if c = '\n' then some .stop else none

theorem read_psQuote : readWords psStep .gap [] (psQuote v ++ cs) =
    readWords psStep .closed v cs := by
  show readWords psStep .text [] (List.flatMap _ v ++ ['\x27'] ++ cs) = _
  rw [List.append_assoc, read_flatMap]
  · rfl
  · intro c _ w cs
    split_ifs with h_c
    · rw [h_c]
      rfl
    · exact readWords_add (congrArg some (if_neg h_c))

theorem notMem_jsonString (h_c : c ∈ ['\n', '\r']) : c ∉ jsonString v := by
  have h_short : ∀ c ∈ ['\n', '\r'], (∀ e ∈ shortEscapes, c ≠ e.2) ∧
      shortEscapes.find? (·.1 = c) ≠ none ∧ c ∉ ['"', '\\', 'u'] ∧ ∀ n < 0x20, c ∉ hexDigits 4 n :=
    List.forall_of_all (by decide)
  obtain ⟨h_second, h_find, h_plain, h_hex⟩ := h_short c h_c
  simp only [List.mem_cons, List.not_mem_nil, or_false, not_or] at h_plain
  have h_escape (d : Char) : c ∉ jsonEscape d := by
    unfold jsonEscape
    cases h_d : shortEscapes.find? (·.1 = d) with
    | some e => simp [h_plain, h_second _ (mem_shortEscapes h_d)]
    | none =>
      dsimp only
      split_ifs with h_low
      · simp [h_plain, h_hex _ h_low]
      · exact fun h => h_find (List.mem_singleton.mp h ▸ h_d)
  simp [jsonString, h_plain, h_escape]

end Readers

/-! ### What is put before a script -/

section Marks

variable {v x y : List Char}

def mark : List Char := '\n' :: (delimiter ++ ['\n'])

theorem mark_append (h : '\n' ∉ x) : mark <:+: x ++ y ↔ mark <:+: y := infix_append_of_notMem h

theorem not_mark (h : '\n' ∉ x) : ¬mark <:+: x := fun h_mark =>
  h (h_mark.subset List.mem_cons_self)

theorem mark_append_cons {e : Char} (h : e ∉ mark) :
    mark <:+: x ++ e :: y ↔ mark <:+: x ∨ mark <:+: y :=
  infix_append_cons (List.cons_ne_nil _ _) h

theorem mark_cons {e : Char} (h : e ∉ mark) : mark <:+: e :: y ↔ mark <:+: y := by
  have h_e := mark_append_cons (x := []) (y := y) h
  rwa [List.nil_append, or_iff_right (not_mark List.not_mem_nil)] at h_e

theorem mark_between {esc : Char → List Char} (h_other : ∀ c, c ≠ '\x27' → esc c = [c])
    (h_esc : ∀ x y, mark <:+: x ++ (esc '\x27' ++ y) ↔ mark <:+: x ∨ mark <:+: y) :
    mark <:+: '\x27' :: v.flatMap esc ++ ['\x27'] ++ y ↔ mark <:+: v ∨ mark <:+: y := by
  have h_quote : '\x27' ∉ mark := by decide
  have h_within : mark <:+: [] ++ v.flatMap esc ↔ mark <:+: [] ++ v :=
    infix_flatMap_iff (List.cons_ne_nil _ _) h_quote h_other h_esc
  rw [List.nil_append, List.nil_append] at h_within
  rw [List.append_assoc, List.cons_append, mark_cons h_quote, List.singleton_append,
    mark_append_cons h_quote, h_within]

theorem mark_shlexQuote : mark <:+: shlexQuote v ++ y ↔ mark <:+: v ∨ mark <:+: y := by
  unfold shlexQuote
  split_ifs with h_nil h_safe
  · rw [mark_append (by decide), h_nil, or_iff_right (not_mark List.not_mem_nil)]
  · have h_v : '\n' ∉ v := fun h => absurd (List.all_eq_true.mp h_safe _ h) (by decide)
    rw [mark_append h_v, or_iff_right (not_mark h_v)]
  · refine mark_between (fun c h_c => if_neg h_c) fun x y => ?_
    show mark <:+: x ++ '\x27' :: '"' :: '\x27' :: '"' :: '\x27' :: y ↔ _
    rw [mark_append_cons (by decide), mark_cons (by decide), mark_cons (by decide),
      mark_cons (by decide), mark_cons (by decide)]

theorem mark_psQuote : mark <:+: psQuote v ++ y ↔ mark <:+: v ∨ mark <:+: y := by
  refine mark_between (fun c h_c => if_neg h_c) fun x y => ?_
  show mark <:+: x ++ '\x27' :: '\x27' :: y ↔ _
  rw [mark_append_cons (by decide), mark_cons (by decide)]

theorem mark_line {a b : Char} (h : a ≠ '_' ∨ b ≠ '_') (h_line : '\n' ∉ a :: b :: x) :
    mark <:+: '\n' :: (a :: b :: x ++ y) ↔ mark <:+: y := by
  rw [List.infix_cons_iff, mark_append h_line]
  refine or_iff_right ?_
  rintro ⟨r, h_begins⟩
  have h_mark : mark = '\n' :: '_' :: '_' :: "SCRIPT__\n".toList := rfl
  rw [h_mark] at h_begins
  simp only [List.cons_append, List.cons.injEq] at h_begins
  exact h.elim (· h_begins.2.1.symm) (· h_begins.2.2.1.symm)

theorem carriage_between {esc : Char → List Char} (h_other : ∀ c, c ≠ '\x27' → esc c = [c])
    (h_esc : '\r' ∉ esc '\x27') (h : '\r' ∈ '\x27' :: v.flatMap esc ++ ['\x27']) : '\r' ∈ v := by
  have h_mem : '\r' ∈ v.flatMap esc := by simpa using h
  obtain ⟨c, h_c, h_in⟩ := List.mem_flatMap.mp h_mem
  by_cases h_quote : c = '\x27'
  · exact absurd (h_quote ▸ h_in) h_esc
  · rw [h_other c h_quote, List.mem_singleton] at h_in
    exact h_in ▸ h_c

theorem carriage_shlexQuote (h : '\r' ∈ shlexQuote v) : '\r' ∈ v := by
  unfold shlexQuote at h
  split_ifs at h with h_nil h_safe
  · exact absurd h (by decide)
  · exact h
  · exact carriage_between (fun c h_c => if_neg h_c) (by decide) h

end Marks

/-- What is put before a script: an opening and quoted words, the first of which are not values. -/
structure Injection extends Language where
  opening : List Char
  own : List (List Char)
  raw : Bool
  front : List Char
  closing_eq : closing = front ++ ['\n']
  own_of_raw : raw = true → own = []
  mark_quote : ∀ v y, mark <:+: quote v ++ y ↔ (raw = true ∧ mark <:+: v) ∨ mark <:+: y
  mark_opening : ∀ y, mark <:+: '\n' :: (opening ++ y) ↔ mark <:+: y
  newline : '\n' ∉ separator ++ front
  carriage : '\r' ∉ opening ++ (separator ++ closing)
  carriage_quote : ∀ v, '\r' ∈ quote v → raw = true ∧ '\r' ∈ v
  head : ∃ c cs, opening = c :: cs ∧ c ≠ '#' ∧ isSpace c = false

def shInjection : Injection where
  State := ShPlace
  start := .gap
  closed := .bare
  step := shStep
  quote := shlexQuote
  separator := [' ']
  closing := ['\n']
  quoted _ _ := read_shlexQuote
  next _ _ := rfl
  last _ _ := rfl
  opening := "set -- ".toList
  own := []
  raw := true
  front := []
  closing_eq := rfl
  own_of_raw _ := rfl
  mark_quote _ _ := by rw [mark_shlexQuote, eq_self, true_and]
  mark_opening _ := mark_line (.inl (by decide)) (by decide)
  newline := by decide
  carriage := by decide
  carriage_quote _ h := ⟨rfl, carriage_shlexQuote h⟩
  head := ⟨'s', _, rfl, by decide, by decide⟩

def pyInjection : Injection where
  State := PyPlace
  start := .gap
  closed := .closed
  step := pyStep
  quote := jsonString
  separator := [',', ' ']
  closing := [']', '\n']
  quoted _ _ := read_jsonString
  next _ _ := rfl
  last _ _ := rfl
  opening := "import sys as _sys\n_sys.argv = [".toList
  own := ["script".toList]
  raw := false
  front := [']']
  closing_eq := rfl
  own_of_raw h := by cases h
  mark_quote _ _ := by
    rw [mark_append (notMem_jsonString List.mem_cons_self), eq_false Bool.false_ne_true, false_and,
      false_or]
  mark_opening y := by
    show mark <:+: '\n' :: ('i' :: 'm' :: "port sys as _sys".toList ++
      '\n' :: ('_' :: 's' :: "ys.argv = [".toList ++ y)) ↔ _
    rw [mark_line (.inl (by decide)) (by decide), mark_line (.inr (by decide)) (by decide)]
  newline := by decide
  carriage := by decide
  carriage_quote _ h := absurd h (notMem_jsonString (List.mem_cons_of_mem _ List.mem_cons_self))
  head := ⟨'i', _, rfl, by decide, by decide⟩

def psInjection : Injection where
  State := PsPlace
  start := .gap
  closed := .closed
  step := psStep
  quote := psQuote
  separator := [',', ' ']
  closing := [')', '\n']
  quoted _ _ := read_psQuote
  next _ _ := rfl
  last _ _ := rfl
  opening := "$args = @(".toList
  own := []
  raw := true
  front := [')']
  closing_eq := rfl
  own_of_raw _ := rfl
  mark_quote _ _ := by rw [mark_psQuote, eq_self, true_and]
  mark_opening _ := mark_line (.inl (by decide)) (by decide)
  newline := by decide
  carriage := by decide
  carriage_quote _ h := ⟨rfl, carriage_between (fun _ h_c => if_neg h_c) (by decide) h⟩
  head := ⟨'$', _, rfl, by decide, by decide⟩

def injection : ScriptType → Option Injection
  | .shell => some shInjection
  | .python => some pyInjection
  | .powershell => some psInjection
  | .bat => none

/-! ### What a target runs -/

section Run

variable {source : Source} {script s x cs : List Char} {t : ScriptType} {c : Char}

def Normalizes (t : ScriptType) : Prop := ¬(t = .bat ∨ t = .powershell)

theorem carriage_normalize (h : Normalizes t) : '\r' ∉ normalizeScriptLineEndings s t := by
  rw [normalizeScriptLineEndings, if_neg h, List.mem_map]
  rintro ⟨c, -, h_c⟩
  split_ifs at h_c with h_return
  · exact absurd h_c (by decide)
  · exact h_return h_c

theorem normalize_append (h : Normalizes t → '\r' ∉ x) :
    normalizeScriptLineEndings (x ++ cs) t = x ++ normalizeScriptLineEndings cs t := by
  unfold normalizeScriptLineEndings
  split_ifs with h_as_is
  · rfl
  · have h_x := h h_as_is
    clear h
    induction x with
    | nil => rfl
    | cons c x ih =>
      obtain ⟨h_c, h_x⟩ := not_or.mp (mt List.mem_cons.mpr h_x)
      have h_crlf : ∀ cs', c = '\r' → x ++ cs = '\n' :: cs' → False := fun _ h_eq _ => h_c h_eq.symm
      rw [List.cons_append, replaceCrlf.eq_3 c (x ++ cs) h_crlf, List.map_cons, ih h_x,
        if_neg (Ne.symm h_c), List.cons_append]

theorem parseShebang_eq_none (h : c ≠ '#') (h_space : isSpace c = false) :
    parseShebang (c :: cs) = none := by
  have h_break : ¬isLineBreak c = true := by
    intro h_mem
    rw [isLineBreak, List.contains_iff_mem] at h_mem
    have h_all : ∀ d ∈ ['\n', '\x0b', '\x0c', '\r', '\x1c', '\x1d', '\x1e', '\u0085', '\u2028',
        '\u2029'], isSpace d = true := List.forall_of_all (by decide)
    rw [h_all c h_mem] at h_space
    cases h_space
  have h_crlf : ∀ cs', c = '\r' → cs = '\n' :: cs' → False := by
    rintro cs' rfl
    exact absurd (show isLineBreak '\r' = true by decide) h_break
  obtain ⟨l, ls, h_lines⟩ : ∃ l ls, splitlines (c :: cs) = (c :: l) :: ls := by
    rw [splitlines.eq_3 c cs h_crlf, if_neg h_break]
    split
    · exact ⟨_, _, rfl⟩
    · exact ⟨_, _, rfl⟩
  have h_strip : strip (c :: l) <+: c :: l := by
    have h_left : (c :: l).dropWhile isSpace = c :: l :=
      List.dropWhile_cons_of_neg (by rw [h_space]; exact Bool.false_ne_true)
    rw [strip, h_left]
    exact List.rdropWhile_prefix isSpace (c :: l)
  rw [parseShebang, h_lines]
  refine if_neg fun h_begins => h ?_
  exact (List.cons_prefix_cons.mp (h_begins.trans h_strip)).1.symm

theorem notMem_shellOf : ' ' ∉ shellOf s t ∧ '\n' ∉ shellOf s t := by
  have h_all : ∀ shell ∈ supportedShells, ' ' ∉ shell ∧ '\n' ∉ shell :=
    List.forall_of_all (by decide)
  unfold shellOf
  cases h_parse : parseShebang s with
  | none => cases t <;> decide
  | some shell =>
    refine h_all shell ?_
    unfold parseShebang at h_parse
    split at h_parse
    · cases h_parse
    · obtain ⟨-, h_parse⟩ := Option.ite_none_right_eq_some.mp h_parse
      split at h_parse
      · cases h_parse
      · obtain ⟨h_shell, h_eq⟩ := Option.ite_none_right_eq_some.mp h_parse
        cases h_eq
        exact h_shell

def document (source : Source) (script : List Char) : List Char :=
  if source = .manual then heredoc delimiter (script.splitOn '\n' ++ [delimiter]) else script

def whole (source : Source) (script : List Char) : List Char :=
  if source = .manual then script ++ ['\n'] else script

theorem run_executeScriptOnTarget : (executeScriptOnTarget source s t).run =
    (shellOf (normalizeScriptLineEndings s t) t,
      document source (normalizeScriptLineEndings s t)) := by
  unfold executeScriptOnTarget document
  dsimp only
  generalize normalizeScriptLineEndings s t = script
  split_ifs
  · obtain ⟨h_space, h_newline⟩ := @notMem_shellOf script t
    generalize shellOf script t = shell at h_space h_newline
    have h_head : '\n' ∉ shell ++ " <<\x27__SCRIPT__\x27".toList := by
      rw [List.mem_append, not_or]
      exact ⟨h_newline, by decide⟩
    have h_word : (shell ++ " <<\x27__SCRIPT__\x27".toList).takeWhile (· ≠ ' ') = shell := by
      rw [List.takeWhile_append_of_pos]
      · exact List.append_nil shell
      · rintro c h_c
        exact decide_eq_true fun h_eq => h_space (h_eq ▸ h_c)
    have h_lines : (buildHeredocCommand shell script).splitOn '\n' =
        (shell ++ " <<\x27__SCRIPT__\x27".toList) :: (script.splitOn '\n' ++ [delimiter]) := by
      rw [buildHeredocCommand, List.splitOn_append_cons_self, List.splitOn_append_cons_self,
        List.splitOn_eq_singleton h_head,
        List.splitOn_eq_singleton (show '\n' ∉ delimiter by decide)]
      rfl
    rw [Sent.run, h_lines]
    exact Prod.ext h_word rfl
  · rfl

theorem document_append : ∃ rest, document source s ++ rest = whole source s ∧
    (rest = [] ↔ (source = .manual → delimiter ∉ s.splitOn '\n')) := by
  unfold document whole
  split_ifs with h_source
  · obtain ⟨rest, h_append, h_nil⟩ := @heredoc_append delimiter s
    exact ⟨rest, h_append, h_nil.trans ⟨fun h _ => h, fun h => h h_source⟩⟩
  · exact ⟨[], List.append_nil s, iff_of_true rfl fun h_manual => absurd h_manual h_source⟩

theorem whole_append : whole source (x ++ s) = x ++ whole source s := by
  unfold whole
  split_ifs
  · exact List.append_assoc x s ['\n']
  · rfl

end Run

/-! ### What arrives -/

section Arrival

variable {i : Injection} {t : ScriptType} {source : Source}
  {values : List (List Char)} {script text r s cs : List Char} {vs : List (List Char)}

def Injection.lead (i : Injection) (values : List (List Char)) : List Char :=
  i.opening ++ i.text (i.own ++ values)

def Injection.received (i : Injection) (text : List Char) :
    Option (List (List Char) × List Char) :=
  (i.opening.isPrefixOf? text).bind fun rest =>
    (readWords i.step i.start [] rest).map fun p => (p.1.drop i.own.length, p.2)

/-- The positional parameters and the script that a text gives; without values nothing is put
before the script. -/
def received (t : ScriptType) (values : List (List Char)) (text : List Char) :
    Option (List (List Char) × List Char) :=
  if values = [] then some ([], text) else (injection t).bind (·.received text)

/-- `merge_script_with_params` of `params_to_string` and `execute_script_on_target`. -/
def send (split : List Char → Option (List (List Char))) (source : Source)
    (values : List (List Char)) (script : List Char) (t : ScriptType) : Sent :=
  executeScriptOnTarget source (mergeScriptWithParams split script (paramsToString values) t) t

/-- What runs at the target has the values and the script, and the interpreter of a run without
parameters. -/
structure Arrives (split : List Char → Option (List (List Char))) (source : Source)
    (values : List (List Char)) (script : List Char) (t : ScriptType) : Prop where
  received : received t values (send split source values script t).run.2 =
    some (values, whole source (normalizeScriptLineEndings script t))
  shell : (send split source values script t).run.1 = (send split source [] script t).run.1

/-- It names no other interpreter, and no value has a carriage return or the delimiter as a line. -/
structure Unharmed (source : Source) (values : List (List Char)) (script : List Char)
    (t : ScriptType) : Prop where
  shebang : values ≠ [] → ∀ shell, parseShebang script = some shell → shell = shellMapping t
  carriage : t = .shell → ∀ v ∈ values, '\r' ∉ v
  script_line : source = .manual → delimiter ∉ script.splitOn '\n'
  value_line : source = .manual → t ≠ .python → ∀ v ∈ values, ¬mark <:+: v

theorem Injection.received_lead (h : values ≠ []) :
    i.received (i.lead values ++ cs) = some (values, cs) := by
  have h_ne : i.own ++ values ≠ [] := List.append_ne_nil_of_right_ne_nil _ h
  rw [received, lead, List.append_assoc, List.isPrefixOf?_eq_some_iff_append_eq.mpr rfl,
    Option.bind_some, i.read_text h_ne, Option.map_some, List.drop_left]

theorem Injection.received_append (h : i.received text = some (vs, r)) :
    i.received (text ++ s) = some (vs, r ++ s) := by
  obtain ⟨rest, h_prefix, h_read⟩ := Option.bind_eq_some_iff.mp h
  obtain ⟨⟨ws, r'⟩, h_words, h_eq⟩ := Option.map_eq_some_iff.mp h_read
  cases h_eq
  rw [received, ← List.isPrefixOf?_eq_some_iff_append_eq.mp h_prefix, List.append_assoc,
    List.isPrefixOf?_eq_some_iff_append_eq.mpr rfl, Option.bind_some, read_append h_words]
  rfl

/-- **The line.** The delimiter is a line of the whole if it is one of a value or of the script. -/
theorem Injection.mem_lines_lead : delimiter ∈ (i.lead values ++ s).splitOn '\n' ↔
    (i.raw = true ∧ ∃ v ∈ values, mark <:+: v) ∨ delimiter ∈ s.splitOn '\n' := by
  obtain ⟨h_separator, h_front⟩ := not_or.mp (mt List.mem_append.mpr i.newline)
  rw [mem_lines_iff (by decide) (by decide), mem_lines_iff (by decide) (by decide), lead,
    List.append_assoc, List.append_assoc]
  refine (i.mark_opening _).trans ?_
  refine (Language.infix_text_iff i.mark_quote fun y => mark_append h_separator).trans ?_
  rw [i.closing_eq, List.append_assoc]
  refine or_congr ⟨?_, ?_⟩ (mark_append h_front)
  · rintro ⟨v, h_v, h_raw, h_mark⟩
    rw [i.own_of_raw h_raw] at h_v
    exact ⟨h_raw, v, h_v, h_mark⟩
  · rintro ⟨h_raw, v, h_v, h_mark⟩
    exact ⟨v, List.mem_append_right _ h_v, h_raw, h_mark⟩

theorem Injection.carriage_lead (h : i.raw = true → ∀ v ∈ values, '\r' ∉ v) :
    '\r' ∉ i.lead values := by
  have h_own := i.carriage
  simp only [List.mem_append, not_or] at h_own
  rw [lead, List.mem_append]
  rintro (h_mem | h_mem)
  · exact h_own.1 h_mem
  · obtain ⟨v, h_v, h_c⟩ | h_c | h_c := Language.mem_text h_mem
    · obtain ⟨h_raw, h_c⟩ := i.carriage_quote v h_c
      rw [i.own_of_raw h_raw] at h_v
      exact h h_raw v h_v h_c
    · exact h_own.2.1 h_c
    · exact h_own.2.2 h_c

theorem carriage_received (h : shInjection.received text = some (values, r))
    (h_text : '\r' ∉ text) : ∀ v ∈ values, '\r' ∉ v := by
  obtain ⟨rest, h_prefix, h_read⟩ := Option.bind_eq_some_iff.mp h
  obtain ⟨⟨ws, r'⟩, h_words, h_eq⟩ := Option.map_eq_some_iff.mp h_read
  cases h_eq
  intro v h_v h_c
  have h_step : ∀ s c s' d, shStep s c = some (.add s' d) → d = c :=
    fun _ _ _ _ h_add => eq_of_shStep h_add
  have h_mem := mem_of_read h_step h_words v (List.mem_of_mem_drop h_v) _ h_c
  rw [← List.isPrefixOf?_eq_some_iff_append_eq.mp h_prefix] at h_text
  exact h_text (List.mem_append_right _ (h_mem.resolve_left List.not_mem_nil))

variable {split : List Char → Option (List (List Char))}

theorem paramsToString_ne_nil (h : values ≠ []) : paramsToString values ≠ [] := by
  obtain ⟨v, vs, rfl⟩ := List.exists_cons_of_ne_nil h
  have h_quote : shlexQuote v ≠ [] := by
    unfold shlexQuote
    split_ifs with h_v h_safe
    · exact List.cons_ne_nil _ _
    · exact h_v
    · exact List.cons_ne_nil _ _
  cases vs with
  | nil => simpa [paramsToString] using h_quote
  | cons v' vs => simp [paramsToString, h_quote]

theorem merge_eq (h_split : split (paramsToString values) = some values) (h : values ≠ [])
    (h_i : injection t = some i) :
    mergeScriptWithParams split script (paramsToString values) t = i.lead values ++ script := by
  unfold mergeScriptWithParams
  rw [if_neg (paramsToString_ne_nil h), h_split]
  dsimp only [Option.getD_some]
  rw [if_neg h]
  cases t <;> cases h_i <;>
    simp [Injection.lead, Language.text, shInjection, pyInjection, psInjection]

/-- **Positional parameters.** They arrive, with the script and its interpreter, exactly if nothing
of the three does harm. -/
theorem arrives_iff (h_split : ∀ vs, split (paramsToString vs) = some vs) (h : t ≠ .bat) :
    Arrives split source values script t ↔
      Unharmed source values (normalizeScriptLineEndings script t) t := by
  obtain ⟨i, h_i, h_raw⟩ : ∃ i, injection t = some i ∧ (i.raw = true ↔ t ≠ .python) := by
    cases t with
    | shell => exact ⟨_, rfl, by decide⟩
    | python => exact ⟨_, rfl, by decide⟩
    | powershell => exact ⟨_, rfl, by decide⟩
    | bat => exact absurd rfl h
  set body := normalizeScriptLineEndings script t with h_body
  have h_none : (send split source [] script t).run = (shellOf body t, document source body) :=
    run_executeScriptOnTarget
  by_cases h_values : values = []
  · subst h_values
    obtain ⟨rest, h_rest, h_nil⟩ := @document_append source body
    have h_whole : document source body = whole source body ↔ rest = [] := by
      rw [← h_rest, List.self_eq_append_right]
    constructor
    · rintro ⟨h_received, -⟩
      rw [h_none, received, if_pos rfl] at h_received
      have h_line := h_nil.mp (h_whole.mp (Prod.mk.inj (Option.some.inj h_received)).2)
      exact ⟨fun h => absurd rfl h, fun _ v h_v => absurd h_v List.not_mem_nil, h_line,
        fun _ _ v h_v => absurd h_v List.not_mem_nil⟩
    · intro h_unharmed
      refine ⟨?_, rfl⟩
      rw [h_none, received, if_pos rfl, h_whole.mpr (h_nil.mpr h_unharmed.script_line)]
  -- the first character of what is put before the script hides its interpreter
  set text := normalizeScriptLineEndings (i.lead values ++ script) t with h_text
  have h_run : (send split source values script t).run =
      (shellMapping t, document source text) := by
    rw [send, merge_eq (h_split values) h_values h_i, run_executeScriptOnTarget]
    obtain ⟨c, cs, h_opening, h_hash, h_space⟩ := i.head
    have h_c : '\r' ∉ [c] := fun h_c => by
      rw [← List.mem_singleton.mp h_c] at h_space
      exact absurd h_space (by decide)
    have h_head : text = [c] ++ normalizeScriptLineEndings
        (cs ++ i.text (i.own ++ values) ++ script) t := by
      rw [h_text, Injection.lead, h_opening]
      exact normalize_append fun _ => h_c
    rw [← h_text, shellOf, h_head, List.singleton_append, parseShebang_eq_none h_hash h_space]
    rfl
  have h_lead (h_carriage : t = .shell → ∀ v ∈ values, '\r' ∉ v) :
      text = i.lead values ++ body := by
    refine normalize_append fun h_normalizes => i.carriage_lead fun h_i_raw => h_carriage ?_
    have h_python := h_raw.mp h_i_raw
    cases t with
    | shell => rfl
    | python => exact absurd rfl h_python
    | powershell => exact absurd (.inr rfl) h_normalizes
    | bat => exact absurd rfl h
  have h_received : received t values (document source text) =
      i.received (document source text) := by
    rw [received, if_neg h_values, h_i, Option.bind_some]
  obtain ⟨rest, h_rest, h_nil⟩ := @document_append source text
  constructor
  · rintro ⟨h_arrives, h_shell⟩
    rw [h_run, h_received] at h_arrives
    rw [h_run, h_none] at h_shell
    have h_carriage : t = .shell → ∀ v ∈ values, '\r' ∉ v := by
      rintro rfl
      cases h_i
      refine carriage_received h_arrives fun h_c => ?_
      have h_mem : '\r' ∈ whole source text := h_rest ▸ List.mem_append_left rest h_c
      have h_text_c : '\r' ∉ text := carriage_normalize (t := .shell) (show ¬(_ ∨ _) by decide)
      unfold whole at h_mem
      split_ifs at h_mem
      · exact h_text_c ((List.mem_append.mp h_mem).resolve_right (by decide))
      · exact h_text_c h_mem
    -- what is behind the document would be read with it
    have h_all := i.received_append (s := rest) h_arrives
    rw [h_rest, h_lead h_carriage, whole_append, i.received_lead h_values] at h_all
    have h_end := List.self_eq_append_right.mp (Prod.mk.inj (Option.some.inj h_all)).2
    have h_line := h_nil.mp h_end
    rw [h_lead h_carriage] at h_line
    refine ⟨fun _ shell h_parse => ?_, h_carriage, fun h_manual h_mem => ?_,
      fun h_manual h_python v h_v h_mark => ?_⟩
    · rw [shellOf, h_parse] at h_shell
      exact h_shell.symm
    · exact h_line h_manual (Injection.mem_lines_lead.mpr (.inr h_mem))
    · refine h_line h_manual (Injection.mem_lines_lead.mpr (.inl ?_))
      exact ⟨h_raw.mpr h_python, v, h_v, h_mark⟩
  · intro h_unharmed
    have h_line : source = .manual → delimiter ∉ text.splitOn '\n' := by
      intro h_manual h_mem
      rw [h_lead h_unharmed.carriage] at h_mem
      obtain ⟨h_i_raw, v, h_v, h_mark⟩ | h_script := Injection.mem_lines_lead.mp h_mem
      · exact h_unharmed.value_line h_manual (h_raw.mp h_i_raw) v h_v h_mark
      · exact h_unharmed.script_line h_manual h_script
    rw [h_nil.mpr h_line, List.append_nil] at h_rest
    refine ⟨?_, ?_⟩
    · rw [h_run, h_received, h_rest, h_lead h_unharmed.carriage, whole_append,
        i.received_lead h_values]
    · rw [h_run, h_none, shellOf]
      cases h_parse : parseShebang body with
      | none => rfl
      | some shell => exact (h_unharmed.shebang h_values shell h_parse).symm

end Arrival

section Examples

private def splitWords (s : List Char) : Option (List (List Char)) :=
  if s = [] then some [] else (readWords shStep .gap [] (s ++ ['\n'])).map (·.1)

private theorem splitWords_paramsToString (vs : List (List Char)) :
    splitWords (paramsToString vs) = some vs := by
  by_cases h_vs : vs = []
  · rw [h_vs]
    rfl
  · have h_read := @Language.read_text shInjection.toLanguage vs [] h_vs
    rw [List.append_nil] at h_read
    rw [splitWords, if_neg (paramsToString_ne_nil h_vs)]
    exact congrArg (Option.map (·.1)) h_read

theorem values_arrive : Arrives splitWords .manual [[], "it\x27s\n$x".toList]
    "#!/bin/bash\r\necho $1".toList .shell :=
  (arrives_iff splitWords_paramsToString (by decide)).mpr
    { shebang := fun _ shell h_shell => by
        have h_bash : parseShebang (normalizeScriptLineEndings "#!/bin/bash\r\necho $1".toList
            .shell) = some "bash".toList := by decide +kernel
        exact Option.some.inj (h_shell.symm.trans h_bash)
      carriage := fun _ => by decide +kernel
      script_line := fun _ => by decide +kernel
      value_line := fun _ _ => by decide +kernel }

theorem shebang_hidden : ¬∀ (source : Source) (values : List (List Char)) (script : List Char)
    (t : ScriptType), t ≠ .bat → Arrives splitWords source values script t := by
  intro h
  have h_shell := (h .sync ["a".toList] "#!/bin/sh\necho $1".toList .shell (by decide)).shell
  exact absurd h_shell (by decide +kernel)

end Examples

end PositionalParams
end JobMgmt

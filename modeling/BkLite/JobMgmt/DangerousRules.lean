import Mathlib.Data.List.DropRight

/-!
# Dangerous commands and paths

A script is checked against the command rules, a target path against the path rules
(`services/dangerous_checker.py`). What a pattern matches is read from `re.findall`: the text of the
match if the pattern has no group, the text of its group if it has one, and the texts of all groups
otherwise, where a group that takes no part is the empty text. The checks drop an empty text, so a
rule whose first group is empty in every match is not seen (`enforced_iff`).

`Regex` is what `re.compile` returns, with the matches `findall` goes through; the engine is a
parameter.
-/

namespace JobMgmt.DangerousRules

/-! ### Regular expressions -/

structure Match where
  text : String
  groups : List (Option String)
deriving DecidableEq, Repr

/-- A compiled pattern: the number of its groups, and the matches in a text. -/
structure Regex where
  groups : ℕ
  finditer : String → List Match
  length_groups : ∀ content, ∀ m ∈ finditer content, m.groups.length = groups

/-- An element of the result of `findall`. -/
inductive Found
  | text (s : String)
  | tuple (texts : List String)
deriving DecidableEq, Repr

/-- `regex.findall(content)`. -/
def Regex.findall (regex : Regex) (content : String) : List Found :=
  (regex.finditer content).map fun m =>
    match m.groups with
    | [] => .text m.text
    | [group] => .text (group.getD "")
    | groups => .tuple (groups.map (·.getD ""))

/-- `str.lower`, and `re.compile` under `IGNORECASE` with or without `MULTILINE`. -/
structure Env where
  lower : String → String
  compile : (multiline : Bool) → String → Option Regex

/-! ### Rules -/

inductive Level
  | confirm
  | forbidden
deriving DecidableEq, Repr

inductive MatchType
  | exact
  | regex
deriving DecidableEq, Repr

structure Rule where
  id : ℕ
  name : String
  pattern : String
  level : Level
  team : List ℕ
deriving DecidableEq, Repr

structure PathRule extends Rule where
  matchType : MatchType
deriving DecidableEq, Repr

structure MatchInfo where
  ruleId : ℕ
  ruleName : String
  pattern : String
  level : Level
  matchedContent : String
deriving DecidableEq, Repr

/-- `DangerousCheckResult`. -/
structure CheckResult where
  hasWarning : Bool
  hasForbidden : Bool
  warnings : List MatchInfo
  forbidden : List MatchInfo
deriving DecidableEq, Repr

def CheckResult.new : CheckResult := ⟨false, false, [], []⟩

def CheckResult.canExecute (result : CheckResult) : Bool := !result.hasForbidden

def CheckResult.addMatch (result : CheckResult) (rule : Rule) (matchedContent : String) :
    CheckResult :=
  let matchInfo : MatchInfo := ⟨rule.id, rule.name, rule.pattern, rule.level, matchedContent⟩
  if rule.level = .forbidden then
    { result with hasForbidden := true, forbidden := result.forbidden ++ [matchInfo] }
  else { result with hasWarning := true, warnings := result.warnings ++ [matchInfo] }

def Rule.Applicable (rule : Rule) (team : List ℕ) : Prop :=
  team = [] ∨ rule.team = [] ∨ ∃ t ∈ rule.team, t ∈ team

instance (rule : Rule) (team : List ℕ) : Decidable (rule.Applicable team) :=
  inferInstanceAs (Decidable (_ ∨ _ ∨ _))

/-! ### Matching -/

section Matching

variable (env : Env)

/-- `pattern.lower() in content.lower()`. -/
def Contains (pattern content : String) : Prop :=
  (env.lower pattern).toList <:+: (env.lower content).toList

instance (pattern content : String) : Decidable (Contains env pattern content) :=
  inferInstanceAs (Decidable (_ <:+: _))

/-- `match if isinstance(match, str) else match[0] if match else ""`. -/
def Found.first : Found → String
  | .text s => s
  | .tuple [] => ""
  | .tuple (s :: _) => s

def matchPattern (pattern content : String) : List String :=
  if Contains env pattern content then [pattern]
  else
    match env.compile true pattern with
    | some regex => ((regex.findall content).map (·.first)).filter (· ≠ "")
    | none => []

/-- `bool(m)` of an element of `findall`. -/
def Found.truthy : Found → Bool
  | .text s => s ≠ ""
  | .tuple texts => texts ≠ []

/-- `pattern.rstrip("/")`. -/
def rstripSlash (pattern : String) : List Char := pattern.toList.rdropWhile (· = '/')

def matchPathPattern (pattern targetPath : String) : MatchType → List String
  | .exact =>
    if targetPath.toList = rstripSlash pattern ∨
        rstripSlash pattern ++ ['/'] <+: targetPath.toList then [pattern]
    else []
  | .regex =>
    match env.compile false pattern with
    | some regex => ((regex.findall targetPath).filter (·.truthy)).map (·.first)
    | none => []

def checkRules {R : Type} (rule : R → Rule) (found : R → List String) (rules : List R)
    (team : List ℕ) : CheckResult :=
  (rules.filter fun r => (rule r).Applicable team).foldl (fun result r =>
    (found r).foldl (fun result matchedContent => result.addMatch (rule r) matchedContent) result)
    .new

def checkCommand (rules : List Rule) (scriptContent : String) (team : List ℕ) : CheckResult :=
  checkRules id (fun rule => matchPattern env rule.pattern scriptContent) rules team

def checkPath (rules : List PathRule) (targetPath : String) (team : List ℕ) : CheckResult :=
  checkRules (·.toRule) (fun rule => matchPathPattern env rule.pattern targetPath rule.matchType)
    rules team

end Matching

/-! ### What is found -/

section Found

variable {m : Match} {regex : Regex} {content : String}

/-- The element of `findall` for a match. -/
def Match.found (m : Match) : Found :=
  match m.groups with
  | [] => .text m.text
  | [group] => .text (group.getD "")
  | groups => .tuple (groups.map (·.getD ""))

theorem findall_eq : regex.findall content = (regex.finditer content).map (·.found) := rfl

def Match.first (m : Match) : String :=
  match m.groups with
  | [] => m.text
  | group :: _ => group.getD ""

@[simp] theorem first_found : m.found.first = m.first := by
  obtain ⟨text, groups⟩ := m
  match groups with
  | [] => rfl
  | [group] => rfl
  | group :: second :: groups => rfl

theorem truthy_found : m.found.truthy = true ↔ 2 ≤ m.groups.length ∨ m.first ≠ "" := by
  obtain ⟨text, groups⟩ := m
  match groups with
  | [] => simp [Match.found, Found.truthy, Match.first]
  | [group] => simp [Match.found, Found.truthy, Match.first]
  | group :: second :: groups => simp [Match.found, Found.truthy]

end Found

/-! ### Paths -/

def Names (pattern targetPath : String) : Prop :=
  (rstripSlash pattern).splitOn '/' <+: targetPath.toList.splitOn '/'

theorem splitOn_prefix_iff {p t : List Char} :
    p.splitOn '/' <+: t.splitOn '/' ↔ t = p ∨ p ++ ['/'] <+: t := by
  constructor
  · rintro ⟨rest, h_rest⟩
    -- both paths are put together from their parts again
    have h_t : ['/'].intercalate (p.splitOn '/' ++ rest) = t := by
      rw [h_rest, List.intercalate_splitOn]
    cases rest with
    | nil =>
      rw [List.append_nil, List.intercalate_splitOn] at h_t
      exact .inl h_t.symm
    | cons part rest =>
      refine .inr ⟨['/'].intercalate (part :: rest), ?_⟩
      have h_join : ∀ parts : List (List Char), parts ≠ [] →
          ['/'].intercalate (parts ++ part :: rest) =
            ['/'].intercalate parts ++ ['/'] ++ ['/'].intercalate (part :: rest) := by
        intro parts
        induction parts with
        | nil => exact fun h_nil => absurd rfl h_nil
        | cons first parts ih =>
          intro _
          cases parts with
          | nil => simp [List.intercalate_cons_cons]
          | cons second parts =>
            have h_ih := ih (List.cons_ne_nil _ _)
            rw [List.cons_append, List.cons_append, List.intercalate_cons_cons, ← List.cons_append,
              h_ih, List.intercalate_cons_cons]
            simp only [List.append_assoc]
      have h_ne : p.splitOn '/' ≠ [] := by
        rw [List.splitOn_eq_splitOnP]
        exact List.splitOnP_ne_nil _ _
      rw [← h_t, h_join _ h_ne, List.intercalate_splitOn]
  · rintro (rfl | ⟨rest, rfl⟩)
    · exact List.prefix_rfl
    · rw [List.append_assoc, List.singleton_append, List.splitOn_append_cons_self]
      exact List.prefix_append _ _

/-! ### Entries -/

def Rule.info (rule : Rule) (matchedContent : String) : MatchInfo :=
  ⟨rule.id, rule.name, rule.pattern, rule.level, matchedContent⟩

def CheckResult.entries (result : CheckResult) : List MatchInfo :=
  result.warnings ++ result.forbidden

section Entries

variable {R : Type} {rule : R → Rule} {found : R → List String} {rules : List R} {team : List ℕ}
  {result : CheckResult} {entry : MatchInfo}

theorem mem_addMatch {r : Rule} {matchedContent : String} :
    entry ∈ (result.addMatch r matchedContent).entries ↔
      entry ∈ result.entries ∨ entry = r.info matchedContent := by
  rw [CheckResult.addMatch, CheckResult.entries, CheckResult.entries]
  split_ifs
  · simp only [List.mem_append, List.mem_singleton, or_assoc]
    rfl
  · simp only [List.mem_append, List.mem_singleton, or_assoc]
    rw [or_comm (a := entry ∈ result.forbidden)]
    rfl

theorem hasForbidden_addMatch {r : Rule} {matchedContent : String} :
    (result.addMatch r matchedContent).hasForbidden = true ↔
      result.hasForbidden = true ∨ r.level = .forbidden := by
  rw [CheckResult.addMatch]
  split_ifs with h
  · exact iff_of_true rfl (.inr h)
  · exact ⟨.inl, fun h_or => h_or.resolve_right h⟩

theorem foldl_iff {β : Type} {f : CheckResult → β → CheckResult} {P : CheckResult → Prop}
    {Q : β → Prop} (h : ∀ result b, P (f result b) ↔ P result ∨ Q b) (bs : List β)
    (result : CheckResult) : P (bs.foldl f result) ↔ P result ∨ ∃ b ∈ bs, Q b := by
  induction bs generalizing result with
  | nil => simp
  | cons b bs ih =>
    rw [List.foldl_cons, ih, h]
    simp only [List.mem_cons, exists_eq_or_imp, or_assoc]

theorem mem_checkRules : entry ∈ (checkRules rule found rules team).entries ↔
    ∃ r ∈ rules, (rule r).Applicable team ∧ ∃ s ∈ found r, entry = (rule r).info s := by
  rw [checkRules, foldl_iff (P := fun result => entry ∈ result.entries)
    (Q := fun r => ∃ s ∈ found r, entry = (rule r).info s)]
  · simp [CheckResult.new, CheckResult.entries, and_assoc]
  · exact fun result r => foldl_iff (P := fun result => entry ∈ result.entries)
      (Q := fun s => entry = (rule r).info s) (fun result s => mem_addMatch) (found r) result

theorem canExecute_checkRules : (checkRules rule found rules team).canExecute = false ↔
    ∃ r ∈ rules, (rule r).Applicable team ∧ (rule r).level = .forbidden ∧ found r ≠ [] := by
  rw [CheckResult.canExecute, Bool.not_eq_false', checkRules,
    foldl_iff (P := fun result => result.hasForbidden = true)
      (Q := fun r => ∃ s ∈ found r, (rule r).level = .forbidden)]
  · simp only [CheckResult.new, Bool.false_eq_true, false_or, List.mem_filter, decide_eq_true_iff,
      and_assoc]
    refine exists_congr fun r => and_congr_right fun _ => and_congr_right fun _ => ?_
    constructor
    · rintro ⟨s, h_s, h_level⟩
      exact ⟨h_level, List.ne_nil_of_mem h_s⟩
    · rintro ⟨h_level, h_found⟩
      obtain ⟨s, h_s⟩ := List.exists_mem_of_ne_nil _ h_found
      exact ⟨s, h_s, h_level⟩
  · exact fun result r => foldl_iff (P := fun result => result.hasForbidden = true)
      (Q := fun _ => (rule r).level = .forbidden) (fun result s => hasForbidden_addMatch) (found r)
      result

end Entries

/-! ### What a rule says, and what the check sees -/

section Seen

variable {env : Env}

def Env.Matched (env : Env) (multiline : Bool) (pattern content : String) (is : Match → Prop) :
    Prop :=
  ∃ regex, env.compile multiline pattern = some regex ∧ ∃ m ∈ regex.finditer content, is m

def Rule.Hits (env : Env) (rule : Rule) (scriptContent : String) : Prop :=
  Contains env rule.pattern scriptContent ∨
    env.Matched true rule.pattern scriptContent (·.text ≠ "")

def PathRule.Hits (env : Env) (rule : PathRule) (targetPath : String) : Prop :=
  match rule.matchType with
  | .exact => Names rule.pattern targetPath
  | .regex => env.Matched false rule.pattern targetPath (·.text ≠ "")

def Rule.Occurs (env : Env) (rule : Rule) (scriptContent : String) : Prop :=
  Contains env rule.pattern scriptContent ∨
    env.Matched true rule.pattern scriptContent fun _ => True

def PathRule.Occurs (env : Env) (rule : PathRule) (targetPath : String) : Prop :=
  match rule.matchType with
  | .exact => Names rule.pattern targetPath
  | .regex => env.Matched false rule.pattern targetPath fun _ => True

/-- The pattern occurs, or some match has a text in its first group. -/
def Rule.Seen (env : Env) (rule : Rule) (scriptContent : String) : Prop :=
  Contains env rule.pattern scriptContent ∨
    env.Matched true rule.pattern scriptContent (·.first ≠ "")

def PathRule.Seen (env : Env) (rule : PathRule) (targetPath : String) : Prop :=
  match rule.matchType with
  | .exact => Names rule.pattern targetPath
  | .regex => env.Matched false rule.pattern targetPath fun m => 2 ≤ m.groups.length ∨ m.first ≠ ""

theorem Env.Matched.mono {multiline : Bool} {pattern content : String} {is is' : Match → Prop}
    (h : ∀ m, is m → is' m) : env.Matched multiline pattern content is →
      env.Matched multiline pattern content is' := by
  rintro ⟨regex, h_compile, m, h_m, h_is⟩
  exact ⟨regex, h_compile, m, h_m, h m h_is⟩

theorem Rule.Seen.occurs {rule : Rule} {scriptContent : String} :
    rule.Seen env scriptContent → rule.Occurs env scriptContent :=
  Or.imp_right (.mono fun _ _ => trivial)

theorem PathRule.Seen.occurs {rule : PathRule} {targetPath : String} :
    rule.Seen env targetPath → rule.Occurs env targetPath := by
  rw [PathRule.Seen, PathRule.Occurs]
  cases rule.matchType with
  | exact => exact id
  | regex => exact .mono fun _ _ => trivial

theorem matchPattern_ne_nil {rule : Rule} {scriptContent : String} :
    matchPattern env rule.pattern scriptContent ≠ [] ↔ rule.Seen env scriptContent := by
  rw [matchPattern, Rule.Seen]
  split_ifs with h_contains
  · exact iff_of_true (List.cons_ne_nil _ _) (.inl h_contains)
  rw [or_iff_right h_contains, Env.Matched]
  cases env.compile true rule.pattern with
  | none => simp
  | some regex =>
    simp only [findall_eq, List.map_map, Option.some.injEq, exists_eq_left', ne_eq,
      List.filter_eq_nil_iff, List.mem_map, Function.comp_apply, first_found]
    simp

theorem matchPathPattern_ne_nil {rule : PathRule} {targetPath : String} :
    matchPathPattern env rule.pattern targetPath rule.matchType ≠ [] ↔
      rule.Seen env targetPath := by
  rw [PathRule.Seen]
  cases rule.matchType with
  | exact =>
    dsimp only [matchPathPattern]
    rw [Names, splitOn_prefix_iff]
    split_ifs with h
    · exact iff_of_true (List.cons_ne_nil _ _) h
    · exact iff_of_false (fun h_ne => h_ne rfl) h
  | regex =>
    dsimp only [matchPathPattern]
    rw [Env.Matched]
    cases env.compile false rule.pattern with
    | none => simp
    | some regex =>
      simp only [findall_eq, Option.some.injEq, exists_eq_left', ne_eq, List.map_eq_nil_iff,
        List.filter_eq_nil_iff, List.mem_map, forall_exists_index, and_imp,
        forall_apply_eq_imp_iff₂, truthy_found, not_forall, exists_prop, not_not]

end Seen

/-! ### Enforcement -/

section Enforcement

variable (env : Env) (rules : List Rule) (pathRules : List PathRule) (team : List ℕ)
  (scriptContent targetPath : String)

/-- Forbidden rules are enforced: a rule that hits stops the execution, and an entry stands for a
rule that occurs. -/
structure Enforced : Prop where
  command : (∃ rule ∈ rules, rule.Applicable team ∧ rule.level = .forbidden ∧
      rule.Hits env scriptContent) →
    (checkCommand env rules scriptContent team).canExecute = false
  path : (∃ rule ∈ pathRules, rule.Applicable team ∧ rule.level = .forbidden ∧
      rule.Hits env targetPath) →
    (checkPath env pathRules targetPath team).canExecute = false
  command_entries : ∀ entry ∈ (checkCommand env rules scriptContent team).entries,
    ∃ rule ∈ rules, rule.Occurs env scriptContent ∧
      ∃ matchedContent, entry = rule.info matchedContent
  path_entries : ∀ entry ∈ (checkPath env pathRules targetPath team).entries,
    ∃ rule ∈ pathRules, rule.Occurs env targetPath ∧
      ∃ matchedContent, entry = rule.info matchedContent

/-- Where a forbidden rule hits the script or the path, some forbidden rule is seen there. -/
structure Caught : Prop where
  command : (∃ rule ∈ rules, rule.Applicable team ∧ rule.level = .forbidden ∧
      rule.Hits env scriptContent) →
    ∃ rule ∈ rules, rule.Applicable team ∧ rule.level = .forbidden ∧ rule.Seen env scriptContent
  path : (∃ rule ∈ pathRules, rule.Applicable team ∧ rule.level = .forbidden ∧
      rule.Hits env targetPath) →
    ∃ rule ∈ pathRules, rule.Applicable team ∧ rule.level = .forbidden ∧ rule.Seen env targetPath

variable {env rules pathRules team scriptContent targetPath}

theorem canExecute_checkCommand :
    (checkCommand env rules scriptContent team).canExecute = false ↔
      ∃ rule ∈ rules, rule.Applicable team ∧ rule.level = .forbidden ∧
        rule.Seen env scriptContent := by
  rw [checkCommand, canExecute_checkRules]
  simp only [id, matchPattern_ne_nil]

theorem canExecute_checkPath :
    (checkPath env pathRules targetPath team).canExecute = false ↔
      ∃ rule ∈ pathRules, rule.Applicable team ∧ rule.level = .forbidden ∧
        rule.Seen env targetPath := by
  rw [checkPath, canExecute_checkRules]
  simp only [matchPathPattern_ne_nil]

/-- **Enforcement of forbidden rules.** -/
theorem enforced_iff : Enforced env rules pathRules team scriptContent targetPath ↔
    Caught env rules pathRules team scriptContent targetPath := by
  constructor
  · rintro ⟨h_command, h_path, -, -⟩
    exact ⟨fun h => canExecute_checkCommand.mp (h_command h),
      fun h => canExecute_checkPath.mp (h_path h)⟩
  · rintro ⟨h_command, h_path⟩
    refine ⟨fun h => canExecute_checkCommand.mpr (h_command h),
      fun h => canExecute_checkPath.mpr (h_path h), ?_, ?_⟩
    · -- an entry comes from what was found
      intro entry h_entry
      obtain ⟨rule, h_rule, -, s, h_s, h_eq⟩ := mem_checkRules.mp h_entry
      have h_seen := matchPattern_ne_nil.mp (List.ne_nil_of_mem h_s)
      exact ⟨rule, h_rule, h_seen.occurs, s, h_eq⟩
    · intro entry h_entry
      obtain ⟨rule, h_rule, -, s, h_s, h_eq⟩ := mem_checkRules.mp h_entry
      have h_seen := matchPathPattern_ne_nil.mp (List.ne_nil_of_mem h_s)
      exact ⟨rule, h_rule, h_seen.occurs, s, h_eq⟩

end Enforcement

section Examples

/-- `(sudo )?rm -r[f]` in a script without `sudo`: the match is `rm -rf`, its group takes no
part. -/
private def rmRegex : Regex where
  groups := 1
  finditer content := if content = "rm -rf /" then [⟨"rm -rf", [none]⟩] else []
  length_groups := by
    intro content m h_m
    split_ifs at h_m with h
    · rw [List.mem_singleton.mp h_m]
      rfl
    · simp at h_m

private def rmEnv : Env := ⟨id, fun _ _ => some rmRegex⟩

private def rmRule : Rule := ⟨1, "rm", "(sudo )?rm -r[f]", .forbidden, []⟩

/-- **A rule that is not enforced.** The optional group is empty, and the script runs. -/
theorem not_enforced_optional : ¬ ∀ (env : Env) (rules : List Rule) (pathRules : List PathRule)
    (team : List ℕ) (scriptContent targetPath : String),
    Enforced env rules pathRules team scriptContent targetPath := by
  intro h_all
  have h_hits : rmRule.Hits rmEnv "rm -rf /" :=
    .inr ⟨rmRegex, rfl, ⟨"rm -rf", [none]⟩, by decide, by decide⟩
  have h_stop := (h_all rmEnv [rmRule] [] [] "rm -rf /" "").command
    ⟨rmRule, List.mem_singleton_self _, .inl rfl, rfl, h_hits⟩
  -- `findall` gives an empty text
  have h_run : (checkCommand rmEnv [rmRule] "rm -rf /" []).canExecute = true := by decide +kernel
  exact absurd (h_run.symm.trans h_stop) (by decide)

end Examples

end JobMgmt.DangerousRules

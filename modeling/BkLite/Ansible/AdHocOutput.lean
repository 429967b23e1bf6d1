import BkLite.Ansible.Output
import BkLite.Framework.Collect
import BkLite.Framework.Numerals
import Mathlib.Data.List.DropRight

/-!
# Reading back what an ad hoc run prints

The blocks of the hosts in an output, as the minimal callback of Ansible prints them, and what
`parse_ansible_output_per_host` makes of them. A header that `host_line_pattern` knows begins a
result (`hostLine_header`); the lines up to the next one are the text of the result, and the lines
in front of all headers come first in the text of the first one (`parse_blocks`).

An output is given by its lines, whatever ends them.
-/

namespace Ansible
namespace Output

open Py Scan

/-! ### Blocks -/

inductive Ending
  | success
  | changed
  | skipped
  | unreachable
  | failed
deriving DecidableEq, Repr

namespace Ending

def Succeeded (e : Ending) : Prop := e = success ∨ e = changed ∨ e = skipped

instance : DecidablePred Succeeded := fun _ => inferInstanceAs (Decidable (_ ∨ _ ∨ _))

def moduleText : Ending → String
  | success => "SUCCESS"
  | changed => "CHANGED"
  | skipped => "SKIPPED"
  | unreachable => "UNREACHABLE!"
  | failed => "FAILED!"

def commandText : Ending → String
  | failed => "FAILED"
  | e => e.moduleText

end Ending

inductive Header
  /-- `STATUS | rc=N >>`. -/
  | command (e : Ending) (rc : ℤ)
  /-- `STATUS => result`, and no more than the status where there is no result. -/
  | module (e : Ending) (result : Option Line)

namespace Header

def ending : Header → Ending
  | command e _ => e
  | module e _ => e

def rc : Header → Option ℤ
  | command _ rc => some rc
  | module _ _ => none

def text : Header → Line
  | module _ (some result) => result
  | _ => []

def line : Header → Line
  | command e rc => e.commandText.toList ++ (" | rc=".toList ++ (intRepr rc ++ " >>".toList))
  | module e (some result) => e.moduleText.toList ++ (" => ".toList ++ result)
  | module e none => e.moduleText.toList

end Header

structure Block where
  host : Line
  header : Header
  body : List Line
  host_ne : host ≠ []
  host_word : ∀ c ∈ host, isSpace c = false
  /-- `str` prints no more digits than `int` reads. -/
  rc_short : ∀ rc ∈ header.rc, (decimal rc.natAbs).length ≤ maxStrDigits
  body_plain : ∀ l ∈ body, hostLine l = none

namespace Block

variable (b : Block)

def headerLine : Line := b.host ++ (" | ".toList ++ b.header.line)

def lines : List Line := b.headerLine :: b.body

def textLines : List Line := [strip b.header.text].filter (· ≠ []) ++ b.body

def text : String := String.ofList (strip (joinLines b.textLines))

def textAfter (warnings : List Line) : String :=
  String.ofList (strip (joinLines (warnings ++ b.textLines)))

/-- The result says of its host what has been printed. -/
structure ReportedAs (text : String) (d : Dict) : Prop where
  host : Value.lookup d "host" = .str (String.ofList b.host)
  status : Value.lookup d "status" = .str (statusText b.header.ending.Succeeded)
  rc : ∀ rc ∈ b.header.rc, Value.lookup d "exit_code" = .int rc
  output : Value.lookup d "stdout" = .str (if b.header.ending.Succeeded then text else "")
  error : Value.lookup d "stderr" = .str (if b.header.ending.Succeeded then "" else text)

end Block

structure Printed where
  text : List Char
  warnings : List Line
  blocks : List Block
  splitlines_text : splitlines text = warnings ++ blocks.flatMap Block.lines
  warnings_plain : ∀ l ∈ warnings, hostLine l = none

def Printed.Inverted (p : Printed) (outputTruncated : Bool) : Prop :=
  ∃ results, parseAnsibleOutputPerHost outputTruncated p.text = some results ∧
    List.Forall₂ (fun b d => b.ReportedAs b.text d) p.blocks results

def textsAfter (warnings : List Line) : List Block → List (Block × String)
  | [] => []
  | b :: bs => (b, b.textAfter warnings) :: bs.map fun b => (b, b.text)

/-! ### Header lines -/

def Ending.rawStatus : Ending → RawStatus
  | success => .success
  | changed => .changed
  | skipped => .skipped
  | unreachable => .unreachableMarked
  | failed => .failed

theorem Ending.succeeded_rawStatus (e : Ending) : e.rawStatus.succeeded = decide e.Succeeded := by
  cases e <;> rfl

/-- The header is one that `host_line_pattern` knows: a failed module is not. -/
def Header.Known : Header → Prop
  | command _ _ => True
  | module e result => result.isSome = true ∧ e ≠ .failed

theorem rawStatus_append {e : Ending} {text : String} {cs : List Char}
    (h : text = e.commandText ∨ text = e.moduleText ∧ e ≠ .failed) :
    rawStatus (text.toList ++ ' ' :: cs) = some (e.rawStatus, ' ' :: cs) := by
  have h_text : text = e.commandText := by
    obtain h | ⟨h, h_failed⟩ := h
    · exact h
    · cases e with
      | failed => exact absurd rfl h_failed
      | _ => exact h
  rw [h_text]
  cases e <;> rfl

/-- `(?:\s+\|\s+rc=(-?\d+))?`. -/
def rcPattern : Scan Line := do
  let _ ← blanks
  literal ['|']
  let _ ← blanks
  literal "rc=".toList
  signedDigits

/-- What `host_line_pattern` matches behind the status. -/
def tailPattern (host : Line) (status : RawStatus) : Scan HostLine := do
  let rc ← maybe rcPattern
  let _ ← blanks
  oneOf [(">>", ()), ("=>", ())]
  skipBlanks
  let initial ← rest
  return ⟨host, status, rc, initial⟩

theorem blanks_space {cs : List Char} (h : ∀ c ∈ cs.head?, isSpace c = false) :
    blanks (' ' :: cs) = some ([' '], cs) := by
  have h_space : ∀ c ∈ [' '], isSpace c = true := by
    intro c h_c
    rw [List.mem_singleton.mp h_c]
    decide
  exact run1_append (List.cons_ne_nil _ _) h_space h

theorem hostLinePattern_start {host : Line} (h_ne : host ≠ [])
    (h_host : ∀ c ∈ host, isSpace c = false) {c : Char} (cs : List Char) (h_c : isSpace c = false) :
    hostLinePattern (host ++ (" | ".toList ++ c :: cs)) =
      (rawStatus >>= tailPattern host) (c :: cs) := by
  have h_word : word (host ++ ' ' :: '|' :: ' ' :: c :: cs) =
      some (host, ' ' :: '|' :: ' ' :: c :: cs) := by
    refine run1_append h_ne (fun d h_d => by rw [h_host d h_d]; rfl) fun d h_d => ?_
    cases h_d
    rfl
  have h_gap : blanks (' ' :: '|' :: ' ' :: c :: cs) = some ([' '], '|' :: ' ' :: c :: cs) :=
    blanks_space fun d h_d => by cases h_d; rfl
  have h_gap' : blanks (' ' :: c :: cs) = some ([' '], c :: cs) :=
    blanks_space fun d h_d => by cases h_d; exact h_c
  have h_line : host ++ (" | ".toList ++ c :: cs) = host ++ ' ' :: '|' :: ' ' :: c :: cs := rfl
  rw [h_line]
  unfold hostLinePattern
  rw [bind_of_some h_word, bind_of_some h_gap, bind_of_some (literal_cons '|'),
    bind_of_some h_gap']
  rfl

theorem signedDigits_repr (rc : ℤ) (cs : List Char) :
    signedDigits (intRepr rc ++ ' ' :: cs) = some (intRepr rc, ' ' :: cs) := by
  have h_digits (n : ℕ) : Scan.digits (decimal n ++ ' ' :: cs) = some (decimal n, ' ' :: cs) := by
    refine run1_append Nat.toDigits_ne_nil (fun c h_c => ?_) fun c h_c => ?_
    · rw [digitValue_of_isDigit (isDigit_of_mem_decimal h_c)]
      rfl
    · cases h_c
      decide
  unfold signedDigits
  cases rc with
  | ofNat n =>
    have h_sign : literal ['-'] (decimal n ++ ' ' :: cs) = none := by
      have h_ne : decimal n ≠ [] := Nat.toDigits_ne_nil
      obtain ⟨c, ds, h_cons⟩ := List.exists_cons_of_ne_nil h_ne
      have h_c : ('-' == c) = false := by
        refine beq_false_of_ne ?_
        rintro rfl
        exact absurd (@isDigit_of_mem_decimal n '-' (h_cons ▸ List.mem_cons_self)) (by decide)
      unfold literal
      rw [h_cons, List.cons_append, List.isPrefixOf?, h_c]
      rfl
    show (maybe (literal ['-']) >>= _) (decimal n ++ ' ' :: cs) = _
    rw [bind_of_some (maybe_of_none h_sign), bind_of_some (h_digits n)]
    rfl
  | negSucc n =>
    show (maybe (literal ['-']) >>= _) (['-'] ++ (decimal (n + 1) ++ ' ' :: cs)) = _
    rw [bind_of_some (maybe_of_some (literal_append ['-'])), bind_of_some (h_digits (n + 1))]
    rfl

theorem hostLine_command {host : Line} (h_ne : host ≠ []) (h_host : ∀ c ∈ host, isSpace c = false)
    (e : Ending) (rc : ℤ) :
    hostLine (host ++ (" | ".toList ++ (Header.command e rc).line)) =
      some ⟨host, e.rawStatus, some (intRepr rc), []⟩ := by
  have h_rc : rcPattern (' ' :: '|' :: ' ' :: ("rc=".toList ++ (intRepr rc ++ " >>".toList))) =
      some (intRepr rc, " >>".toList) := by
    unfold rcPattern
    rw [bind_of_some (blanks_space fun d h_d => by cases h_d; rfl),
      bind_of_some (literal_cons '|'),
      bind_of_some (blanks_space fun d h_d => by cases h_d; rfl), bind_of_some (literal_append _)]
    exact signedDigits_repr rc _
  obtain ⟨c, cs, h_text, h_c⟩ : ∃ c cs, e.commandText.toList = c :: cs ∧ isSpace c = false := by
    cases e <;> exact ⟨_, _, rfl, by decide⟩
  have h_status := @rawStatus_append e e.commandText
    ('|' :: ' ' :: ("rc=".toList ++ (intRepr rc ++ " >>".toList))) (.inl rfl)
  have h_line : (Header.command e rc).line =
      c :: (cs ++ ' ' :: '|' :: ' ' :: ("rc=".toList ++ (intRepr rc ++ " >>".toList))) := by
    show e.commandText.toList ++ _ = _
    rw [h_text]
    rfl
  unfold hostLine firstMatch
  rw [h_line, hostLinePattern_start h_ne h_host _ h_c, ← List.cons_append, ← h_text,
    bind_of_some h_status]
  unfold tailPattern
  rw [bind_of_some (maybe_of_some h_rc)]
  rfl

theorem hostLine_module {host : Line} (h_ne : host ≠ []) (h_host : ∀ c ∈ host, isSpace c = false)
    {e : Ending} (h_failed : e ≠ .failed) (result : Line) :
    hostLine (host ++ (" | ".toList ++ (Header.module e (some result)).line)) =
      some ⟨host, e.rawStatus, none, result.dropWhile isSpace⟩ := by
  have h_rc : rcPattern (' ' :: '=' :: '>' :: ' ' :: result) = none := by
    unfold rcPattern
    rw [bind_of_some (blanks_space fun d h_d => by cases h_d; rfl)]
    exact bind_of_none rfl
  obtain ⟨c, cs, h_text, h_c⟩ : ∃ c cs, e.moduleText.toList = c :: cs ∧ isSpace c = false := by
    cases e <;> exact ⟨_, _, rfl, by decide⟩
  have h_status := @rawStatus_append e e.moduleText ('=' :: '>' :: ' ' :: result)
    (.inr ⟨rfl, h_failed⟩)
  have h_line : (Header.module e (some result)).line =
      c :: (cs ++ ' ' :: '=' :: '>' :: ' ' :: result) := by
    show e.moduleText.toList ++ _ = _
    rw [h_text]
    rfl
  unfold hostLine firstMatch
  rw [h_line, hostLinePattern_start h_ne h_host _ h_c, ← List.cons_append, ← h_text,
    bind_of_some h_status]
  unfold tailPattern
  rw [bind_of_some (maybe_of_none h_rc),
    bind_of_some (blanks_space fun d h_d => by cases h_d; rfl)]
  rfl

/-! ### Blocks are read back -/

section Blocks

variable {b : Block} {bs : List Block} {t : Bool} {p : Progress}

theorem strip_dropWhile (l : Line) : strip (l.dropWhile isSpace) = strip l := by
  unfold strip
  rw [List.dropWhile_idempotent]

theorem hostLine_header (h : b.header.Known) :
    ∃ m, hostLine b.headerLine = some m ∧ m.host = b.host ∧
      m.status = b.header.ending.rawStatus ∧ m.exitCode = some b.header.rc ∧
      strip m.initial = strip b.header.text := by
  have h_short := b.rc_short
  unfold Block.headerLine
  cases h_header : b.header with
  | command e rc =>
    rw [h_header] at h_short
    refine ⟨_, hostLine_command b.host_ne b.host_word e rc, rfl, rfl, ?_, rfl⟩
    show (intOfText (intRepr rc)).map some = _
    rw [intOfText_repr (h_short rc rfl)]
    rfl
  | module e result =>
    rw [h_header] at h
    obtain ⟨h_some, h_failed⟩ := h
    obtain ⟨text, rfl⟩ := Option.isSome_iff_exists.mp h_some
    exact ⟨_, hostLine_module b.host_ne b.host_word h_failed text, rfl, rfl, rfl,
      strip_dropWhile text⟩

def Block.result (b : Block) (t : Bool) (lines : List Line) : Dict :=
  buildParsedHostResult ⟨b.host, b.header.ending.rawStatus, b.header.rc⟩ lines t

theorem Block.result_reportedAs (b : Block) (t : Bool) (lines : List Line) :
    b.ReportedAs (String.ofList (strip (joinLines lines))) (b.result t lines) := by
  unfold Block.result buildParsedHostResult
  rw [b.header.ending.succeeded_rawStatus]
  refine ⟨rfl, rfl, ?_, ?_, ?_⟩
  · intro rc h_rc
    show Value.int _ = _
    rw [Option.mem_def.mp h_rc]
    rfl
  · show Value.str _ = _
    by_cases h : b.header.ending.Succeeded <;> simp [h]
  · show Value.str _ = _
    by_cases h : b.header.ending.Succeeded <;> simp [h]

theorem foldlM_body {c : Current} (h_current : p.current = some c) {body : List Line}
    (h_body : ∀ l ∈ body, hostLine l = none) :
    body.foldlM (Progress.line t) p =
      some { p with currentOutputLines := p.currentOutputLines ++ body } := by
  induction body generalizing p with
  | nil =>
    rw [List.append_nil]
    rfl
  | cons l body ih =>
    have h_l : p.line t l = some { p with currentOutputLines := p.currentOutputLines ++ [l] } := by
      unfold Progress.line
      rw [h_body l List.mem_cons_self]
      dsimp only
      rw [h_current]
      rfl
    rw [List.foldlM_cons, h_l]
    refine (@ih { p with currentOutputLines := p.currentOutputLines ++ [l] } h_current
      fun l' h_l' => h_body l' (List.mem_cons_of_mem l h_l')).trans ?_
    simp only [List.append_assoc, List.singleton_append]

theorem foldlM_warnings (h_current : p.current = none) {warnings : List Line}
    (h_plain : ∀ l ∈ warnings, hostLine l = none) :
    warnings.foldlM (Progress.line t) p =
      some { p with preambleLines := p.preambleLines ++ warnings } := by
  induction warnings generalizing p with
  | nil =>
    rw [List.append_nil]
    rfl
  | cons l warnings ih =>
    have h_l : p.line t l = some { p with preambleLines := p.preambleLines ++ [l] } := by
      unfold Progress.line
      rw [h_plain l List.mem_cons_self]
      dsimp only
      rw [h_current]
      rfl
    rw [List.foldlM_cons, h_l]
    refine (@ih { p with preambleLines := p.preambleLines ++ [l] } h_current
      fun l' h_l' => h_plain l' (List.mem_cons_of_mem l h_l')).trans ?_
    simp only [List.append_assoc, List.singleton_append]

theorem foldlM_block (h : b.header.Known) :
    b.lines.foldlM (Progress.line t) p = some {
      results := p.flush t
      current := some ⟨b.host, b.header.ending.rawStatus, b.header.rc⟩
      currentOutputLines := p.preambleLines ++ b.textLines
      preambleLines := [] } := by
  obtain ⟨m, h_line, h_host, h_status, h_rc, h_initial⟩ := hostLine_header h
  have h_first : p.line t b.headerLine = some {
      results := p.flush t
      current := some ⟨b.host, b.header.ending.rawStatus, b.header.rc⟩
      currentOutputLines := p.preambleLines ++ [strip b.header.text].filter (· ≠ [])
      preambleLines := [] } := by
    unfold Progress.line
    rw [h_line]
    dsimp only
    rw [h_rc, h_host, h_status, h_initial]
    by_cases h_nil : strip b.header.text = []
    · simp [h_nil]
    · simp [h_nil]
  unfold Block.lines
  rw [List.foldlM_cons, h_first]
  show b.body.foldlM (Progress.line t) _ = _
  rw [foldlM_body rfl b.body_plain]
  dsimp only
  rw [List.append_assoc]
  rfl

def resultsAfter (t : Bool) (warnings : List Line) : List Block → List Dict
  | [] => []
  | b :: bs => b.result t (warnings ++ b.textLines) :: bs.map fun b => b.result t b.textLines

theorem foldlM_blocks (h : ∀ b ∈ bs, b.header.Known) :
    ∃ p', (bs.flatMap Block.lines).foldlM (Progress.line t) p = some p' ∧
      p'.flush t = p.flush t ++ resultsAfter t p.preambleLines bs := by
  induction bs generalizing p with
  | nil => exact ⟨p, rfl, (List.append_nil _).symm⟩
  | cons b bs ih =>
    have h_next := ih (p := ⟨p.flush t, some ⟨b.host, b.header.ending.rawStatus, b.header.rc⟩,
      p.preambleLines ++ b.textLines, []⟩) fun b' h_b' => h b' (List.mem_cons_of_mem b h_b')
    obtain ⟨p', h_run, h_flush⟩ := h_next
    refine ⟨p', ?_, ?_⟩
    · rw [List.flatMap_cons, List.foldlM_append, foldlM_block (h b List.mem_cons_self)]
      exact h_run
    · rw [h_flush]
      have h_rest : resultsAfter t [] bs = bs.map fun b => b.result t b.textLines := by
        cases bs <;> rfl
      show (p.flush t ++ [_]) ++ resultsAfter t [] bs = _
      rw [h_rest, List.append_assoc]
      rfl

end Blocks

/-- **An output is read back**: one result for a block, in order. -/
theorem parse_blocks (p : Printed) (t : Bool) (h_known : ∀ b ∈ p.blocks, b.header.Known) :
    ∃ results, parseAnsibleOutputPerHost t p.text = some results ∧
      List.Forall₂ (fun e d => e.1.ReportedAs e.2 d) (textsAfter p.warnings p.blocks) results := by
  obtain ⟨p', h_run, h_flush⟩ :=
    @foldlM_blocks p.blocks t { preambleLines := p.warnings } h_known
  refine ⟨p'.flush t, ?_, ?_⟩
  · unfold parseAnsibleOutputPerHost
    rw [p.splitlines_text, List.foldlM_append, foldlM_warnings rfl p.warnings_plain]
    show ((p.blocks.flatMap Block.lines).foldlM (Progress.line t) _ >>= _) = _
    rw [List.nil_append, h_run]
    rfl
  · rw [h_flush]
    show List.Forall₂ _ _ (resultsAfter t p.warnings p.blocks)
    cases p.blocks with
    | nil => exact .nil
    | cons b bs =>
      refine .cons (b.result_reportedAs t _) ?_
      rw [List.forall₂_map_left_iff, List.forall₂_map_right_iff]
      exact List.forall₂_same.mpr fun b' _ => b'.result_reportedAs t b'.textLines

section Examples

private def oneCommand : Printed where
  text := "[WARNING]: python\n10.0.0.1 | CHANGED | rc=0 >>\nxx\n".toList
  warnings := ["[WARNING]: python".toList]
  blocks := [{
    host := "10.0.0.1".toList
    header := .command .changed 0
    body := ["xx".toList]
    host_ne := by decide
    host_word := List.forall_of_all (by decide)
    rc_short := by
      intro rc h_rc
      cases h_rc
      decide
    body_plain := List.forall_of_all (by decide) }]
  splitlines_text := by decide +kernel
  warnings_plain := List.forall_of_all (by decide)

theorem parse_oneCommand :
    ∃ results, parseAnsibleOutputPerHost false oneCommand.text = some results ∧
      List.Forall₂ (fun e d => e.1.ReportedAs e.2 d)
        (textsAfter oneCommand.warnings oneCommand.blocks) results :=
  parse_blocks oneCommand false fun b h_b => by
    rw [List.mem_singleton.mp h_b]
    exact trivial

/-- The warning is in the text of the host. -/
theorem not_inverted : ¬∀ (p : Printed) (t : Bool), p.Inverted t := by
  intro h
  obtain ⟨results, h_parse, h_results⟩ := h oneCommand false
  have h_out : (parseAnsibleOutputPerHost false oneCommand.text).any fun ds => ds.any fun d =>
      !(Value.lookup d "stdout").equal (.str "xx") := by decide +kernel
  rw [h_parse] at h_out
  obtain ⟨d, ds, h_reported, h_rest, rfl⟩ := List.forall₂_cons_left_iff.mp h_results
  obtain rfl := List.forall₂_nil_left_iff.mp h_rest
  obtain ⟨d', h_d', h_stdout⟩ := List.any_eq_true.mp h_out
  rw [List.mem_singleton.mp h_d', h_reported.output] at h_stdout
  exact absurd h_stdout (by decide)

end Examples

end Output
end Ansible

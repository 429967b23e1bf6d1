import BkLite.Ansible.Worker
import BkLite.Framework.Lines

/-!
# What a command prints, and what is read of it

`service/ansible_runner.py`: `run_command` keeps the first bytes of what the process prints and
decodes them; `parse_ansible_output_per_host` reads the result of each host from the header lines of
an ad hoc run, and `parse_playbook_recap` from the recap of a playbook. `_build_task_result`
(`service/nats_service.py`) reads the recap only if there is no header line and nothing was cut.

The codecs, `json.loads` and `str` of a value that is no text are parameters. `int()` of a text
with too many digits raises, so what reads numbers may be `none`.
-/

namespace Ansible
namespace Output

open Py Scan Worker

/-! ### What the process prints -/

abbrev Bytes := List UInt8

def defaultMaxOutputBytes : ℕ := 256 * 1024

/-- What `_collect_output` has read. -/
structure Collected where
  retained : Bytes := []
  totalBytes : ℕ := 0
  truncated : Bool := false
deriving DecidableEq

/-- One round of the loop of `_collect_output`. -/
def Collected.chunk (maxOutputBytes : ℕ) (s : Collected) (chunk : Bytes) : Collected where
  retained := s.retained ++ chunk.take (maxOutputBytes - s.retained.length)
  totalBytes := s.totalBytes + chunk.length
  truncated := s.truncated || maxOutputBytes - s.retained.length < chunk.length

/-- `_collect_output`; an empty chunk is the end. -/
def collectOutput (maxOutputBytes : ℕ) (chunks : List Bytes) : Collected :=
  (chunks.takeWhile (· ≠ [])).foldl (Collected.chunk maxOutputBytes) {}

/-- The codecs; `none` is a `UnicodeDecodeError`. -/
structure Codecs where
  utf16le : Bytes → Option (List Char)
  utf8 : Bytes → Option (List Char)
  gbk : Bytes → Option (List Char)
  utf8Replace : Bytes → List Char

def oddPlaces : Bytes → Bytes
  | _ :: b :: bs => b :: oddPlaces bs
  | _ => []

def looksLikeUtf16le (output : Bytes) : Bool :=
  output.contains 0 && output.length / 4 ≤ (oddPlaces output).count 0

def decodeUtf16leOutput (codecs : Codecs) (output : Bytes) : Option (List Char) :=
  if output.length < 2 then none
  else
    let hasBom := [0xff, 0xfe].isPrefixOf output
    let candidate := if hasBom then output.drop 2 else output
    if candidate.length < 2 ∨ candidate.length % 2 ≠ 0 then none
    else if !hasBom && !looksLikeUtf16le candidate then none
    else codecs.utf16le candidate

def decodeCommandOutput (codecs : Codecs) (output : Bytes) : List Char :=
  ((decodeUtf16leOutput codecs output <|> codecs.utf8 output) <|> codecs.gbk output).getD
    (codecs.utf8Replace output)

/-! ### Header lines -/

inductive RawStatus
  | success
  | changed
  | failed
  | unreachable
  | unreachableMarked
  | skipped
deriving DecidableEq, Repr

namespace RawStatus

def text : RawStatus → String
  | success => "SUCCESS"
  | changed => "CHANGED"
  | failed => "FAILED"
  | unreachable => "UNREACHABLE"
  | unreachableMarked => "UNREACHABLE!"
  | skipped => "SKIPPED"

/-- `_normalize_ansible_host_status`: the host has succeeded. -/
def succeeded (status : RawStatus) : Bool := status ∈ [success, changed, skipped]

end RawStatus

/-- `"success" if succeeded else "failed"`. -/
def statusText (succeeded : Bool) : String := if succeeded then "success" else "failed"

/-- The groups of `host_line_pattern`. -/
structure HostLine where
  host : Line
  status : RawStatus
  rc : Option Line
  initial : Line
deriving DecidableEq, Repr

/-- `SUCCESS|CHANGED|FAILED|UNREACHABLE!?|SKIPPED`. -/
def rawStatus : Scan RawStatus :=
  oneOf ([.success, .changed, .failed, .unreachableMarked, .unreachable, .skipped].map fun s =>
    (s.text, s))

/-- `-?\d+`. -/
def signedDigits : Scan Line := do
  let sign ← maybe (literal ['-'])
  let ds ← digits
  return if sign.isSome then '-' :: ds else ds

def hostLinePattern : Scan HostLine := do
  let host ← word
  let _ ← blanks
  literal ['|']
  let _ ← blanks
  let status ← rawStatus
  let rc ← maybe do
    let _ ← blanks
    literal ['|']
    let _ ← blanks
    literal "rc=".toList
    signedDigits
  let _ ← blanks
  oneOf [(">>", ()), ("=>", ())]
  skipBlanks
  let initial ← rest
  return ⟨host, status, rc, initial⟩

/-- `host_line_pattern.match(line)`. -/
def hostLine (line : Line) : Option HostLine := firstMatch hostLinePattern line

/-- `int(rc_text) if rc_text is not None else None`. -/
def HostLine.exitCode (h : HostLine) : Option (Option ℤ) :=
  match h.rc with
  | none => some none
  | some rcText => (intOfText rcText).map some

/-! ### The results of an ad hoc run -/

/-- `"\n".join(lines)`. -/
def joinLines (lines : List Line) : Line := ['\n'].intercalate lines

structure Current where
  host : Line
  status : RawStatus
  exitCode : Option ℤ
deriving DecidableEq, Repr

def buildParsedHostResult (c : Current) (outputLines : List Line) (outputTruncated : Bool) :
    Dict :=
  let output := String.ofList (strip (joinLines outputLines))
  let success := c.status.succeeded
  [("host", .str (String.ofList c.host)),
    ("status", .str (statusText success)),
    ("raw_status", .str c.status.text),
    ("stdout", .str (if success then output else "")),
    ("stderr", .str (if success then "" else output)),
    ("exit_code", .int (c.exitCode.getD (if success then 0 else 1))),
    ("error_message", .str (if success then "" else output)),
    ("output_truncated", if outputTruncated then .bool true else .null)]

structure Progress where
  results : List Dict := []
  current : Option Current := none
  currentOutputLines : List Line := []
  preambleLines : List Line := []

section Parse

variable (outputTruncated : Bool)

def Progress.flush (p : Progress) : List Dict :=
  match p.current with
  | some c => p.results ++ [buildParsedHostResult c p.currentOutputLines outputTruncated]
  | none => p.results

def Progress.line (p : Progress) (line : Line) : Option Progress :=
  match hostLine line with
  | some matched => do
    let exitCode ← matched.exitCode
    let initialOutput := strip matched.initial
    return {
      results := p.flush outputTruncated
      current := some ⟨matched.host, matched.status, exitCode⟩
      currentOutputLines := p.preambleLines ++ (if initialOutput = [] then [] else [initialOutput])
      preambleLines := [] }
  | none =>
    if p.current.isSome then
      some { p with currentOutputLines := p.currentOutputLines ++ [line] }
    else some { p with preambleLines := p.preambleLines ++ [line] }

def parseAnsibleOutputPerHost (output : List Char) : Option (List Dict) := do
  let p ← (splitlines output).foldlM (Progress.line outputTruncated) {}
  return p.flush outputTruncated

end Parse

/-! ### The recap of a playbook -/

/-- `json.loads`, where `none` is one of the errors that are caught, and `str`. -/
structure Reader where
  loads : List Char → Option Value
  str : Value → String

/-- The groups of `recap_pattern` that count. -/
structure RecapLine where
  host : Line
  unreachable : Line
  failed : Line
deriving DecidableEq, Repr

/-- `\s+name=(\d+)`. -/
def counter (name : String) : Scan Line := do
  let _ ← blanks
  literal (name.toList ++ ['='])
  digits

def recapPattern : Scan RecapLine := do
  let host ← word
  let _ ← blanks
  literal [':']
  let _ ← counter "ok"
  let _ ← counter "changed"
  let unreachable ← counter "unreachable"
  let failed ← counter "failed"
  return ⟨host, unreachable, failed⟩

/-- `recap_pattern.match(line.strip())`. -/
def recapLine (line : Line) : Option RecapLine := firstMatch recapPattern (strip line)

/-- `failed > 0 or unreachable > 0` is false. -/
def RecapLine.succeeded (r : RecapLine) : Option Bool := do
  let unreachable ← intOfText r.unreachable
  let failed ← intOfText r.failed
  return !(0 < failed || 0 < unreachable)

def startsWith (text : String) (line : Line) : Bool := text.toList.isPrefixOf line

/-- The pattern for the lines of a host; the group is what is printed behind the arrow. -/
def hostTaskPattern (host : Line) : Scan Line := do
  oneOf (["ok", "changed", "fatal", "failed", "skipping", "unreachable"].map (·, ()))
  literal [':']
  let _ ← blanks
  literal ('[' :: host ++ [']'])
  let initial ← maybe do
    let _ ← blanks
    oneOf [("=>", ()), (">>", ())]
    skipBlanks
    rest
  lineEnd
  return initial.getD []

/-- One round of the loop of `_extract_host_task_output`. -/
def captureLine (host : Line) (s : List Line × Bool) (line : Line) : List Line × Bool :=
  match firstMatch (hostTaskPattern host) line with
  | some initial =>
    let initialOutput := strip initial
    (if initialOutput = [] then s.1 else s.1 ++ [initialOutput], true)
  | none =>
    if startsWith "TASK [" line ∨ startsWith "PLAY [" line ∨ startsWith "PLAY RECAP" line then
      (s.1, false)
    else if startsWith "task path:" line then s
    else if s.2 then (s.1 ++ [line], true)
    else s

/-- The first `\x7b[^\x7b\x7d]*\x7d`. -/
def innermostBraces : List Char → Option (List Char)
  | [] => none
  | c :: cs =>
    if c = '\x7b' then
      match cs.dropWhile fun d => d ≠ '\x7b' ∧ d ≠ '\x7d' with
      | '\x7d' :: _ =>
        some ('\x7b' :: cs.takeWhile (fun d => d ≠ '\x7b' ∧ d ≠ '\x7d') ++ ['\x7d'])
      | _ => innermostBraces cs
    else innermostBraces cs

section Recap

variable (reader : Reader)

def commonField (data : Dict) : Option (List Char) :=
  ["msg", "stdout", "stdout_lines", "results"].findSome? fun key =>
    (data.find? (·.1 = key)).map fun e =>
      match e.2 with
      | .list items => joinLines (items.map fun item => (reader.str item).toList)
      | v => (reader.str v).toList

def extractMeaningfulOutput (rawOutput : List Char) : List Char :=
  match reader.loads rawOutput with
  | some (.dict data) => (commonField reader data).getD rawOutput
  | _ =>
    (do
      let part ← innermostBraces rawOutput
      match ← reader.loads part with
      | .dict data => commonField reader data
      | _ => none).getD rawOutput

def extractHostTaskOutput (lines : List Line) (host : Line) : List Char :=
  extractMeaningfulOutput reader (strip (joinLines (lines.foldl (captureLine host) ([], false)).1))

def recapResult (above : List Line) (r : RecapLine) : Option Dict := do
  let succeeded ← r.succeeded
  let hostOutput := String.ofList (extractHostTaskOutput reader above r.host)
  return [("host", .str (String.ofList r.host)),
    ("status", .str (statusText succeeded)),
    ("raw_status", .str (if succeeded then "SUCCESS" else "FAILED")),
    ("stdout", .str (if succeeded then hostOutput else "")),
    ("stderr", .str (if succeeded then "" else hostOutput)),
    ("exit_code", .int (if succeeded then 0 else 1)),
    ("error_message", .str (if succeeded then "" else hostOutput))]

def isRecapStart (line : Line) : Bool := startsWith "PLAY RECAP" (strip line)

def recapLines (output : List Char) : List RecapLine :=
  (((splitlines output).dropWhile (!isRecapStart ·)).drop 1).filterMap recapLine

def parsePlaybookRecap (output : List Char) : Option (List Dict) :=
  let above := (splitlines output).takeWhile (!isRecapStart ·)
  (recapLines output).mapM (recapResult reader above)

end Recap

/-! ### The result of a task -/

/-- `run_command` when the process has ended: the exit code, and what it has printed. -/
structure Ended where
  code : ℤ
  chunks : List Bytes

section Result

variable (codecs : Codecs) (reader : Reader)

def Ended.collected (run : Ended) : Collected := collectOutput defaultMaxOutputBytes run.chunks

def Ended.output (run : Ended) : List Char := decodeCommandOutput codecs run.collected.retained

/-- What `_build_task_result` reads first. -/
def Ended.perHostResults (run : Ended) : Option (List Dict) :=
  if run.output codecs = [] then some []
  else parseAnsibleOutputPerHost run.collected.truncated (run.output codecs)

/-- The results of the hosts, as `_build_task_result` reads them. -/
def Ended.parsedResults (run : Ended) : Option (List Dict) := do
  let perHost ← run.perHostResults codecs
  if perHost = [] ∧ run.output codecs ≠ [] ∧ run.collected.truncated = false then
    parsePlaybookRecap reader (run.output codecs)
  else some perHost

/-- What `_run_task` hands to `_build_task_result`. -/
def Ended.outcome (run : Ended) (startedAt finishedAt : String) : Option RunOutcome :=
  (run.parsedResults codecs reader).map fun results =>
    { code := run.code
      output := String.ofList (run.output codecs)
      parsed := results.map .dict
      truncated := run.collected.truncated
      bytesTotal := run.collected.totalBytes
      bytesRetained := run.collected.retained.length
      maxBytes := defaultMaxOutputBytes
      startedAt, finishedAt }

end Result

end Output
end Ansible

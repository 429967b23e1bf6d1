import BkLite.Framework.Blocks
import BkLite.Framework.Value

/-!
# The filter of the thinking

A streamed answer may hold `<think>` blocks, which a reader without `show_think` is not to see. The
filter (`stream_common.py`) gets the answer in chunks, and `_generate_agent_stream` (`sse_chat.py`)
emits what it lets through.
-/

namespace OpsPilot
namespace ThinkFilter

open Blocks Find

/-- `<think>`. -/
def thinkStart : List Char := ['<', 't', 'h', 'i', 'n', 'k', '>']

/-- `</think>`. -/
def thinkEnd : List Char := ['<', '/', 't', 'h', 'i', 'n', 'k', '>']

def think : Tags Char where
  head := '<'
  openTail := ['t', 'h', 'i', 'n', 'k', '>']
  closeTail := ['/', 't', 'h', 'i', 'n', 'k', '>']
  head_notMem_openTail := by decide
  head_notMem_closeTail := by decide
  not_open_prefix_close := by decide
  not_close_prefix_open := by decide

/-- The loop of `process_think_buffer`, with what is to be output so far. -/
def thinkLoop : ℕ → List Char → List Char → Bool → List Char × List Char × Bool
  | 0, output, buffer, inBlock => (output, buffer, inBlock)
  | fuel + 1, output, buffer, inBlock =>
    if buffer = [] then (output, buffer, inBlock)
    else if inBlock = false then
      match find thinkStart buffer with
      | some pos => thinkLoop fuel (output ++ buffer.take pos) (buffer.drop (pos + 7)) true
      | none =>
        if buffer.length > 8 then
          (output ++ buffer.take (buffer.length - 8), buffer.drop (buffer.length - 8), inBlock)
        else (output, buffer, inBlock)
    else
      match find thinkEnd buffer with
      | some pos => thinkLoop fuel output (buffer.drop (pos + 8)) false
      | none => (output, [], inBlock)

/-- `process_think_buffer`. Every round takes a tag off the buffer. -/
def processThinkBuffer (buffer : List Char) (inBlock : Bool) : List Char × List Char × Bool :=
  thinkLoop buffer.length [] buffer inBlock

structure ThinkState where
  thinkBuffer : List Char := []
  inThinkBlock : Bool := false
  isFirstContent : Bool := true
  hasThinkTags : Bool := true
deriving DecidableEq, Repr

/-- `process_think_content` behind its first chunk. -/
def processNextContent (chunk : List Char) (s : ThinkState) : List Char × ThinkState :=
  if s.hasThinkTags = false then (chunk, { s with isFirstContent := false })
  else
    let (output, thinkBuffer, inThinkBlock) :=
      processThinkBuffer (s.thinkBuffer ++ chunk) s.inThinkBlock
    (output, { s with thinkBuffer, inThinkBlock, isFirstContent := false })

def processThinkContent (showThink : Bool) (chunk : List Char) (s : ThinkState) :
    List Char × ThinkState :=
  if showThink then (chunk, { s with isFirstContent := false })
  else if s.isFirstContent then
    let thinkBuffer := s.thinkBuffer ++ chunk
    match find thinkStart thinkBuffer with
    | none =>
      (thinkBuffer,
        { s with thinkBuffer := [], isFirstContent := false, hasThinkTags := false })
    | some start =>
      if thinkStart <+: thinkBuffer.dropWhile Py.isSpace then
        ([], { thinkBuffer := thinkBuffer.drop (start + 7), inThinkBlock := true,
               isFirstContent := false, hasThinkTags := true })
      else
        -- the chunk is in the buffer already
        processNextContent chunk { s with thinkBuffer, hasThinkTags := true }
  else processNextContent chunk s

inductive Event
  | content (delta : List Char)
  | custom (event : Py.Value)
  | other

inductive Line
  | chunk (content : List Char) (finishReason : Option String)
  | custom (event : Py.Value)
  | stats (content : List Char)

structure StreamState where
  lines : List Line := []
  accumulatedContent : List Char := []
  think : ThinkState := {}
  collectedCustomEvents : List Py.Value := []

/-- One event of `run_stream`. -/
def streamStep (showThink : Bool) (s : StreamState) : Event → StreamState
  | .content delta =>
    if delta = [] then s
    else
      let (output, think) := processThinkContent showThink delta s.think
      { s with
        accumulatedContent := s.accumulatedContent ++ delta
        think
        lines := if output = [] then s.lines else s.lines ++ [.chunk output none] }
  | .custom event => { s with collectedCustomEvents := s.collectedCustomEvents ++ [event] }
  | .other => s

def StreamState.flush (showThink : Bool) (s : StreamState) : List Line :=
  if showThink = false ∧ s.think.inThinkBlock = false ∧ s.think.thinkBuffer ≠ [] then
    [.chunk s.think.thinkBuffer none]
  else []

def generateAgentStream (showThink : Bool) (events : List Event) : List Line :=
  let s := events.foldl (streamStep showThink) {}
  s.lines ++ s.flush showThink ++ [.chunk [] (some "stop")] ++
    s.collectedCustomEvents.map .custom ++ [.stats s.accumulatedContent]

def contents (lines : List Line) : List Char :=
  lines.flatMap fun
    | .chunk content _ => content
    | _ => []

def chunks (events : List Event) : List (List Char) :=
  events.filterMap fun
    | .content delta => if delta = [] then none else some delta
    | _ => none

def answer (events : List Event) : List Char := (chunks events).flatten

def Filtered (events : List Event) : Prop :=
  contents (generateAgentStream false events) = visible think (answer events)

instance (events : List Event) : Decidable (Filtered events) := inferInstanceAs (Decidable (_ = _))

/-! ### The loop -/

/-- What the filter keeps at the end of a chunk: nothing of a block, and no whole opening tag. -/
structure Held (buffer : List Char) (inBlock : Bool) : Prop where
  dropped : inBlock = true → buffer = []
  untagged : inBlock = false → find thinkStart buffer = none

def Bordered (m : List (Cell Char)) : Prop := ∀ x ∈ m.head?, x.border = true

theorem bordered_pieces (cs : List (List Char)) : Bordered (cs.flatMap piece) := by
  induction cs with
  | nil => simp [Bordered]
  | cons c cs ih =>
    cases c with
    | nil => simpa [piece] using ih
    | cons x c => simp [Bordered, piece]

theorem thinkLoop_spec {m : List (Cell Char)} (h_m : Bordered m) {fuel : ℕ}
    {output buffer : List Char} {inBlock : Bool} (h_fuel : buffer.length ≤ fuel)
    {output' buffer' : List Char} {inBlock' : Bool}
    (h : thinkLoop fuel output buffer inBlock = (output', buffer', inBlock')) :
    output' ++ scan think inBlock' 0 (plain buffer' ++ m) =
        output ++ scan think inBlock 0 (plain buffer ++ m) ∧
      Held buffer' inBlock' := by
  induction fuel generalizing output buffer inBlock with
  | zero =>
    obtain rfl : buffer = [] := List.length_eq_zero_iff.mp (Nat.le_zero.mp h_fuel)
    cases h
    exact ⟨rfl, fun _ => rfl, fun _ => rfl⟩
  | succ fuel ih =>
    by_cases h_empty : buffer = []
    · rw [thinkLoop, if_pos h_empty] at h
      cases h
      subst h_empty
      exact ⟨rfl, fun _ => rfl, fun _ => rfl⟩
    cases inBlock with
    | false =>
      rw [thinkLoop, if_neg h_empty, if_pos rfl] at h
      cases h_find : find thinkStart buffer with
      | some pos =>
        rw [h_find] at h
        have h_room := length_of_find h_find
        simp only [thinkStart, List.length_cons, List.length_nil] at h_room
        obtain ⟨h_rest, h_held⟩ := ih (by rw [List.length_drop]; omega) h
        refine ⟨?_, h_held⟩
        rw [h_rest, scan_find_opening (t := think) h_find, List.append_assoc]
        rfl
      | none =>
        simp only [h_find] at h
        split_ifs at h with h_long
        · cases h
          refine ⟨?_, nofun, fun _ => ?_⟩
          · -- the last eight characters hold every opening tag that has begun
            rw [scan_find_opening_none (t := think) h_find (k := buffer.length - 8)
              (by simp only [think, List.length_cons, List.length_nil]; omega), List.append_assoc]
          · refine find_eq_none.mpr fun h_inside => find_eq_none.mp h_find ?_
            exact h_inside.trans (List.drop_suffix _ buffer).isInfix
        · cases h
          exact ⟨rfl, nofun, fun _ => h_find⟩
    | true =>
      rw [thinkLoop, if_neg h_empty, if_neg Bool.noConfusion] at h
      cases h_find : find thinkEnd buffer with
      | some pos =>
        rw [h_find] at h
        have h_room := length_of_find h_find
        simp only [thinkEnd, List.length_cons, List.length_nil] at h_room
        obtain ⟨h_rest, h_held⟩ := ih (by rw [List.length_drop]; omega) h
        refine ⟨?_, h_held⟩
        rw [h_rest, scan_find_closing (t := think) h_find]
        rfl
      | none =>
        rw [h_find] at h
        cases h
        refine ⟨?_, fun _ => rfl, nofun⟩
        rw [scan_find_closing_none (t := think) h_find h_m]
        rfl

/-! ### The chunks behind the first one -/

def emit (s : ThinkState) : List (List Char) → List Char
  | [] => if s.inThinkBlock = false then s.thinkBuffer else []
  | c :: cs => (processThinkContent false c s).1 ++ emit (processThinkContent false c s).2 cs

def ThinkState.Tagged (s : ThinkState) : Prop := s.isFirstContent = false ∧ s.hasThinkTags = true

theorem processThinkContent_next {c : List Char} {s : ThinkState} (h : s.isFirstContent = false) :
    processThinkContent false c s = processNextContent c s := by
  simp [processThinkContent, h]

theorem scan_join {buffer : List Char} {inBlock : Bool} (h : Held buffer inBlock) (c : List Char)
    (m : List (Cell Char)) :
    scan think inBlock 0 (plain buffer ++ (piece c ++ m)) =
      scan think inBlock 0 (plain (buffer ++ c) ++ m) := by
  cases c with
  | nil => simp [piece]
  | cons x c =>
    cases inBlock with
    | true =>
      rw [h.dropped rfl, plain_nil, List.nil_append, List.nil_append, piece, List.cons_append,
        scan_border_open]
      rfl
    | false =>
      rw [piece, List.cons_append, scan_border (t := think) (h.untagged rfl), plain_append,
        List.append_assoc]
      rfl

theorem processNextContent_spec {c : List Char} {s : ThinkState} (h : s.hasThinkTags = true)
    {m : List (Cell Char)} (h_m : Bordered m) :
    let next := (processNextContent c s).2
    (processNextContent c s).1 ++ scan think next.inThinkBlock 0 (plain next.thinkBuffer ++ m) =
        scan think s.inThinkBlock 0 (plain (s.thinkBuffer ++ c) ++ m) ∧
      next.Tagged ∧ Held next.thinkBuffer next.inThinkBlock := by
  rcases h_result : processThinkBuffer (s.thinkBuffer ++ c) s.inThinkBlock with
    ⟨output, buffer, inBlock⟩
  obtain ⟨h_shown, h_held⟩ := thinkLoop_spec h_m le_rfl h_result
  simp only [processNextContent, h, Bool.true_eq_false, if_false, h_result]
  exact ⟨h_shown, ⟨rfl, rfl⟩, h_held⟩

theorem emit_tagged {s : ThinkState} (h : s.Tagged) (h_held : Held s.thinkBuffer s.inThinkBlock)
    (cs : List (List Char)) :
    emit s cs = scan think s.inThinkBlock 0 (plain s.thinkBuffer ++ cs.flatMap piece) := by
  induction cs generalizing s with
  | nil =>
    rw [emit, List.flatMap_nil, List.append_nil]
    split_ifs with h_block
    · rw [h_block]
      exact (visible_of_find_none (t := think) (h_held.untagged h_block)).symm
    · rw [h_held.dropped (by simpa using h_block), plain_nil, scan_nil]
  | cons c cs ih =>
    obtain ⟨h_shown, h_next, h_held'⟩ :=
      processNextContent_spec (c := c) h.2 (bordered_pieces cs)
    rw [emit, processThinkContent_next h.1, ih h_next h_held', h_shown, List.flatMap_cons,
      scan_join h_held]

theorem emit_next {s : ThinkState} (h : s.hasThinkTags = true) (c : List Char)
    (cs : List (List Char)) :
    (processNextContent c s).1 ++ emit (processNextContent c s).2 cs =
      scan think s.inThinkBlock 0 (plain (s.thinkBuffer ++ c) ++ cs.flatMap piece) := by
  obtain ⟨h_shown, h_next, h_held⟩ := processNextContent_spec (c := c) h (bordered_pieces cs)
  rw [emit_tagged h_next h_held, h_shown]

theorem emit_untagged {s : ThinkState} (h_first : s.isFirstContent = false)
    (h_tags : s.hasThinkTags = false) (h_buffer : s.thinkBuffer = []) (cs : List (List Char)) :
    emit s cs = cs.flatten := by
  induction cs generalizing s with
  | nil => simp [emit, h_buffer]
  | cons c cs ih =>
    have h_next : processNextContent c s = (c, { s with isFirstContent := false }) := by
      simp [processNextContent, h_tags]
    have h_rest := ih (s := { s with isFirstContent := false }) rfl h_tags h_buffer
    rw [emit, processThinkContent_next h_first, h_next, h_rest, List.flatten_cons]

/-! ### The cuttings that are right -/

theorem contents_run (s : StreamState) (events : List Event) :
    contents ((events.foldl (streamStep false) s).lines ++
        (events.foldl (streamStep false) s).flush false) =
      contents s.lines ++ emit s.think (chunks events) := by
  induction events generalizing s with
  | nil =>
    rw [List.foldl_nil, contents, List.flatMap_append, ← contents]
    congr 1
    show _ = if s.think.inThinkBlock = false then s.think.thinkBuffer else []
    unfold StreamState.flush
    by_cases h_block : s.think.inThinkBlock = false <;> by_cases h_buffer : s.think.thinkBuffer = []
      <;> simp [h_block, h_buffer]
  | cons event events ih =>
    rw [List.foldl_cons, ih]
    cases event with
    | content delta =>
      by_cases h_delta : delta = []
      · simp [streamStep, chunks, h_delta]
      · have h_chunks : chunks (.content delta :: events) = delta :: chunks events := by
          simp [chunks, h_delta]
        rw [h_chunks, emit]
        simp only [streamStep, if_neg h_delta]
        split_ifs with h_output
        · rw [h_output, List.nil_append]
        · simp [contents]
    | custom _ => rfl
    | other => rfl

theorem contents_generateAgentStream (events : List Event) :
    contents (generateAgentStream false events) = emit {} (chunks events) := by
  have h_run := contents_run {} events
  have h_customs : ∀ customs : List Py.Value, contents (customs.map .custom) = [] := by
    intro customs
    induction customs with
    | nil => rfl
    | cons c customs ih => simp [contents]
  unfold generateAgentStream
  simp only [contents, List.flatMap_append] at h_run h_customs ⊢
  rw [h_run, h_customs]
  simp

/-- The cuttings that are right: no tag in the answer, blocks that follow at once, or a chunk that
may be read twice. -/
def RightCut : List (List Char) → Prop
  | [] => True
  | c :: cs =>
    match find thinkStart c with
    | none => ¬thinkStart <:+: c ++ cs.flatten
    | some start =>
      if thinkStart <+: c.dropWhile Py.isSpace then
        match cs with
        | [] => visible think c = []
        | d :: ds =>
          start = 0 ∧ Tight think true 0 (plain (c.drop 7 ++ d) ++ ds.flatMap piece)
      else
        scan think true 0 (plain (c.drop (start + 7) ++ c) ++ cs.flatMap piece) =
          scan think true 0 (plain (c.drop (start + 7) ++ cs.flatten))

theorem symbols_pieces (cs : List (List Char)) : symbols (cs.flatMap piece) = cs.flatten := by
  induction cs with
  | nil => rfl
  | cons c cs ih => rw [List.flatMap_cons, symbols_append, symbols_piece, ih, List.flatten_cons]

theorem visible_of_find {c : List Char} {start : ℕ} (h : find thinkStart c = some start)
    (s : List Char) :
    visible think (c ++ s) =
      c.take start ++ scan think true 0 (plain (c.drop (start + 7) ++ s)) := by
  rw [visible, plain_append, scan_find_opening (t := think) h, plain_append]
  rfl

theorem begin_iff {c : List Char} {start : ℕ} (h : find thinkStart c = some start)
    (d : List Char) (ds : List (List Char)) :
    scan think true 0 (plain (c.drop (start + 7) ++ d) ++ ds.flatMap piece) =
        visible think (c ++ (d :: ds).flatten) ↔
      start = 0 ∧ Tight think true 0 (plain (c.drop 7 ++ d) ++ ds.flatMap piece) := by
  have h_unmarked : ∀ b : List Char, plain (b ++ (d :: ds).flatten) =
      unmarked (plain (b ++ d) ++ ds.flatMap piece) := by
    intro b
    rw [unmarked, symbols_append, symbols_plain, symbols_pieces, List.flatten_cons,
      List.append_assoc]
  rw [visible_of_find h, h_unmarked]
  cases start with
  | zero => rw [List.take_zero, List.nil_append, scan_eq_iff, Nat.zero_add, and_iff_right rfl]
  | succ start =>
    -- the white space before the block is not emitted
    refine iff_of_false (fun h_eq => ?_) fun h_zero => Nat.succ_ne_zero start h_zero.1
    have h_room := length_of_find h
    have h_length := congrArg List.length h_eq
    have h_le := (length_scan_le (t := think)
      (plain (c.drop (start + 1 + 7) ++ d) ++ ds.flatMap piece)).1 true 0
    rw [List.length_append, List.length_take] at h_length
    omega

theorem emit_iff (cs : List (List Char)) :
    emit {} cs = visible think cs.flatten ↔ RightCut cs := by
  cases cs with
  | nil => exact iff_of_true rfl trivial
  | cons c cs =>
    rw [emit, RightCut, List.flatten_cons]
    simp only [processThinkContent, Bool.false_eq_true, if_false, if_true, List.nil_append]
    cases h_find : find thinkStart c with
    | none =>
      have h_rest := emit_untagged
        (s := { isFirstContent := false, hasThinkTags := false }) rfl rfl rfl cs
      simp only
      rw [h_rest, eq_comm]
      exact visible_eq_self_iff
    | some start =>
      simp only
      split_ifs with h_leading
      · cases cs with
        | nil =>
          simp only [emit, List.flatten_nil, List.append_nil]
          exact eq_comm
        | cons d ds =>
          rw [emit, processThinkContent_next rfl, emit_next rfl, List.nil_append]
          exact begin_iff h_find d ds
      · rw [emit_next rfl, visible_of_find h_find, plain_append, List.append_assoc,
          scan_find_opening (t := think) h_find, List.append_cancel_left_eq, plain_append _ c,
          List.append_assoc]
        rfl

theorem flatten_singletons (s : List Char) : (s.map fun c => [c]).flatten = s := by
  induction s with
  | nil => rfl
  | cons c s ih => rw [List.map_cons, List.flatten_cons, ih, List.singleton_append]

theorem not_rightCut_singletons {text : List Char} (h : thinkStart <:+: text) :
    ¬RightCut (text.map fun c => [c]) := by
  cases text with
  | nil => simp [thinkStart] at h
  | cons c text =>
    have h_find : find thinkStart [c] = none := by
      refine find_eq_none.mpr fun h_inside => ?_
      have h_length := h_inside.length_le
      simp [thinkStart] at h_length
    rw [List.map_cons, RightCut, h_find]
    simp only
    rw [flatten_singletons, List.singleton_append, not_not]
    exact h

theorem rightCut_of_not_inside {cs : List (List Char)} (h : ¬thinkStart <:+: cs.flatten) :
    RightCut cs := by
  cases cs with
  | nil => trivial
  | cons c cs =>
    have h_find : find thinkStart c = none := by
      refine find_eq_none.mpr fun h_inside => h ?_
      rw [List.flatten_cons]
      exact h_inside.trans (List.prefix_append c _).isInfix
    rw [RightCut, h_find]
    exact h

/-- **The filter** is right exactly if the answer is cut right. -/
theorem filtered_iff (events : List Event) (text : List Char) :
    (Filtered events ↔ RightCut (chunks events)) ∧
      ((∀ events', answer events' = text → Filtered events') ↔ ¬thinkStart <:+: text) := by
  have h_each : ∀ events, Filtered events ↔ RightCut (chunks events) := by
    intro events
    rw [Filtered, contents_generateAgentStream, answer]
    exact emit_iff _
  refine ⟨h_each events, fun h h_inside => ?_, ?_⟩
  · have h_chunks : chunks (text.map fun c => Event.content [c]) = text.map fun c => [c] := by
      simp [chunks]
    have h_answer : answer (text.map fun c => Event.content [c]) = text := by
      rw [answer, h_chunks, flatten_singletons]
    have h_right := (h_each _).mp (h _ h_answer)
    rw [h_chunks] at h_right
    exact not_rightCut_singletons h_inside h_right
  · rintro h_none events' rfl
    exact (h_each events').mpr (rightCut_of_not_inside h_none)

/-! ### Answers that come wrong -/

/-- `Hi` and a block, in one chunk: all comes out twice. -/
def twice : List Event := [.content ['H', 'i', '<', 't', 'h', 'i', 'n', 'k', '>', 'a', '<', '/',
  't', 'h', 'i', 'n', 'k', '>']]

def swallowed : List Event :=
  [.content thinkStart, .content ['a', '<', '/', 't', 'h'], .content ['i', 'n', 'k', '>', 'b']]

def leaked : List Event :=
  [.content ['<', 't', 'h'], .content ['i', 'n', 'k', '>', 'a'], .content thinkEnd]

/-- **Twice, swallowed and leaked.** -/
theorem filtered_wrong :
    visible think (answer twice) = ['H', 'i'] ∧
      contents (generateAgentStream false twice) = ['H', 'i', 'H', 'i'] ∧
      visible think (answer swallowed) = ['b'] ∧
      contents (generateAgentStream false swallowed) = [] ∧
      visible think (answer leaked) = [] ∧
      contents (generateAgentStream false leaked) = answer leaked ∧
      ¬Filtered twice ∧ ¬Filtered swallowed ∧ ¬Filtered leaked := by
  decide

end ThinkFilter
end OpsPilot

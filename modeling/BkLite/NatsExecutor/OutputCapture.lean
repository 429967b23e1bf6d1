import Mathlib.Algebra.Order.Group.Int
import Mathlib.Data.List.Basic
import Mathlib.Data.List.Induction
import Mathlib.Data.List.TakeWhile

/-!
# The captured output of a command

`utils/shared_output_capture.go`: both streams of a command write into one buffer of a limited size,
and what is shown of it is cut so that a notice fits behind it.

The counters are numbers without a bound, a write of no process reaches that of `int64`.
-/

namespace NatsExecutor
namespace OutputCapture

abbrev Bytes := List UInt8

/-! ### Capturing -/

inductive CaptureStream
  | stdout
  | stderr
deriving DecidableEq

def commandOutputLimitBytes : ℕ := 1024 * 1024

/-- `SharedOutputCapture`, and `OutputSnapshot`. -/
structure SharedOutputCapture where
  limit : ℕ
  used : ℕ := 0
  stdout : Bytes := []
  stderr : Bytes := []
  totalWritten : ℕ := 0
  stdoutDropped : ℕ := 0
  stderrDropped : ℕ := 0
  truncated : Bool := false

def newSharedOutputCapture (limit : ℤ) : SharedOutputCapture where
  limit := if limit ≤ 0 then commandOutputLimitBytes else limit.toNat

/-- `write`; the lock makes it one step. -/
def SharedOutputCapture.write (c : SharedOutputCapture) (stream : CaptureStream) (p : Bytes) :
    SharedOutputCapture :=
  let remaining := c.limit - c.used
  let kept := min p.length remaining
  let dropped := p.length - kept
  { c with
    totalWritten := c.totalWritten + p.length
    used := c.used + kept
    stdout := if stream = .stdout then c.stdout ++ p.take kept else c.stdout
    stderr := if stream = .stderr then c.stderr ++ p.take kept else c.stderr
    truncated := c.truncated || 0 < dropped
    stdoutDropped := if stream = .stdout then c.stdoutDropped + dropped else c.stdoutDropped
    stderrDropped := if stream = .stderr then c.stderrDropped + dropped else c.stderrDropped }

def captured (limit : ℤ) (writes : List (CaptureStream × Bytes)) : SharedOutputCapture :=
  writes.foldl (fun c w => c.write w.1 w.2) (newSharedOutputCapture limit)

namespace SharedOutputCapture

variable (c : SharedOutputCapture)

def kept : CaptureStream → Bytes
  | .stdout => c.stdout
  | .stderr => c.stderr

def dropped : CaptureStream → ℕ
  | .stdout => c.stdoutDropped
  | .stderr => c.stderrDropped

end SharedOutputCapture

/-! ### Showing -/

/-- The size of the character that a byte begins, and where the second byte has to lie. -/
def lead (b : UInt8) : Option (ℕ × UInt8 × UInt8) :=
  if 0xc2 ≤ b ∧ b ≤ 0xdf then some (2, 0x80, 0xbf)
  else if b = 0xe0 then some (3, 0xa0, 0xbf)
  else if b = 0xed then some (3, 0x80, 0x9f)
  else if 0xe1 ≤ b ∧ b ≤ 0xef then some (3, 0x80, 0xbf)
  else if b = 0xf0 then some (4, 0x90, 0xbf)
  else if 0xf1 ≤ b ∧ b ≤ 0xf3 then some (4, 0x80, 0xbf)
  else if b = 0xf4 then some (4, 0x80, 0x8f)
  else none

def isContinuation (b : UInt8) : Bool := 0x80 ≤ b && b ≤ 0xbf

def validString : Bytes → Bool
  | [] => true
  | b :: bs =>
    if b < 0x80 then validString bs
    else
      match lead b, bs with
      | some (size, lo, hi), c :: bs =>
        (lo ≤ c && c ≤ hi) &&
          if size = 2 then validString bs
          else
            match bs with
            | [] => false
            | d :: bs =>
              isContinuation d &&
                if size = 3 then validString bs
                else
                  match bs with
                  | [] => false
                  | e :: bs => isContinuation e && validString bs
      | _, _ => false

example : validString [0xe4, 0xb8, 0xad, 0x61] = true ∧ validString [0xe4, 0xb8] = false := by
  decide

/-- The loop of `truncateUTF8ToByteLimit`. -/
def searchBack (value : Bytes) : ℕ → Bytes
  | 0 => []
  | end' + 1 =>
    if validString (value.take (end' + 1)) = true then value.take (end' + 1)
    else searchBack value end'

def truncateUTF8ToByteLimit (value : Bytes) (limit : ℕ) : Bytes :=
  if limit = 0 then [] else if value.length ≤ limit then value else searchBack value limit

def appendTruncationNotice (output notice : Bytes) (limit : ℕ) : Bytes :=
  if limit = 0 then notice
  else if limit ≤ notice.length then truncateUTF8ToByteLimit notice limit
  else truncateUTF8ToByteLimit output (limit - notice.length) ++ notice

def truncatedOutputNotice : Bytes :=
  "\n...[output truncated]".toList.map fun c => UInt8.ofNat c.toNat

def formatCapturedOutput (stdout stderr : Bytes) (snapshot : SharedOutputCapture) : Bytes :=
  if snapshot.truncated = true then
    appendTruncationNotice (stdout ++ stderr) truncatedOutputNotice snapshot.limit
  else stdout ++ stderr

/-! ### What is claimed -/

def written (writes : List (CaptureStream × Bytes)) : List (CaptureStream × UInt8) :=
  writes.flatMap fun w => w.2.map (w.1, ·)

def ofStream (stream : CaptureStream) (bytes : List (CaptureStream × UInt8)) : Bytes :=
  (bytes.filter (·.1 = stream)).map (·.2)

/-- **Bounded and not thrown away.** -/
structure Bounded (limit : ℤ) (writes : List (CaptureStream × Bytes)) (stdout stderr : Bytes) :
    Prop where
  kept : ∀ stream, (captured limit writes).kept stream =
    ofStream stream ((written writes).take limit.toNat)
  dropped : ∀ stream, ((captured limit writes).kept stream).length +
    (captured limit writes).dropped stream = (ofStream stream (written writes)).length
  unchanged : (∀ stream, (captured limit writes).dropped stream = 0) →
    formatCapturedOutput stdout stderr (captured limit writes) = stdout ++ stderr
  cut : (∃ stream, (captured limit writes).dropped stream ≠ 0) → ∃ text,
    formatCapturedOutput stdout stderr (captured limit writes) = text ++ truncatedOutputNotice ∧
      (text ++ truncatedOutputNotice).length ≤ limit.toNat ∧ text <+: stdout ++ stderr ∧
      min (stdout ++ stderr).length (limit.toNat - truncatedOutputNotice.length) ≤ text.length + 3

def Cuttable (value : Bytes) (available : ℕ) : Prop :=
  value.length ≤ available ∨
    ∃ n, n ≤ available ∧ available ≤ n + 3 ∧ validString (value.take n) = true

/-! ### What is captured -/

section Chunks

variable (c : SharedOutputCapture) (stream : CaptureStream)

/-- The room that the first byte leaves is what the others find. -/
theorem write_cons (b : UInt8) (p : Bytes) :
    c.write stream (b :: p) = (c.write stream [b]).write stream p := by
  cases h_room : c.limit - c.used with
  | zero =>
    cases stream <;> simp [SharedOutputCapture.write, h_room, Nat.add_comm, Nat.add_left_comm]
  | succ room =>
    have h_left : c.limit - (c.used + 1) = room := by omega
    have h_dropped : p.length + 1 - (min p.length room + 1) = p.length - min p.length room :=
      Nat.add_sub_add_right _ _ _
    cases stream <;>
      simp [SharedOutputCapture.write, h_room, h_left, h_dropped, Nat.add_comm, Nat.add_left_comm]

theorem write_eq_foldl (p : Bytes) :
    c.write stream p = p.foldl (fun c b => c.write stream [b]) c := by
  induction p generalizing c with
  | nil => cases stream <;> simp [SharedOutputCapture.write]
  | cons b p ih => rw [List.foldl_cons, ← ih, ← write_cons]

variable (limit : ℤ) (writes : List (CaptureStream × Bytes)) in
/-- **Chunks.** How the output is cut into writes makes no difference, only the order of its bytes
does. -/
theorem captured_eq_foldl : captured limit writes =
    (written writes).foldl (fun c w => c.write w.1 [w.2]) (newSharedOutputCapture limit) := by
  unfold captured written
  rw [List.foldl_flatMap]
  congr 1
  funext c w
  rw [List.foldl_map, ← write_eq_foldl]

end Chunks

section Captured

variable {limit : ℤ} {writes : List (CaptureStream × Bytes)} {stream : CaptureStream}

theorem ofStream_append (xs ys : List (CaptureStream × UInt8)) :
    ofStream stream (xs ++ ys) = ofStream stream xs ++ ofStream stream ys := by
  unfold ofStream
  rw [List.filter_append, List.map_append]

theorem ofStream_map (s : CaptureStream) (p : Bytes) :
    ofStream stream (p.map (s, ·)) = if s = stream then p else [] := by
  unfold ofStream
  rw [List.filter_map, List.map_map]
  split_ifs with h_eq
  · have h_all : p.filter ((fun x : CaptureStream × UInt8 => decide (x.1 = stream)) ∘ (s, ·)) = p :=
      List.filter_eq_self.mpr fun b _ => decide_eq_true h_eq
    rw [h_all]
    exact List.map_id p
  · rw [List.filter_eq_nil_iff.mpr fun b _ => by simp [h_eq]]
    rfl

theorem written_concat (w : CaptureStream × Bytes) :
    written (writes ++ [w]) = written writes ++ w.2.map (w.1, ·) := by
  unfold written
  rw [List.flatMap_append, List.flatMap_singleton]

/-- What the capture is after some writes. -/
structure Captured (c : SharedOutputCapture) (limit : ℕ) (bytes : List (CaptureStream × UInt8)) :
    Prop where
  limit_eq : c.limit = limit
  used : c.used = min limit bytes.length
  kept : ∀ stream, c.kept stream = ofStream stream (bytes.take limit)
  dropped : ∀ stream, (c.kept stream).length + c.dropped stream = (ofStream stream bytes).length
  truncated : c.truncated = true ↔ limit < bytes.length

theorem Captured.write {c : SharedOutputCapture} {limit : ℕ}
    {bytes : List (CaptureStream × UInt8)} (h : Captured c limit bytes) (s : CaptureStream)
    (p : Bytes) : Captured (c.write s p) limit (bytes ++ p.map (s, ·)) := by
  have h_room : c.limit - c.used = limit - bytes.length := by
    rw [h.limit_eq, h.used]
    omega
  have h_kept (stream : CaptureStream) : (c.write s p).kept stream =
      c.kept stream ++ if s = stream then p.take (limit - bytes.length) else [] := by
    have h_take : p.take (min p.length (limit - bytes.length)) = p.take (limit - bytes.length) := by
      rw [← List.take_take]
      exact List.take_of_length_le (List.length_take_le' _ _)
    cases stream <;> cases s <;>
      simp [SharedOutputCapture.kept, SharedOutputCapture.write, h_room, h_take]
  have h_dropped (stream : CaptureStream) : (c.write s p).dropped stream = c.dropped stream +
      if s = stream then p.length - (limit - bytes.length) else 0 := by
    cases stream <;> cases s <;>
      simp [SharedOutputCapture.dropped, SharedOutputCapture.write, h_room] <;> omega
  refine ⟨h.limit_eq, ?_, fun stream => ?_, fun stream => ?_, ?_⟩
  · show c.used + min p.length (c.limit - c.used) = _
    rw [h_room, h.used, List.length_append, List.length_map]
    omega
  · rw [h_kept, h.kept, List.take_append, ofStream_append, ← List.map_take, ofStream_map]
  · have h_before := h.dropped stream
    rw [h_kept, h_dropped, ofStream_append, ofStream_map, List.length_append, List.length_append]
    split_ifs
    · rw [List.length_take]
      omega
    · rw [List.length_nil]
      omega
  · show (c.truncated || decide (0 < p.length - min p.length (c.limit - c.used))) = true ↔ _
    rw [Bool.or_eq_true, decide_eq_true_iff, h.truncated, h_room, List.length_append,
      List.length_map]
    omega

theorem captured_spec (limit : ℤ) (h_limit : 0 < limit) (writes : List (CaptureStream × Bytes)) :
    Captured (captured limit writes) limit.toNat (written writes) := by
  induction writes using List.reverseRecOn with
  | nil =>
    have h_eq : (newSharedOutputCapture limit).limit = limit.toNat :=
      if_neg (not_le.mpr h_limit)
    refine ⟨h_eq, ?_, ?_, ?_, ?_⟩
    · exact (Nat.min_zero _).symm
    · intro stream
      cases stream <;> exact (congrArg (ofStream _) List.take_nil).symm
    · intro stream
      cases stream <;> rfl
    · exact ⟨fun h => (nomatch h), fun h => absurd h (Nat.not_lt_zero _)⟩
  | append_singleton writes w ih =>
    rw [written_concat]
    unfold captured at ih ⊢
    rw [List.foldl_concat]
    exact ih.write w.1 w.2

theorem Captured.dropped_iff {c : SharedOutputCapture} {limit : ℕ}
    {bytes : List (CaptureStream × UInt8)} (h : Captured c limit bytes) :
    (∃ stream, c.dropped stream ≠ 0) ↔ limit < bytes.length := by
  have h_sum (xs : List (CaptureStream × UInt8)) :
      (ofStream .stdout xs).length + (ofStream .stderr xs).length = xs.length := by
    unfold ofStream
    rw [List.length_map, List.length_map]
    induction xs with
    | nil => rfl
    | cons x xs ih =>
      obtain ⟨s, b⟩ := x
      cases s <;> simp <;> omega
  have h_out := h.dropped .stdout
  have h_err := h.dropped .stderr
  have h_all := h_sum bytes
  have h_kept := h_sum (bytes.take limit)
  rw [← h.kept, ← h.kept, List.length_take] at h_kept
  refine ⟨?_, fun h_lt => ?_⟩
  · rintro ⟨stream, h_ne⟩
    cases stream <;> omega
  · by_contra h_none
    push Not at h_none
    have h_out0 := h_none .stdout
    have h_err0 := h_none .stderr
    omega

end Captured

/-! ### What is shown -/

section Shown

variable {value : Bytes} {limit n : ℕ}

theorem searchBack_spec (value : Bytes) (limit : ℕ) :
    ∃ n ≤ limit, searchBack value limit = value.take n ∧ validString (value.take n) = true ∧
      ∀ k ≤ limit, validString (value.take k) = true → k ≤ n := by
  induction limit with
  | zero => exact ⟨0, le_rfl, rfl, rfl, fun k h_k _ => h_k⟩
  | succ limit ih =>
    unfold searchBack
    split_ifs with h_valid
    · exact ⟨limit + 1, le_rfl, rfl, h_valid, fun k h_k _ => h_k⟩
    · obtain ⟨n, h_n, h_eq, h_n_valid, h_max⟩ := ih
      refine ⟨n, Nat.le_succ_of_le h_n, h_eq, h_n_valid, fun k h_k h_k_valid => ?_⟩
      obtain rfl | h_lt := h_k.eq_or_lt
      · exact absurd h_k_valid h_valid
      · exact h_max k (Nat.le_of_lt_succ h_lt) h_k_valid

/-- **Cutting** leaves all but three bytes of what fits exactly if that can be cut so. -/
theorem truncate_iff (value : Bytes) (h_limit : 0 < limit) :
    min value.length limit ≤ (truncateUTF8ToByteLimit value limit).length + 3 ↔
      Cuttable value limit := by
  unfold truncateUTF8ToByteLimit Cuttable
  rw [if_neg h_limit.ne']
  split_ifs with h_fits
  · simp [h_fits]
  · obtain ⟨n, h_n, h_eq, h_valid, h_max⟩ := searchBack_spec value limit
    rw [h_eq, List.length_take]
    refine ⟨fun h => .inr ⟨n, h_n, by omega, h_valid⟩, ?_⟩
    · rintro (h | ⟨k, h_k, h_close, h_valid⟩)
      · exact absurd h h_fits
      · have h_le := h_max k h_k h_valid
        omega

theorem truncate_prefix (value : Bytes) (limit : ℕ) :
    truncateUTF8ToByteLimit value limit <+: value ∧
      (truncateUTF8ToByteLimit value limit).length ≤ limit := by
  unfold truncateUTF8ToByteLimit
  split_ifs with h_zero h_fits
  · exact ⟨List.nil_prefix, Nat.zero_le _⟩
  · exact ⟨List.prefix_rfl, h_fits⟩
  · obtain ⟨n, h_n, h_eq, -, -⟩ := searchBack_spec value limit
    rw [h_eq]
    exact ⟨List.take_prefix n value, (List.length_take_le n value).trans h_n⟩

end Shown

section Valid

end Valid

/-- **The exact condition.** -/
theorem bounded_iff (limit : ℤ) (h_limit : (truncatedOutputNotice.length : ℤ) < limit)
    (writes : List (CaptureStream × Bytes)) (stdout stderr : Bytes) :
    Bounded limit writes stdout stderr ↔ (written writes).length ≤ limit.toNat ∨
      Cuttable (stdout ++ stderr) (limit.toNat - truncatedOutputNotice.length) := by
  have h_captured := captured_spec limit (lt_of_le_of_lt (Int.natCast_nonneg _) h_limit) writes
  have h_room : truncatedOutputNotice.length < limit.toNat := by omega
  have h_available : 0 < limit.toNat - truncatedOutputNotice.length := Nat.sub_pos_of_lt h_room
  -- where something is dropped the text is cut
  have h_format (h_lt : limit.toNat < (written writes).length) :
      formatCapturedOutput stdout stderr (captured limit writes) =
        truncateUTF8ToByteLimit (stdout ++ stderr)
          (limit.toNat - truncatedOutputNotice.length) ++ truncatedOutputNotice := by
    unfold formatCapturedOutput appendTruncationNotice
    rw [if_pos (h_captured.truncated.mpr h_lt), h_captured.limit_eq, if_neg (by omega),
      if_neg (not_le.mpr h_room)]
  refine ⟨fun h => ?_, fun h => ⟨h_captured.kept, h_captured.dropped, fun h_none => ?_, ?_⟩⟩
  · rw [or_iff_not_imp_left, not_le]
    intro h_lt
    obtain ⟨text, h_text, -, -, h_close⟩ := h.cut (h_captured.dropped_iff.mpr h_lt)
    rw [h_format h_lt] at h_text
    rw [← List.append_cancel_right h_text] at h_close
    exact (truncate_iff _ h_available).mp h_close
  · have h_le : ¬limit.toNat < (written writes).length := by
      intro h_lt
      obtain ⟨stream, h_ne⟩ := h_captured.dropped_iff.mpr h_lt
      exact h_ne (h_none stream)
    unfold formatCapturedOutput
    rw [if_neg fun h_truncated => h_le (h_captured.truncated.mp h_truncated)]
  · intro h_some
    have h_lt := h_captured.dropped_iff.mp h_some
    have h_cuttable := h.resolve_left (not_le.mpr h_lt)
    obtain ⟨h_begins, h_length⟩ := truncate_prefix (stdout ++ stderr)
      (limit.toNat - truncatedOutputNotice.length)
    refine ⟨_, h_format h_lt, ?_, h_begins, (truncate_iff _ h_available).mpr h_cuttable⟩
    rw [List.length_append]
    omega

section Examples

private def badFirst : List (CaptureStream × Bytes) :=
  [(.stdout, 0xff :: List.replicate 31 0x61)]

private def goodText : List (CaptureStream × Bytes) := [(.stdout, List.replicate 32 0x61)]

theorem bounded_goodText :
    ((truncatedOutputNotice.length : ℤ) < 30) ∧
      Bounded 30 goodText (List.replicate 30 0x61) [] :=
  ⟨by decide, (bounded_iff 30 (by decide) goodText _ _).mpr
    (.inr (.inr ⟨8, by decide, by decide, by decide⟩))⟩

/-- All of the text is thrown away. -/
theorem not_bounded : ¬∀ (limit : ℤ), (truncatedOutputNotice.length : ℤ) < limit →
    ∀ (writes : List (CaptureStream × Bytes)) (stdout stderr : Bytes),
      stdout = (captured limit writes).stdout → stderr = (captured limit writes).stderr →
        Bounded limit writes stdout stderr := by
  intro h
  have h_bounded := h 30 (by decide) badFirst _ _ rfl rfl
  obtain ⟨text, h_text, -, -, h_close⟩ := h_bounded.cut ⟨.stdout, by decide⟩
  have h_format : formatCapturedOutput (captured 30 badFirst).stdout (captured 30 badFirst).stderr
      (captured 30 badFirst) = [] ++ truncatedOutputNotice := by decide
  rw [h_format] at h_text
  rw [← List.append_cancel_right h_text] at h_close
  exact absurd h_close (by decide)

end Examples

end OutputCapture
end NatsExecutor

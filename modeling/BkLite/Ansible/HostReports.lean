import BkLite.Ansible.Compaction
import BkLite.Ansible.Output

/-!
# What a result says of the hosts

Of the entries of a result only two fields count for the outcome, the host and its status
(`Report`). They are those of the header lines of the output, or where there is no header line and
nothing was cut, those of the rows of its recap (`parsedResults_tells`). Compaction leaves them as
they are (`carries_compact`).
-/

namespace Ansible
namespace Output

open Py Worker Compaction

/-! ### What is kept of the output -/

section Collect

variable {maxBytes : ℕ} {bytes : Bytes}

def collectedOf (maxBytes : ℕ) (bytes : Bytes) : Collected where
  retained := bytes.take maxBytes
  totalBytes := bytes.length
  truncated := maxBytes < bytes.length

theorem chunk_collectedOf (chunk : Bytes) :
    (collectedOf maxBytes bytes).chunk maxBytes chunk = collectedOf maxBytes (bytes ++ chunk) := by
  have h_left : maxBytes - (bytes.take maxBytes).length = maxBytes - bytes.length := by
    rw [List.length_take]
    omega
  unfold Collected.chunk collectedOf
  dsimp only
  rw [h_left, List.take_append, List.length_append, ← Bool.decide_or]
  congr 1
  exact decide_eq_decide.mpr (by omega)

theorem collectOutput_eq (maxBytes : ℕ) (chunks : List Bytes) :
    collectOutput maxBytes chunks =
      collectedOf maxBytes (chunks.takeWhile (· ≠ [])).flatten := by
  have h_run (chunks : List Bytes) (bytes : Bytes) :
      chunks.foldl (Collected.chunk maxBytes) (collectedOf maxBytes bytes) =
        collectedOf maxBytes (bytes ++ chunks.flatten) := by
    induction chunks generalizing bytes with
    | nil =>
      rw [List.flatten_nil, List.append_nil]
      rfl
    | cons chunk chunks ih =>
      rw [List.foldl_cons, chunk_collectedOf, ih, List.flatten_cons, List.append_assoc]
  have h_start : collectedOf maxBytes [] = {} := by
    unfold collectedOf
    rw [List.take_nil]
    rfl
  unfold collectOutput
  rw [← h_start]
  exact h_run _ []

end Collect

/-! ### Reports -/

structure Report where
  host : String
  succeeded : Bool
deriving DecidableEq, Repr

def HostLine.report (h : HostLine) : Option Report :=
  h.exitCode.map fun _ => ⟨String.ofList h.host, h.status.succeeded⟩

def RecapLine.report (r : RecapLine) : Option Report :=
  r.succeeded.map fun succeeded => ⟨String.ofList r.host, succeeded⟩

section Reports

variable (codecs : Codecs)

def Ended.hostLines (run : Ended) : List HostLine :=
  (splitlines (run.output codecs)).filterMap hostLine

def Ended.reports (run : Ended) : Option (List Report) :=
  if run.hostLines codecs ≠ [] then (run.hostLines codecs).mapM HostLine.report
  else if run.collected.truncated then some []
  else (recapLines (run.output codecs)).mapM RecapLine.report

end Reports

theorem bar_mem_of_hostLine {line : Line} {h : HostLine} (h_line : hostLine line = some h) :
    '|' ∈ line := by
  obtain ⟨⟨_, _⟩, h_match, -⟩ := Option.map_eq_some_iff.mp h_line
  unfold hostLinePattern at h_match
  obtain ⟨host, r, h_host, h_match⟩ := Scan.bind_eq_some.mp h_match
  obtain ⟨gap, r', h_gap, h_match⟩ := Scan.bind_eq_some.mp h_match
  obtain ⟨_, r'', h_bar, -⟩ := Scan.bind_eq_some.mp h_match
  rw [Scan.eq_append_of_run1 h_host, Scan.eq_append_of_run1 h_gap, Scan.eq_append_of_literal h_bar]
  exact List.mem_append_right _ (List.mem_append_right _ List.mem_cons_self)

theorem Ended.reports_of_cut {codecs : Codecs} {run : Ended}
    (h_cut : run.collected.truncated = true) (h_bar : '|' ∉ run.output codecs) :
    run.reports codecs = some [] := by
  have h_lines : run.hostLines codecs = [] := by
    refine List.filterMap_eq_nil_iff.mpr fun line h_line => ?_
    refine Option.eq_none_iff_forall_ne_some.mpr fun h h_some => h_bar ?_
    exact (mem_of_mem_splitlines h_line (bar_mem_of_hostLine h_some)).1
  unfold Ended.reports
  rw [if_neg (not_not.mpr h_lines), if_pos h_cut]

/-- The entry says of its host what is reported. -/
structure Tells (d : Dict) (r : Report) : Prop where
  host : Value.lookup d "host" = .str r.host
  status : Value.lookup d "status" = .str (statusText r.succeeded)

/-! ### Reading the output -/

section Reading

variable {α α' β β' : Type} {R : α → β → Prop} {S : α' → β' → Prop}

theorem rel_bind {x : Option α} {y : Option β} {f : α → Option α'} {g : β → Option β'}
    (h : Option.Rel R x y) (h_next : ∀ a b, R a b → Option.Rel S (f a) (g b)) :
    Option.Rel S (x >>= f) (y >>= g) := by
  cases h with
  | some h => exact h_next _ _ h
  | none => exact .none

theorem mapM_rel {γ : Type} {f : γ → Option α} {g : γ → Option β}
    (h : ∀ x, Option.Rel R (f x) (g x)) (xs : List γ) :
    Option.Rel (List.Forall₂ R) (xs.mapM f) (xs.mapM g) := by
  induction xs with
  | nil => exact .some .nil
  | cons x xs ih =>
    rw [List.mapM_cons, List.mapM_cons]
    exact rel_bind (h x) fun _ _ h_x => rel_bind ih fun _ _ h_xs => .some (.cons h_x h_xs)

end Reading

section Parse

variable {t : Bool} {p : Progress} {rs : List Report}

def Current.report (c : Current) : Report := ⟨String.ofList c.host, c.status.succeeded⟩

def Progress.Told (p : Progress) (rs : List Report) : Prop :=
  ∃ before, List.Forall₂ Tells p.results before ∧
    rs = before ++ (p.current.map Current.report).toList

theorem Progress.Told.flush (h : p.Told rs) : List.Forall₂ Tells (p.flush t) rs := by
  obtain ⟨before, h_before, rfl⟩ := h
  unfold Progress.flush
  cases p.current with
  | none =>
    show List.Forall₂ Tells p.results (before ++ [])
    rwa [List.append_nil]
  | some c => exact List.rel_append h_before (.cons ⟨rfl, rfl⟩ .nil)

theorem told_line_of_none {line : Line} (h : hostLine line = none) (h_told : p.Told rs) :
    ∃ p', p.line t line = some p' ∧ p'.Told rs := by
  unfold Progress.line
  rw [h]
  dsimp only
  split_ifs
  · exact ⟨_, rfl, h_told⟩
  · exact ⟨_, rfl, h_told⟩

theorem told_line_of_some {line : Line} {m : HostLine} (h : hostLine line = some m)
    (h_told : p.Told rs) :
    Option.Rel (fun p' r => p'.Told (rs ++ [r])) (p.line t line) m.report := by
  unfold Progress.line HostLine.report
  rw [h]
  dsimp only
  cases m.exitCode with
  | none => exact .none
  | some exitCode => exact .some ⟨rs, h_told.flush, rfl⟩

theorem told_foldlM (lines : List Line) (h_told : p.Told rs) :
    Option.Rel (fun p' rs' => p'.Told (rs ++ rs')) (lines.foldlM (Progress.line t) p)
      ((lines.filterMap hostLine).mapM HostLine.report) := by
  induction lines generalizing p rs with
  | nil =>
    refine .some ?_
    show p.Told (rs ++ [])
    rwa [List.append_nil]
  | cons line lines ih =>
    rw [List.foldlM_cons]
    cases h_line : hostLine line with
    | none =>
      obtain ⟨p', h_p', h_next⟩ := told_line_of_none h_line h_told
      rw [h_p', List.filterMap_cons_none h_line]
      exact ih h_next
    | some m =>
      rw [List.filterMap_cons_some h_line, List.mapM_cons]
      refine rel_bind (told_line_of_some h_line h_told) fun p' r h_next => ?_
      -- the reports of the other lines come behind this one
      rw [← bind_pure (List.foldlM _ p' lines)]
      refine rel_bind (ih h_next) fun p'' rs' h_run => .some ?_
      rwa [List.append_assoc] at h_run

theorem parse_tells (output : List Char) :
    Option.Rel (List.Forall₂ Tells) (parseAnsibleOutputPerHost t output)
      (((splitlines output).filterMap hostLine).mapM HostLine.report) := by
  have h_start : Progress.Told {} [] := ⟨[], .nil, rfl⟩
  unfold parseAnsibleOutputPerHost
  rw [← bind_pure (List.mapM _ _)]
  exact rel_bind (told_foldlM _ h_start) fun p rs h_told => .some h_told.flush

theorem recap_tells (reader : Reader) (output : List Char) :
    Option.Rel (List.Forall₂ Tells) (parsePlaybookRecap reader output)
      ((recapLines output).mapM RecapLine.report) := by
  refine mapM_rel (fun r => ?_) _
  unfold recapResult RecapLine.report
  cases r.succeeded with
  | none => exact .none
  | some succeeded => exact .some ⟨rfl, rfl⟩

end Parse

section Results

variable {codecs : Codecs} {run : Ended}

theorem perHostResults_tells :
    Option.Rel (List.Forall₂ Tells) (run.perHostResults codecs)
      ((run.hostLines codecs).mapM HostLine.report) := by
  unfold Ended.perHostResults Ended.hostLines
  split_ifs with h_output
  · rw [h_output]
    exact .some .nil
  · exact parse_tells _

theorem perHostResults_of_nil (h : run.hostLines codecs = []) :
    run.perHostResults codecs = some [] := by
  have h_tells : Option.Rel (List.Forall₂ Tells) (run.perHostResults codecs) (some []) := by
    have h_lines := @perHostResults_tells codecs run
    rwa [h] at h_lines
  generalize run.perHostResults codecs = perHost at h_tells
  cases h_tells with
  | some h_nil => rw [List.forall₂_nil_right_iff.mp h_nil]

theorem parsedResults_tells (reader : Reader) :
    Option.Rel (List.Forall₂ Tells) (run.parsedResults codecs reader) (run.reports codecs) := by
  unfold Ended.parsedResults Ended.reports
  by_cases h_lines : run.hostLines codecs = []
  · rw [if_neg (not_not.mpr h_lines), perHostResults_of_nil h_lines]
    show Option.Rel _ (if _ ∧ _ ∧ _ then _ else _) _
    by_cases h_cut : run.collected.truncated = true
    · rw [if_neg fun h => Bool.noConfusion (h_cut.symm.trans h.2.2), if_pos h_cut]
      exact .some .nil
    · rw [if_neg h_cut]
      by_cases h_output : run.output codecs = []
      · rw [if_neg fun h => h.2.1 h_output, h_output]
        exact .some .nil
      · rw [if_pos ⟨rfl, h_output, eq_false_of_ne_true h_cut⟩]
        exact recap_tells reader _
  · rw [if_pos h_lines]
    have h_tells := @perHostResults_tells codecs run
    generalize h_reports : (run.hostLines codecs).mapM HostLine.report = reports at h_tells ⊢
    generalize run.perHostResults codecs = perHost at h_tells
    cases h_tells with
    | none => exact .none
    | @some ds rs h_rs =>
      -- there is a header line, so there is an entry
      have h_ds : ds ≠ [] := by
        rintro rfl
        obtain rfl := List.forall₂_nil_left_iff.mp h_rs
        obtain ⟨h, hs, h_cons⟩ := List.exists_cons_of_ne_nil h_lines
        rw [h_cons, List.mapM_cons] at h_reports
        obtain ⟨r, -, h_rest⟩ := Option.bind_eq_some_iff.mp h_reports
        obtain ⟨rs, -, h_all⟩ := Option.bind_eq_some_iff.mp h_rest
        exact List.cons_ne_nil r rs (Option.some.inj h_all)
      show Option.Rel _ (if _ ∧ _ ∧ _ then _ else _) _
      rw [if_neg fun h => h_ds h.1]
      exact .some h_rs

end Results

/-! ### The payload -/

/-- The result in a payload is made of entries that tell what is reported, or it is a text where
nothing is. -/
inductive Carries : Value → List Report → Prop
  | text (s : String) : Carries (.str s) []
  | hosts {ds : List Dict} {rs : List Report} (h : List.Forall₂ Tells ds rs) (h_rs : rs ≠ []) :
    Carries (.list (ds.map .dict)) rs

section Payload

variable {d : Dict} {r : Report} {rs : List Report} {v : Value} {f : Value → Value}

theorem carries_result (codecs : Codecs) (reader : Reader) (run : Ended)
    (startedAt finishedAt : String) (task : QueuedTask) (ownerId : Owner) :
    Option.Rel (fun o rs => Carries (Value.lookup (buildTaskResult task ownerId o) "result") rs)
      (run.outcome codecs reader startedAt finishedAt) (run.reports codecs) := by
  unfold Ended.outcome
  obtain h_tells := @parsedResults_tells codecs run reader
  generalize run.reports codecs = reports at h_tells
  generalize run.parsedResults codecs reader = parsed at h_tells
  cases h_tells with
  | none => exact .none
  | @some ds rs h =>
    refine .some ?_
    show Carries (if ds.map Value.dict = [] then _ else _) rs
    by_cases h_ds : ds = []
    · rw [h_ds, List.map_nil, if_pos rfl]
      rw [h_ds] at h
      rw [List.forall₂_nil_left_iff.mp h]
      exact .text _
    · rw [if_neg fun h_nil => h_ds (List.map_eq_nil_iff.mp h_nil)]
      refine .hosts h ?_
      rintro rfl
      exact h_ds (List.forall₂_nil_right_iff.mp h)

theorem Tells.setItem (h : Tells d r) {key : String} (h_key : key ∈ hostTextFields) :
    Tells (setItem d key v) r := by
  have h_host : "host" ≠ key := by
    rintro rfl
    exact absurd h_key (by decide)
  have h_status : "status" ≠ key := by
    rintro rfl
    exact absurd h_key (by decide)
  exact ⟨(lookup_setItem_ne h_host v).trans h.host, (lookup_setItem_ne h_status v).trans h.status⟩

theorem Tells.setTexts (h : Tells d r) {keys : List String} (h_keys : keys ⊆ hostTextFields) :
    Tells (keys.foldl (fun d k => Ansible.setItem d k (f (getText d k))) d) r := by
  induction keys generalizing d with
  | nil => exact h
  | cons key keys ih =>
    obtain ⟨h_key, h_rest⟩ := List.cons_subset.mp h_keys
    exact ih (h.setItem h_key) h_rest

theorem carries_mapHosts (h : Carries v rs) : Carries (mapHosts f v) rs := by
  cases h with
  | text s => exact .text s
  | @hosts ds _ h h_rs =>
    have h_map : mapHosts f (.list (ds.map .dict)) = .list ((ds.map fun item =>
        hostTextFields.foldl (fun d k => setItem d k (f (getText d k))) item).map .dict) := by
      show Value.list ((ds.map Value.dict).map _) = _
      rw [List.map_map, List.map_map]
      rfl
    rw [h_map]
    refine .hosts (List.forall₂_map_left_iff.mpr (h.imp fun d r h_d => ?_)) h_rs
    exact h_d.setTexts (List.Subset.refl _)

theorem Carries.mem_keys (h : Carries (Value.lookup d "result") rs) :
    "result" ∈ d.map (·.1) := by
  by_contra h_mem
  have h_null : Value.lookup d "result" = .null := by
    have h_nil := lookup_append_of_not_mem h_mem []
    rwa [List.append_nil] at h_nil
  rw [h_null] at h
  cases h

/-- **The payload of the callback** carries what is reported, however far it is compacted. -/
theorem carries_compact (env : Env) (h : Carries (Value.lookup d "result") rs) :
    Carries (Value.lookup (compactCallbackPayload env d) "result") rs := by
  have h_dropped :
      Carries (Value.lookup (mapItem d "result_summary" dropCombined) "result") rs := by
    rwa [lookup_mapItem_ne (by decide)]
  have h_shortened : Carries (Value.lookup
      (shortenTexts (mapItem d "result_summary" dropCombined)) "result") rs := by
    unfold shortenTexts
    rw [lookup_setItem_ne (by decide), lookup_mapItem_self h_dropped.mem_keys]
    generalize Value.lookup _ "result" = v at h_dropped
    cases h_dropped with
    | text s =>
      show Carries (truncateCallbackText (.str s)) []
      unfold truncateCallbackText
      dsimp only
      split_ifs
      · exact .text _
      · exact .text _
    | hosts h h_rs => exact carries_mapHosts (.hosts h h_rs)
  unfold compactCallbackPayload
  dsimp only
  split_ifs
  · exact h
  · exact h_dropped
  · exact h_shortened
  · unfold dropTexts
    rw [lookup_setItem_ne (by decide), lookup_mapItem_ne (by decide),
      lookup_mapItem_self h_shortened.mem_keys]
    generalize Value.lookup _ "result" = v at h_shortened
    cases h_shortened with
    | text s => exact .text _
    | hosts h h_rs => exact carries_mapHosts (.hosts h h_rs)

end Payload

end Output
end Ansible

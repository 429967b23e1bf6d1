import BkLite.Framework.Once
import BkLite.JobMgmt.Executions

/-!
# The completion callback of an execution

`finalize_execution`, `ansible_task_callback` and `finalize_cancelling_execution` each update results
and counts, save a terminal status and send the callback. The other ways to a terminal status send
none, and two of the three may meet on one execution. `Clean` says that a step does neither, and
that it leaves no target out; along clean runs the one callback is true (`reported_of_clean`).
-/

namespace JobMgmt

open Tasks Runs

/-! ### True figures -/

structure Entry (r : Result) (t : Target) : Prop where
  key : r.targetKey = t.key ∨ r.targetKey = t.id
  name : r.name = t.name
  ip : r.ip = t.ip

def Covers (targets : List Target) (results : List Result) : Prop :=
  ∃ ts : List Target, ts.Perm targets ∧ List.Forall₂ Entry results ts

/-- The counts are those of the results, which have one entry for each target. -/
structure Figured (job : Job) (row : Row) : Prop where
  successCount : row.successCount = successCount row.executionResults
  failedCount : row.failedCount = failedCount row.executionResults
  covers : Covers job.targetList row.executionResults

/-- A payload says what the row holds. -/
structure Payload.Accurate (job : Job) (payload : Payload) (row : Row) : Prop where
  status : payload.status = row.status
  successCount : payload.successCount = JobMgmt.successCount row.executionResults
  failedCount : payload.failedCount = JobMgmt.failedCount row.executionResults
  covers : Covers job.targetList row.executionResults

/-- `do_callback_task`. -/
def Message.isWeb : Message → Bool
  | .web _ _ => true
  | _ => false

abbrev Bound (t : Work) : Prop := t.Sends Message.isWeb

def Execution.callbacks (s : Execution) : List Message := s.sent.filter Message.isWeb

/-- An execution that is over has sent exactly one callback, with true figures. -/
def Reported (job : Job) (s : Execution) : Prop :=
  s.row.status.Terminal → (∀ t ∈ s.tasks, ¬Bound t) →
    ∃ payload, s.callbacks = [.web job.callbackUrl payload] ∧ payload.Accurate job s.row

/-! ### Clean steps -/

/-- The access ends the execution, or writes its results or counts. -/
def Op.Closes (row : Row) : Op → Prop
  | .saveStatus status => status.Terminal
  | .compareAndSet expected status => row.status = expected ∧ status.Terminal
  | .saveResults _ => True
  | .updateCounts => True
  | .saveFigures _ => True
  | .saveAll _ _ _ _ => True
  | _ => False

/-- Clean steps: ids differ, nothing is looked at after a cancellation, and one task gets bound. -/
structure Clean (job : Job) (s : Execution) (e : ExecutionEvent) : Prop where
  distinct : ∀ data, e = .start (.callback data) → (job.targetList.map Target.id).Nodup
  whole : ∀ i ans left next, e = .step i ans →
    s.tasks[i]? = some (.access (.isCancelled (.batch left)) next) → left ≠ 0 →
    ¬s.row.status.Cancels
  started : ∀ i ans status next, e = .step i ans →
    s.tasks[i]? = some (.access (.compareAndSet .pending status) next) → s.row.status ≠ .pending
  closes : ∀ i ans op next, e = .step i ans → s.tasks[i]? = some (.access op next) →
    op.Closes s.row → Bound (next s.row)
  single : ∀ i ans t t', e = .step i ans → s.tasks[i]? = some t →
    (step job s e).tasks[i]? = some t' → ¬Bound t → Bound t' →
    s.callbacks = [] ∧ ∀ u ∈ s.tasks, ¬Bound u

/-! ### The notice -/

/-- What the others may do: make the status one that is not terminal. -/
structure Keeps (row row' : Row) : Prop where
  executionResults : row'.executionResults = row.executionResults
  successCount : row'.successCount = row.successCount
  failedCount : row'.failedCount = row.failedCount
  status : row'.status = row.status ∨ ¬row'.status.Terminal

theorem Keeps.figured {job : Job} {row row' : Row} (h : Keeps row row') (h_row : Figured job row) :
    Figured job row' := by
  obtain ⟨h_results, h_success, h_failed, -⟩ := h
  refine ⟨?_, ?_, ?_⟩
  · rw [h_success, h_results, h_row.successCount]
  · rw [h_failed, h_results, h_row.failedCount]
  · rw [h_results]
    exact h_row.covers

theorem Keeps.terminal {row row' : Row} (h : Keeps row row') (h_terminal : row'.status.Terminal) :
    row'.status = row.status :=
  h.status.resolve_right fun h_not => h_not h_terminal

theorem keeps_apply {op : Op} {row : Row} (h : ¬op.Closes row) : Keeps row (op.apply row) := by
  cases op with
  | saveStatus status => exact ⟨rfl, rfl, rfl, .inr h⟩
  | compareAndSet expected status =>
    rw [Op.apply]
    split_ifs with h_hit
    · exact ⟨rfl, rfl, rfl, .inr fun h_terminal => h ⟨h_hit, h_terminal⟩⟩
    · exact ⟨rfl, rfl, rfl, .inl rfl⟩
  | get => exact ⟨rfl, rfl, rfl, .inl rfl⟩
  | isCancelled check => exact ⟨rfl, rfl, rfl, .inl rfl⟩
  | touch => exact ⟨rfl, rfl, rfl, .inl rfl⟩
  | _ => exact absurd trivial h

def notice (job : Job) : Notice Op Row Message (system job).apply where
  final := Message.isWeb
  Closes op row := op.Closes row
  Allowed op row :=
    (∀ left, op = .isCancelled (.batch left) → left ≠ 0 → ¬row.status.Cancels) ∧
      ∀ status, op = .compareAndSet .pending status → row.status ≠ .pending
  Keeps := Keeps
  Open row := ¬row.status.Terminal ∧ row.executionResults = []
  Good m row := row.status.Terminal →
    ∃ payload, m = .web job.callbackUrl payload ∧ payload.Accurate job row
  keeps_refl _ := ⟨rfl, rfl, rfl, .inl rfl⟩
  keeps_trans row row' row'' h h' := by
    refine ⟨h'.1.trans h.1, h'.2.trans h.2, h'.3.trans h.3, ?_⟩
    obtain h_eq | h_not := h'.status
    · rw [h_eq]
      exact h.status
    · exact .inr h_not
  keeps_apply _ _ := keeps_apply
  open_keeps row row' h h_keeps := by
    refine ⟨fun h_terminal => h.1 ?_, h_keeps.executionResults.trans h.2⟩
    rwa [h_keeps.terminal h_terminal] at h_terminal
  good_keeps m row row' h h_keeps := by
    intro h_terminal
    have h_status := h_keeps.terminal h_terminal
    obtain ⟨payload, rfl, h_accurate⟩ := h (h_status ▸ h_terminal)
    refine ⟨payload, rfl, ?_⟩
    obtain ⟨h_1, h_2, h_3, h_4⟩ := h_accurate
    rw [← h_status] at h_1
    rw [← h_keeps.executionResults] at h_2 h_3 h_4
    exact ⟨h_1, h_2, h_3, h_4⟩

theorem Clean.orderly {job : Job} {s : Execution} {e : ExecutionEvent} (h : Clean job s e)
    (h_start : ∀ request, e = .start request → (notice job).Unbound ((system job).task request)) :
    (notice job).Orderly (S := system job) s e where
  starts := h_start
  allowed := by
    intro i ans op next h_e h_i
    refine ⟨?_, ?_⟩
    · rintro left rfl
      exact h.whole i ans left next h_e h_i
    · rintro status rfl
      exact h.started i ans status next h_e h_i
  closes := h.closes
  single := h.single

/-! ### Entries -/

section Entries

variable {targets targets' : List Target} {results results' : List Result} {t : Target}

theorem covers_perm (h : Covers targets results) (h_targets : targets.Perm targets')
    (h_results : results'.Perm results) : Covers targets' results' := by
  obtain ⟨ts, h_ts, h_entries⟩ := h
  obtain ⟨ts', h_entries', h_ts'⟩ := List.perm_comp_forall₂ h_results h_entries
  exact ⟨ts', (h_ts'.trans h_ts).trans h_targets, h_entries'⟩

theorem covers_append (h : Covers targets results) (h' : Covers targets' results') :
    Covers (targets ++ targets') (results ++ results') := by
  obtain ⟨ts, h_ts, h_entries⟩ := h
  obtain ⟨ts', h_ts', h_entries'⟩ := h'
  exact ⟨ts ++ ts', h_ts.append h_ts', List.rel_append h_entries h_entries'⟩

theorem covers_singleton {r : Result} (h : Entry r t) : Covers [t] [r] :=
  ⟨[t], .refl _, .cons h .nil⟩

theorem covers_nil : Covers [] [] := ⟨[], .refl _, .nil⟩

theorem covers_map {f : Target → Result} (h : ∀ t, Entry (f t) t) :
    Covers targets (targets.map f) :=
  ⟨targets, .refl _, List.forall₂_map_left_iff.mpr (List.forall₂_same.mpr fun t _ => h t)⟩

end Entries

/-! ### Bound tasks -/

section Bound

variable {job : Job} {row : Row}

/-- The web channel is used, and there is an address. -/
structure Job.Web (job : Job) : Prop where
  callbackType : job.callbackType ≠ .nats
  callbackUrl : job.callbackUrl ≠ ""

theorem sendCallback_eq (h_web : job.Web) (execution : Row) : sendCallback job execution =
    .send (.web job.callbackUrl (job.payload execution))
      (if job.callbackType = .web then .done else sendNatsCallback job execution) := by
  rw [sendCallback]
  exact if_neg (not_or.mpr ⟨h_web.callbackType, h_web.callbackUrl⟩)

theorem bound_sendCallback (h_web : job.Web) {execution : Row} :
    Bound (sendCallback job execution) := by
  rw [sendCallback_eq h_web]
  exact .inl rfl

theorem not_bound_sendNats {execution : Row} :
    ¬Bound (if job.callbackType = .web then .done else sendNatsCallback job execution) := by
  rw [sendNatsCallback]
  split_ifs
  · exact id
  · exact id
  · rintro (h_final | h_done)
    · exact absurd h_final Bool.false_ne_true
    · exact h_done

theorem ensures_sendCallback (h_web : job.Web) {execution : Row}
    (h : row.status.Terminal → (job.payload execution).Accurate job row) :
    (notice job).Ensures (sendCallback job execution) row := by
  rw [sendCallback_eq h_web]
  refine ⟨fun _ => ⟨fun h_terminal => ⟨_, rfl, h h_terminal⟩, not_bound_sendNats⟩, ?_⟩
  exact fun h_not => absurd (show true = false from h_not) Bool.noConfusion

theorem ensures_getSend (h_web : job.Web) (h : row.status.Terminal → Figured job row) :
    (notice job).Ensures (.access .get (sendCallback job)) row := by
  intro row' h_keeps _
  refine ensures_sendCallback h_web fun h_terminal => ?_
  have h_status : row'.status = row.status := Keeps.terminal h_keeps h_terminal
  obtain ⟨h_success, h_failed, h_covers⟩ :=
    Keeps.figured h_keeps (h (h_status ▸ h_terminal))
  exact ⟨rfl, h_success, h_failed, h_covers⟩

theorem bound_getSend (h_web : job.Web) : Bound (.access .get (sendCallback job)) :=
  fun _ => bound_sendCallback h_web

theorem figured_updateCounts {results : List Result} (h_covers : Covers job.targetList results)
    (h_row : row.executionResults = results) : Figured job (Op.updateCounts.apply row) := by
  refine ⟨rfl, rfl, ?_⟩
  show Covers job.targetList row.executionResults
  rwa [h_row]

theorem figured_saveStatus {status : Status} (h : Figured job row) :
    Figured job ((Op.saveStatus status).apply row) := ⟨h.1, h.2, h.3⟩

theorem ensures_finalizeExecution (h_web : job.Web) {results : List Result}
    (h_covers : Covers job.targetList results) :
    (notice job).Ensures (finalizeExecution job results) row := by
  -- the rest after the results, for either status
  have h_rest : ∀ (row : Row) (status : Row → Status), row.executionResults = results →
      (notice job).Ensures (.access .updateCounts fun locked =>
        .access (.saveStatus (status locked)) fun _ => .access .get (sendCallback job)) row := by
    intro row status h_row row₁ h_keeps₁ _ row₂ h_keeps₂ _
    have h_results : row₁.executionResults = results := h_keeps₁.executionResults.trans h_row
    have h_figured : Figured job row₂ :=
      Keeps.figured h_keeps₂ (figured_updateCounts h_covers h_results)
    exact ensures_getSend h_web fun _ => figured_saveStatus h_figured
  intro row₁ _ _ row₂ h_keeps₂ _
  have h_results : row₂.executionResults = results := h_keeps₂.executionResults
  dsimp only
  split_ifs
  · exact h_rest row₂ (fun _ => .cancelled) h_results
  · exact h_rest row₂ _ h_results

theorem bound_finalizeExecution (h_web : job.Web) {results : List Result} :
    Bound (finalizeExecution job results) := by
  intro _ execution
  dsimp only
  split_ifs
  · exact fun _ _ => bound_getSend h_web
  · exact fun _ _ => bound_getSend h_web

/-- The work on one target, whatever comes of it, goes on with an entry of it. -/
structure Works (job : Job) (work : Target → (Result → Work) → Work) : Prop where
  bound : ∀ t next, (∀ result, Bound (next result)) → Bound (work t next)
  ensures : ∀ t next row, (∀ result, Entry result t → (notice job).Ensures (next result) row) →
    (notice job).Ensures (work t next) row

variable {work : Target → (Result → Work) → Work}

theorem bound_runBatch (h_work : Works job work) {targets : List Target} {results : List Result}
    {next : List Result → Work} (h : ∀ results, Bound (next results)) :
    Bound (runBatch work targets results next) := by
  induction targets generalizing results with
  | nil => exact h results
  | cons t ts ih => exact h_work.bound t _ fun _ => ih

theorem ensures_runBatch (h_work : Works job work) {targets done : List Target}
    {results : List Result} {next : List Result → Work} (h_results : Covers done results)
    (h : ∀ results, Covers (done ++ targets) results → (notice job).Ensures (next results) row) :
    (notice job).Ensures (runBatch work targets results next) row := by
  induction targets generalizing results done with
  | nil =>
    rw [List.append_nil] at h
    exact h results h_results
  | cons t ts ih =>
    refine h_work.ensures t _ row fun result h_entry => ?_
    refine ih (covers_append h_results (covers_singleton h_entry)) fun results h_all => h results ?_
    rwa [List.append_assoc, List.singleton_append] at h_all

theorem bound_runBatches (h_web : job.Web) (h_work : Works job work)
    {batches : List (List Target)} {results : List Result} :
    Bound (runBatches job work batches results) := by
  induction batches generalizing results with
  | nil => exact bound_finalizeExecution h_web
  | cons batch batches ih =>
    intro looking
    refine bound_runBatch h_work fun ended completed execution => ?_
    dsimp only
    split_ifs
    · exact bound_finalizeExecution h_web
    · exact ih

/-- **The batches.** As no cancellation is seen between two of them, each target gets its entry. -/
theorem ensures_runBatches (h_web : job.Web) (h_work : Works job work)
    {batches : List (List Target)} {done : List Target} {results : List Result}
    (h_results : Covers done results) (h_all : (done ++ batches.flatten).Perm job.targetList) :
    (notice job).Ensures (runBatches job work batches results) row := by
  induction batches generalizing done results row with
  | nil =>
    rw [List.flatten_nil, List.append_nil] at h_all
    exact ensures_finalizeExecution h_web (covers_perm h_results h_all (.refl _))
  | cons batch batches ih =>
    intro looking
    refine ensures_runBatch h_work covers_nil fun ended h_ended completed row' _ h_allowed => ?_
    have h_batch : Covers batch (arrange completed.order ended) :=
      covers_perm h_ended arrange_perm arrange_perm
    have h_so_far := covers_append h_results h_batch
    have h_left : ((done ++ batch) ++ batches.flatten).Perm job.targetList := by
      rwa [List.append_assoc, ← List.flatten_cons]
    dsimp only
    split_ifs with h_cancels
    · -- nothing is left, or this was not to be seen
      have h_none : batches.flatten = [] := by
        by_contra h_some
        exact h_allowed.1 _ rfl (fun h_zero => h_some (List.length_eq_zero_iff.mp h_zero)) h_cancels
      rw [h_none, List.append_nil] at h_left
      exact ensures_finalizeExecution h_web (covers_perm h_so_far h_left (.refl _))
    · exact ih h_so_far h_left

theorem works_executeScriptOnTarget : Works job executeScriptOnTarget where
  bound t next h := by
    intro execution
    dsimp only
    split_ifs
    · exact h _
    · exact fun answer => h _
  ensures t next row h := by
    intro row' h_keeps _
    dsimp only
    split_ifs
    · exact (h _ ⟨.inl rfl, rfl, rfl⟩).keeps h_keeps
    · exact fun answer => (h _ ⟨.inl rfl, rfl, rfl⟩).keeps h_keeps

theorem works_distributeFileToTarget : Works job (distributeFileToTarget job) where
  bound t next h := by
    have h_files : ∀ files errors, Bound (distributeFiles job t next files errors) := by
      intro files
      induction files with
      | nil => exact fun errors => h _
      | cons file files ih =>
        intro errors execution
        dsimp only
        split_ifs
        · exact h _
        · exact fun answer => ih _
    intro execution
    dsimp only
    split_ifs
    · exact h _
    · exact h_files _ _
  ensures t next row h := by
    have h_files : ∀ files errors row, (∀ result, Entry result t →
        (notice job).Ensures (next result) row) →
        (notice job).Ensures (distributeFiles job t next files errors) row := by
      intro files
      induction files with
      | nil => exact fun errors row h => h _ ⟨.inl rfl, rfl, rfl⟩
      | cons file files ih =>
        intro errors row h row' h_keeps _
        dsimp only
        split_ifs
        · exact (h _ ⟨.inl rfl, rfl, rfl⟩).keeps h_keeps
        · exact fun answer => ih _ row' fun result h_entry => (h result h_entry).keeps h_keeps
    intro row' h_keeps _
    dsimp only
    split_ifs
    · exact (h _ ⟨.inl rfl, rfl, rfl⟩).keeps h_keeps
    · exact h_files _ _ row' fun result h_entry => (h result h_entry).keeps h_keeps

theorem batches_flatten : job.batches.flatten = job.targetList :=
  Batches.chunks_flatten (Nat.lt_of_lt_of_le Nat.zero_lt_one (Nat.le_max_left _ _)) _

theorem ready_runBatches (h_web : job.Web) (h_work : Works job work) :
    (notice job).Ready (S := system job) (runBatches job work job.batches []) := by
  refine .inl ⟨bound_runBatches h_web h_work, fun row _ => ?_⟩
  refine ensures_runBatches h_web h_work covers_nil ?_
  rw [List.nil_append, batches_flatten]

end Bound

/-! ### The entries of a callback -/

section Callback

variable {targets : List Target} {hosts : List HostResult} {results results' : List Result}

/-- The entries made so far, and the targets that they are of. -/
structure Matched (targets : List Target) (results : List Result) (ts : List Target) : Prop where
  entries : List.Forall₂ Entry results ts
  keys : results.map (·.targetKey) = ts.map Target.id
  subset : ∀ t ∈ ts, t ∈ targets
  nodup : (ts.map Target.id).Nodup
  statuses : ∀ r ∈ results, r.status = .success ∨ r.status = .failed

theorem matched_nil : Matched targets [] [] :=
  ⟨.nil, rfl, fun _ h => absurd h List.not_mem_nil, List.nodup_nil,
    fun _ h => absurd h List.not_mem_nil⟩

theorem mem_of_targetOf {host : String} {t : Target} (h : targetOf targets host = some t) :
    t ∈ targets :=
  List.mem_reverse.mp (List.mem_of_find?_eq_some h)

theorem matched_matchHosts {ts : List Target} (h : Matched targets results ts)
    (h_ok : matchHosts targets hosts results = .ok results') :
    ∃ ts', Matched targets results' ts' := by
  induction hosts generalizing results ts with
  | nil =>
    obtain rfl : results = results' := Except.ok.inj h_ok
    exact ⟨ts, h⟩
  | cons host hosts ih =>
    rw [matchHosts] at h_ok
    cases h_target : targetOf targets host.host with
    | none =>
      rw [h_target] at h_ok
      exact absurd h_ok nofun
    | some t =>
      rw [h_target] at h_ok
      dsimp only at h_ok
      by_cases h_seen : t.id ∈ results.map (·.targetKey)
      · rw [if_pos h_seen] at h_ok
        exact absurd h_ok nofun
      rw [if_neg h_seen] at h_ok
      refine ih (?_ : Matched targets _ (ts ++ [t])) h_ok
      refine ⟨?_, ?_, ?_, ?_, ?_⟩
      · exact List.rel_append h.entries (.cons ⟨.inr rfl, rfl, rfl⟩ .nil)
      · rw [List.map_append, List.map_append, h.keys]
        rfl
      · intro u h_u
        obtain h_old | h_new := List.mem_append.mp h_u
        · exact h.subset u h_old
        · rw [List.mem_singleton.mp h_new]
          exact mem_of_targetOf h_target
      · rw [List.map_append, List.nodup_append]
        refine ⟨h.nodup, List.nodup_singleton _, fun x h_x y h_y h_eq => ?_⟩
        rw [List.map_singleton, List.mem_singleton] at h_y
        rw [h.keys] at h_seen
        exact h_seen (h_y ▸ h_eq ▸ h_x)
      · intro r h_r
        obtain h_old | h_new := List.mem_append.mp h_r
        · exact h.statuses r h_old
        · rw [List.mem_singleton.mp h_new]
          dsimp only
          split_ifs
          · exact .inl rfl
          · exact .inr rfl

theorem perm_append_filter {ts : List Target} (h_ids : (targets.map Target.id).Nodup)
    (h : Matched targets results ts) :
    (ts ++ targets.filter (·.id ∉ results.map (·.targetKey))).Perm targets := by
  have h_targets : targets.Nodup := List.Nodup.of_map _ h_ids
  have h_ts : ts.Nodup := List.Nodup.of_map _ h.nodup
  -- with different ids, a target has an entry exactly if it is one of the matched
  have h_mem : ∀ t ∈ targets, (t.id ∈ results.map (·.targetKey) ↔ t ∈ ts) := by
    intro t h_t
    rw [h.keys]
    refine ⟨fun h_id => ?_, fun h_t => List.mem_map_of_mem h_t⟩
    obtain ⟨u, h_u, h_eq⟩ := List.mem_map.mp h_id
    rwa [← List.inj_on_of_nodup_map h_ids (h.subset u h_u) h_t h_eq]
  refine (List.perm_ext_iff_of_nodup ?_ h_targets).mpr fun t => ?_
  · refine h_ts.append (h_targets.filter _) fun t h_t h_filter => ?_
    obtain ⟨h_target, h_not⟩ := List.mem_filter.mp h_filter
    exact of_decide_eq_true h_not ((h_mem t h_target).mpr h_t)
  · rw [List.mem_append, List.mem_filter, decide_eq_true_iff]
    constructor
    · rintro (h_t | ⟨h_t, -⟩)
      · exact h.subset t h_t
      · exact h_t
    · intro h_t
      by_cases h_in : t ∈ ts
      · exact .inl h_in
      · exact .inr ⟨h_t, fun h_id => h_in ((h_mem t h_t).mp h_id)⟩

theorem covers_fillMissing (error : String) {ts : List Target}
    (h_ids : (targets.map Target.id).Nodup) (h : Matched targets results ts) :
    Covers targets (fillMissing targets error results) ∧
      ∀ r ∈ fillMissing targets error results, r.status = .success ∨ r.status = .failed := by
  rw [fillMissing]
  by_cases h_length : results.length < targets.length
  · rw [if_pos h_length]
    refine ⟨⟨_, perm_append_filter h_ids h, ?_⟩, fun r h_r => ?_⟩
    · refine List.rel_append h.entries (List.forall₂_map_left_iff.mpr ?_)
      exact List.forall₂_same.mpr fun t _ => ⟨.inr rfl, rfl, rfl⟩
    · obtain h_old | h_new := List.mem_append.mp h_r
      · exact h.statuses r h_old
      · obtain ⟨t, -, rfl⟩ := List.mem_map.mp h_new
        exact .inr rfl
  · rw [if_neg h_length]
    have h_ts : ts.Nodup := List.Nodup.of_map _ h.nodup
    have h_perm : ts.Perm targets := by
      refine (List.subperm_of_subset h_ts h.subset).perm_of_length_le ?_
      rw [← h.entries.length_eq]
      exact Nat.le_of_not_lt h_length
    exact ⟨⟨ts, h_perm, h.entries⟩, h.statuses⟩

theorem failedCount_eq (h : ∀ r ∈ results, r.status = .success ∨ r.status = .failed) :
    failedCount results = results.countP (·.status = .failed) := by
  refine List.countP_congr fun r h_r => ?_
  obtain h_status | h_status := h r h_r
  · simp [h_status]
  · simp [h_status]

end Callback

/-! ### The tasks -/

section Ready

variable {job : Job} {next : Work}

abbrev Ready (job : Job) (t : Work) : Prop := (notice job).Ready (S := system job) t

theorem ready_op {op : Op} {next : Row → Work} (h_op : ∀ row, ¬op.Closes row)
    (h : ∀ row, Ready job (next row)) : Ready job (.access op next) :=
  Notice.ready_keep (fun row _ => h_op row) fun row _ => h row

theorem ready_closing {op : Op} (h_op : ∀ row, op.Closes row) (h : ¬Bound next) :
    Ready job (.access op fun _ => next) :=
  Notice.ready_close h_op fun _ => h

theorem closes_saveStatus {status : Status} (h : status.Terminal) (row : Row) :
    (Op.saveStatus status).Closes row := h

theorem not_closes_running (row : Row) : ¬(Op.saveStatus .running).Closes row := by
  show ¬Status.Terminal .running
  decide

theorem not_bound_access {op : Op} (h : ¬Bound next) : ¬Bound (.access op fun _ => next) :=
  fun h_all => h (h_all ⟨.pending, [], 0, 0⟩)

theorem ready_failTargets {errorMessage : String} : Ready job (failTargets job errorMessage) :=
  ready_closing (closes_saveStatus (by decide)) (not_bound_access id)

theorem ready_prepareExecution (h : Ready job next) : Ready job (prepareExecution job next) := by
  refine ready_op (fun _ => id) fun execution => ?_
  split_ifs
  · exact Notice.ready_done
  · exact ready_op not_closes_running fun _ => ready_closing (closes_saveStatus (by decide)) id
  · exact ready_op not_closes_running fun _ => h

theorem ready_shouldUseAnsible {next : Bool → Work} (h : ∀ ansible, Ready job (next ansible)) :
    Ready job (shouldUseAnsible job next) := by
  rw [shouldUseAnsible]
  split_ifs
  · exact Notice.ready_ask fun answer => h _
  · exact h _

theorem ready_submit {errorMessage : String → String} {answer : Answer} (h : Ready job next) :
    Ready job (match answer.error with
      | some e => failTargets job (errorMessage e)
      | none => next) := by
  cases answer.error with
  | none => exact h
  | some e => exact ready_failTargets

theorem ready_runViaAnsibleOrSidecar (h_web : job.Web) :
    Ready job (runViaAnsibleOrSidecar job) := by
  refine ready_shouldUseAnsible fun ansible => ?_
  split_ifs
  · exact Notice.ready_ask fun answer => ready_submit Notice.ready_done
  · exact ready_runBatches h_web works_executeScriptOnTarget

theorem ready_runScript (h_web : job.Web) : Ready job (runScript job) := by
  refine ready_prepareExecution (Notice.ready_ask fun check => ?_)
  split_ifs
  · exact ready_failTargets
  · refine Notice.ready_ask fun windows => ?_
    split_ifs
    · refine ready_shouldUseAnsible fun ansible => ?_
      split_ifs
      · exact ready_runViaAnsibleOrSidecar h_web
      · exact ready_failTargets
    · exact ready_runViaAnsibleOrSidecar h_web
  · exact ready_runViaAnsibleOrSidecar h_web

theorem ready_runPlaybookViaAnsible : Ready job (runPlaybookViaAnsible job) := by
  refine ready_op (fun _ => id) fun execution => ?_
  split_ifs
  · exact ready_op (fun _ => id) fun _ => Notice.ready_done
  · refine Notice.ready_ask fun prepared => ready_submit (ready_op (fun _ => id) fun execution => ?_)
    split_ifs
    · exact ready_failTargets
    · exact Notice.ready_ask fun answer => ready_submit Notice.ready_done

theorem ready_runPlaybook : Ready job (runPlaybook job) := by
  refine ready_prepareExecution (Notice.ready_ask fun playbook => ?_)
  split_ifs
  · refine ready_shouldUseAnsible fun ansible => ?_
    split_ifs
    · exact ready_runPlaybookViaAnsible
    · exact ready_closing (fun _ => trivial) (not_bound_access id)
  · exact ready_closing (closes_saveStatus (by decide)) id

theorem ready_runFileDistribution (h_web : job.Web) : Ready job (runFileDistribution job) := by
  refine ready_prepareExecution (Notice.ready_ask fun check => ?_)
  split_ifs
  · exact ready_failTargets
  · exact ready_closing (closes_saveStatus (by decide)) id
  · exact ready_runBatches h_web works_distributeFileToTarget

private def cancelledRow : Row := ⟨.cancelled, [], 0, 0⟩

theorem not_bound_prepareExecution : ¬Bound (prepareExecution job next) :=
  fun h => h cancelledRow

theorem unbound_runJob (h_web : job.Web) :
    (notice job).Unbound (S := system job) (runJob job) := by
  rw [runJob]
  cases job.jobType with
  | script => exact (ready_runScript h_web).unbound not_bound_prepareExecution
  | fileDistribution => exact (ready_runFileDistribution h_web).unbound not_bound_prepareExecution
  | playbook => exact ready_runPlaybook.unbound not_bound_prepareExecution

theorem unbound_cancel : (notice job).Unbound (S := system job) cancel := by
  refine Notice.Ready.unbound (ready_op (fun _ => id) fun execution => ?_) fun h => h cancelledRow
  cases execution.status with
  | pending =>
    refine Notice.ready_access fun row _ h_allowed _ => .inr ?_
    exact Notice.ready_done.unbound id
  | running =>
    refine ready_op (fun _ h_closes => absurd h_closes.2 (by decide)) fun row => ?_
    split_ifs
    · exact Notice.ready_send rfl Notice.ready_done
    · exact Notice.ready_done
  | _ => exact Notice.ready_done

theorem unbound_jobTaskTerminate (h_web : job.Web) :
    (notice job).Unbound (S := system job) (jobTaskTerminate job) := by
  refine Notice.Ready.unbound (ready_op (fun _ => id) fun execution => ?_) fun h => h cancelledRow
  cases execution.status with
  | pending =>
    refine Notice.ready_access fun row _ h_allowed _ => .inr ?_
    rw [if_neg (h_allowed.2 _ rfl)]
    exact Notice.ready_done.unbound id
  | running =>
    refine Notice.ready_access fun row h_open _ _ => ?_
    split_ifs with h_running
    · -- the callback goes out for `cancelling`, so the execution does not end
      refine .inl ⟨.inr (bound_getSend h_web), fun h_final => absurd h_final Bool.false_ne_true,
        fun _ => ensures_getSend h_web fun h_terminal => ?_⟩
      have h_cancelling : ((Op.compareAndSet .running .cancelling).apply row).status =
          .cancelling := by
        rw [Op.apply, if_pos h_running]
      have h_here : Status.Terminal .cancelling := h_cancelling ▸ h_terminal
      exact absurd h_here (by decide)
    · exact .inr (Notice.ready_done.unbound id)
  | _ => exact Notice.ready_done

theorem unbound_finalizeCancelling (h_web : job.Web) :
    (notice job).Unbound (S := system job) (finalizeCancelling job) := by
  refine Notice.Ready.unbound (Notice.ready_access fun row h_open _ _ => ?_)
    fun h => h cancelledRow
  dsimp only
  split_ifs with h_cancelling
  · refine .inl ⟨fun _ _ => bound_sendCallback h_web, ?_⟩
    intro row' h_keeps _ row'' h_keeps' _
    have h_none : row'.executionResults = [] := by
      have h_same : ((Op.compareAndSet .cancelling .cancelled).apply row).executionResults =
          row.executionResults := by
        rw [Op.apply, if_pos h_cancelling]
      exact h_keeps.executionResults.trans (h_same.trans h_open.2)
    have h_status : row''.status.Terminal → row''.status = row'.status := Keeps.terminal h_keeps'
    refine ensures_sendCallback h_web fun h_terminal => ?_
    refine ⟨(h_status h_terminal).symm, rfl, rfl, ?_⟩
    show Covers job.targetList (row'.executionResults ++ _)
    rw [h_none]
    have h_all : job.targetList.filter (·.key ∉ ([] : List Result).map (·.targetKey)) =
        job.targetList := List.filter_eq_self.mpr fun t _ => by simp
    rw [h_all]
    exact covers_map fun t => ⟨.inl rfl, rfl, rfl⟩
  · exact .inr (Notice.ready_done.unbound id)

theorem ensures_saveAll (h_web : job.Web) {row : Row} {status : Status} {results : List Result}
    {success failed : ℕ} (h_success : success = successCount results)
    (h_failed : failed = failedCount results) (h_covers : Covers job.targetList results) :
    (notice job).Ensures (.access (.saveAll status results success failed) fun _ =>
      sendCallback job ⟨status, results, success, failed⟩) row := by
  intro row' _ _
  exact ensures_sendCallback h_web fun _ => ⟨rfl, h_success, h_failed, h_covers⟩

theorem ensures_failExecution (h_web : job.Web) {row : Row} {errorMessage : String} :
    (notice job).Ensures (failExecution job errorMessage) row := by
  refine ensures_saveAll h_web ?_ ?_ (covers_map fun t => ⟨.inr rfl, rfl, rfl⟩)
  · refine (List.countP_eq_zero.mpr fun r h_r => ?_).symm
    obtain ⟨t, -, rfl⟩ := List.mem_map.mp h_r
    simp
  · refine ((List.countP_eq_length.mpr fun r h_r => ?_).trans (List.length_map _)).symm
    obtain ⟨t, -, rfl⟩ := List.mem_map.mp h_r
    simp

theorem unbound_ansibleTaskCallback (h_web : job.Web)
    (h_ids : (job.targetList.map Target.id).Nodup) {data : CallbackData} :
    (notice job).Unbound (S := system job) (ansibleTaskCallback job data) := by
  refine Notice.Ready.unbound (ready_op (fun _ => id) fun execution => ?_) fun h => h cancelledRow
  have h_fail : ∀ errorMessage, Ready job (failExecution job errorMessage) := fun errorMessage =>
    .inl ⟨fun _ => bound_sendCallback h_web, fun row _ => ensures_failExecution h_web⟩
  by_cases h_terminal : execution.status.Terminal
  · rw [if_pos h_terminal]
    exact Notice.ready_done
  rw [if_neg h_terminal]
  cases data.result with
  | none => exact h_fail _
  | some hosts =>
    dsimp only
    cases h_match : matchHosts job.targetList hosts [] with
    | error errorMessage => exact h_fail _
    | ok results =>
      obtain ⟨ts, h_matched⟩ := matched_matchHosts matched_nil h_match
      obtain ⟨h_covers, h_statuses⟩ := covers_fillMissing data.error h_ids h_matched
      refine .inl ⟨fun _ => bound_sendCallback h_web, fun row _ => ?_⟩
      exact ensures_saveAll h_web rfl (failedCount_eq h_statuses).symm h_covers

end Ready

/-! ### Runs -/

section Runs

variable {job : Job} {s : Execution} {e : ExecutionEvent} {as : List ExecutionEvent}

theorem phase_step (h_web : job.Web) (h : (notice job).Phase s) (h_clean : Clean job s e) :
    (notice job).Phase (S := system job) (step job s e) := by
  refine Notice.phase_step ?_ h (h_clean.orderly ?_)
  · intro m request h_m
    cases m with
    | finalizeCancelling =>
      obtain rfl : Request.finalizeCancelling = request := Option.some.inj h_m
      exact unbound_finalizeCancelling h_web
    | _ => exact absurd h_m nofun
  · rintro request rfl
    cases request with
    | worker => exact unbound_runJob h_web
    | cancel => exact unbound_cancel
    | terminate => exact unbound_jobTaskTerminate h_web
    | callback data => exact unbound_ansibleTaskCallback h_web (h_clean.distinct data rfl)
    | finalizeCancelling => exact unbound_finalizeCancelling h_web

theorem reported_of_phase (h : (notice job).Phase (S := system job) s) : Reported job s := by
  intro h_terminal h_none
  cases h with
  | unbound h_sent h_open h_tasks => exact absurd h_terminal h_open.1
  | bound i t h_sent h_i h_sends h_ensures h_others =>
    exact absurd h_sends (h_none t (List.mem_of_getElem? h_i))
  | sent m h_sent h_good h_others =>
    obtain ⟨payload, rfl, h_accurate⟩ := h_good h_terminal
    exact ⟨payload, h_sent, h_accurate⟩

/-- **One completion callback, with true figures**, in every state of a clean run. -/
theorem reported_of_clean (h_web : job.Web)
    (h_clean : Along (step job) (fun s e _ => Clean job s e) .new as) :
    Always (step job) (Reported job) .new as := by
  have h_new : (notice job).Phase (S := system job) Execution.new :=
    .unbound rfl ⟨by decide, rfl⟩ fun _ h => absurd h List.not_mem_nil
  intro pre h_pre
  exact reported_of_phase
    (h_clean.always (fun _ _ h_here h_step => phase_step h_web h_here h_step) h_new pre h_pre)

end Runs

section Examples

private def agentJob : Job :=
  ⟨.script, .manual, [⟨"", some "1", "host", "10.0.0.1"⟩], 1, [], .web, "http://callback", "", 10, id⟩

private theorem agentJob_web : agentJob.Web := ⟨by decide, by decide⟩

private def rmForbidden : Answer := ⟨["rm"], true, none, [], .success, ""⟩

private def done : CallbackData := ⟨some [⟨"10.0.0.1", true, ""⟩], "", ""⟩

private def doneRun : List ExecutionEvent :=
  [.start (.callback done), .step 0 rmForbidden, .step 0 rmForbidden, .step 0 rmForbidden]

private theorem clean_of_singleton {job : Job} {s : Execution} {t : Work} {ans : Answer}
    (h_tasks : s.tasks = [t]) (h_sent : Bound t ∨ s.callbacks = [])
    (h_get : ∀ op next, t = .access op next →
      op = .get ∨ (∃ st rs m n, op = .saveAll st rs m n) ∧ Bound (next s.row)) :
    Clean job s (.step 0 ans) := by
  have h_at : ∀ (i : ℕ) (u : Work), s.tasks[i]? = some u → u = t := by
    intro i u h_u
    rw [h_tasks] at h_u
    exact List.mem_singleton.mp (List.mem_of_getElem? h_u)
  refine ⟨nofun, ?_, ?_, ?_, ?_⟩
  · intro i _ left next _ h_i
    obtain h_eq | ⟨⟨_, _, _, _, h_eq⟩, -⟩ := h_get _ next (h_at i _ h_i).symm
    · exact absurd h_eq nofun
    · exact absurd h_eq nofun
  · intro i _ status next _ h_i
    obtain h_eq | ⟨⟨_, _, _, _, h_eq⟩, -⟩ := h_get _ next (h_at i _ h_i).symm
    · exact absurd h_eq nofun
    · exact absurd h_eq nofun
  · intro i _ op next _ h_i h_closes
    obtain rfl | ⟨-, h_bound⟩ := h_get op next (h_at i _ h_i).symm
    · exact absurd h_closes id
    · exact h_bound
  · intro i _ u u' _ h_i _ h_unbound _
    obtain rfl := h_at i u h_i
    refine ⟨h_sent.resolve_left h_unbound, fun v h_v => ?_⟩
    rw [h_tasks] at h_v
    rwa [List.mem_singleton.mp h_v]

/-- A callback of the Ansible executor comes in, and the completion callback goes out. -/
theorem reported_done : Reported agentJob (run (step agentJob) .new doneRun) ∧
    (run (step agentJob) .new doneRun).row.status = .success := by
  have h_clean : Along (step agentJob) (fun s e _ => Clean agentJob s e) .new doneRun := by
    refine ⟨?_, ?_, ?_, ?_, trivial⟩
    · exact ⟨fun _ _ => by decide, nofun, nofun, nofun, nofun⟩
    · exact clean_of_singleton rfl (.inr rfl) fun op next h_eq => .inl (Task.access.inj h_eq).1.symm
    · refine clean_of_singleton rfl (.inr rfl) fun op next h_eq => .inr ?_
      obtain ⟨rfl, rfl⟩ := Task.access.inj h_eq
      exact ⟨⟨_, _, _, _, rfl⟩, bound_sendCallback agentJob_web⟩
    · exact clean_of_singleton rfl (.inr rfl) nofun
  exact ⟨(reported_of_clean agentJob_web h_clean).last, by decide⟩

private def forbiddenRun : List ExecutionEvent :=
  [.start .worker, .step 0 rmForbidden, .step 0 rmForbidden, .step 0 rmForbidden,
    .step 0 rmForbidden, .step 0 rmForbidden]

/-- **An end without a callback.** -/
theorem not_reported_forbidden : ¬∀ job as, job.jobType ≠ .fileDistribution → job.Web →
    Always (step job) (Reported job) .new as := by
  intro h_all
  have h := (h_all agentJob forbiddenRun (by decide) agentJob_web).last
  have h_tasks : (run (step agentJob) .new forbiddenRun).tasks = [.done] := rfl
  obtain ⟨payload, h_sent, -⟩ := h (by decide) fun t h_t => by
    rw [h_tasks] at h_t
    rw [List.mem_singleton.mp h_t]
    exact id
  exact List.cons_ne_nil _ _ h_sent.symm

end Examples

end JobMgmt

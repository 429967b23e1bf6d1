import BkLite.Framework.Cached
import BkLite.Framework.Runs
import BkLite.NodeMgmt.ConfigTemplate

/-!
# The cached configuration of a sidecar

A request for a configuration (`get_node_config`, `services/sidecar.py`) is answered 304 where its
ETag is the cached one and the configuration is bound to the node. Else the configuration is
rendered, with the environment of the cloud region through a cache of its own, and its ETag is
cached. Signals drop the ETag after a change has been committed (`signals.py`,
`services/sidecar_cache.py`). Every read, write and cache access, every signal handler and every
commit is a step of its own here.

One node and one configuration are followed, with the environments of all regions.
-/

namespace NodeMgmt.NodeConfig

open Runs Cached

variable {V Tag : Type*}

/-! ### The database -/

/-- The tables, as far as the configuration of the node is made of them. -/
structure Db (V : Type*) where
  bound : Bool
  node : Option Node
  configuration : Option (Configuration V)
  childConfigs : List (ChildConfig V)
  sectionHeaders : Text → SectionHeaders
  sidecarEnv : ℤ → List EnvRow

/-- The joined row of `get_bound_assignment_or_404`. -/
def Db.assignment (db : Db V) : Option (Node × Configuration V × SectionHeaders) :=
  match db.bound, db.node, db.configuration with
  | true, some node, some configuration =>
    some (node, configuration, db.sectionHeaders configuration.collectorId)
  | _, _, _ => none

def Db.configurationData (values : Values V) (db : Db V) : Option (ConfigurationData V) :=
  db.assignment.map fun (node, configuration, sectionHeaders) =>
    values.configurationData ⟨node, configuration, sectionHeaders, db.childConfigs⟩
      (db.sidecarEnv node.cloudRegionId)

inductive Change (V : Type*)
  -- `save` and `delete` of a `CollectorConfiguration`
  | configuration (value : Configuration V)
  | deleteConfiguration
  -- `save`, `delete` and `bulk_create` of the children
  | childConfigs (value : List (ChildConfig V))
  -- `save` of a child under another configuration
  | moveChild (value : List (ChildConfig V))
  -- `add`, `remove` and `clear` of `nodes`
  | add
  | remove
  | clear
  -- `bulk_create` of a configuration and its binding
  | batchCreate (value : Configuration V) (bind : Bool)
  -- `save`, `update` and `delete` of the `Node`
  | node (value : Node)
  | deleteNode
  -- `default_config` of a `Collector`
  | collector (collectorId : Text) (sectionHeaders : SectionHeaders)
  -- `save`, `delete` and `bulk_create` of `SidecarEnv`
  | sidecarEnv (cloudRegionId : ℤ) (envRows : List EnvRow)
deriving DecidableEq

def Change.apply (db : Db V) : Change V → Db V
  | .configuration value => { db with configuration := some value }
  | .deleteConfiguration => { db with configuration := none, childConfigs := [], bound := false }
  | .childConfigs value | .moveChild value =>
    if db.configuration.isSome then { db with childConfigs := value } else db
  | .add => { db with bound := db.bound || (db.node.isSome && db.configuration.isSome) }
  | .remove | .clear => { db with bound := false }
  | .batchCreate value bind =>
    if db.configuration.isSome then db
    else { db with configuration := some value, bound := bind && db.node.isSome }
  | .node value => { db with node := some value }
  | .deleteNode => { db with node := none, bound := false }
  | .collector collectorId sectionHeaders =>
    { db with sectionHeaders := Function.update db.sectionHeaders collectorId sectionHeaders }
  | .sidecarEnv cloudRegionId envRows =>
    { db with sidecarEnv := Function.update db.sidecarEnv cloudRegionId envRows }

inductive Callback
  | none
  | etag
  | sidecarEnvCache (cloudRegionId : ℤ)
deriving DecidableEq, Repr

def Change.signal (db : Db V) : Change V → Callback
  | .configuration _ | .deleteConfiguration | .childConfigs _ | .clear =>
    if db.bound then .etag else .none
  | .add | .remove => .etag
  | .sidecarEnv cloudRegionId _ => .sidecarEnvCache cloudRegionId
  | .moveChild _ | .batchCreate _ _ | .node _ | .deleteNode | .collector _ _ => .none

/-! ### The parties -/

/-- A request, another request that reads the environment, or a change, and how far it has come. -/
inductive Party (V Tag : Type*)
  | request (ifNoneMatch : Option Tag)
  | matched (etag : Tag)
  | unmatched
  | absent
  | assigned (node : Node) (configuration : Configuration V) (sectionHeaders : SectionHeaders)
  | looking (cloudRegionId : ℤ) (inputs : Option (Inputs V))
  | missed (cloudRegionId : ℤ) (inputs : Option (Inputs V))
  | obtained (cloudRegionId : ℤ) (inputs : Option (Inputs V)) (envRows : List EnvRow)
  | rendered (data : ConfigurationData V)
  | responded (data : ConfigurationData V)
  | notModified (etag : Tag)
  | notFound (error : Text)
  | change (change : Change V)
  | signalled (change : Change V) (callback : Callback)
  | committed (callback : Callback)
  | finished
deriving DecidableEq

def render (values : Values V) (inputs : Option (Inputs V)) (envRows : List EnvRow) :
    Party V Tag :=
  match inputs with
  | none => .finished
  | some inputs => .rendered (values.configurationData inputs envRows)

abbrev EnvCache := ℤ → Option (List EnvRow)

def serve [DecidableEq Tag] (values : Values V) (etag : ConfigurationData V → Tag)
    (w : World (Db V) Tag) (env : EnvCache) :
    Party V Tag → World (Db V) Tag × EnvCache × Party V Tag
  | .request ifNoneMatch =>
    match w.cache with
    | none => (w, env, .unmatched)
    | some cached =>
      if ifNoneMatch = some cached then (w, env, .matched cached) else (w, env, .unmatched)
  -- `configuration_bound_to_node`
  | .matched cached => (w, env, if w.db.bound then .notModified cached else .absent)
  -- `get_bound_assignment_or_404`, and the children
  | .unmatched =>
    match w.db.assignment with
    | none => (w, env, .absent)
    | some (node, configuration, sectionHeaders) =>
      (w, env, .assigned node configuration sectionHeaders)
  | .assigned node configuration sectionHeaders =>
    (w, env,
      .looking node.cloudRegionId
        (some ⟨node, configuration, sectionHeaders, w.db.childConfigs⟩))
  -- `get_node_or_404`
  | .absent =>
    (w, env,
      .notFound (if w.db.node.isNone then "Node not found".toList
        else "Configuration not found".toList))
  -- `_get_cloud_region_env_rows`
  | .looking cloudRegionId inputs =>
    match env cloudRegionId with
    | none => (w, env, .missed cloudRegionId inputs)
    | some envRows => (w, env, render values inputs envRows)
  | .missed cloudRegionId inputs =>
    (w, env, .obtained cloudRegionId inputs (w.db.sidecarEnv cloudRegionId))
  | .obtained cloudRegionId inputs envRows =>
    (w, Function.update env cloudRegionId (some envRows), render values inputs envRows)
  | .rendered data => (w.fill (etag data), env, .responded data)
  -- a change
  | .change change => (w, env, .signalled change (change.signal w.db))
  | .signalled change callback => (w.change (change.apply w.db), env, .committed callback)
  | .committed .none => (w, env, .finished)
  | .committed .etag => (w.drop, env, .finished)
  | .committed (.sidecarEnvCache cloudRegionId) =>
    (w, Function.update env cloudRegionId none, .finished)
  | .responded data => (w, env, .responded data)
  | .notModified cached => (w, env, .notModified cached)
  | .notFound error => (w, env, .notFound error)
  | .finished => (w, env, .finished)

def Due : Party V Tag → Prop
  | .committed .etag => True
  | _ => False

/-- The party has not begun, or is done. -/
def Idle : Party V Tag → Prop
  | .request _ => True
  | .looking _ none => True
  | .change _ => True
  | .responded _ => True
  | .notModified _ => True
  | .notFound _ => True
  | .finished => True
  | _ => False

/-- The party has not begun. -/
def Initial : Party V Tag → Prop
  | .request _ => True
  | .looking _ none => True
  | .change _ => True
  | _ => False

structure State (V Tag : Type*) where
  world : World (Db V) Tag
  env : EnvCache
  parties : List (Party V Tag)

/-- A party makes a step, or one of the caches loses an entry to its timeout. -/
inductive Event
  | step (i : ℕ)
  | expire
  | expireEnv (cloudRegionId : ℤ)
deriving DecidableEq, Repr

def step [DecidableEq Tag] (values : Values V) (etag : ConfigurationData V → Tag)
    (s : State V Tag) : Event → State V Tag
  | .step i =>
    match s.parties[i]? with
    | none => s
    | some p =>
      let next := serve values etag s.world s.env p
      ⟨next.1, next.2.1, s.parties.set i next.2.2⟩
  | .expire => { s with world := s.world.drop }
  | .expireEnv cloudRegionId => { s with env := Function.update s.env cloudRegionId none }

def start (db : Db V) (parties : List (Party V Tag)) : State V Tag :=
  ⟨⟨db, none⟩, fun _ => none, parties⟩

/-! ### What is claimed, and when it is kept -/

def Right (values : Values V) (etag : ConfigurationData V → Tag) (db : Db V) (tag : Tag) : Prop :=
  db.bound = true → ∃ data, db.configurationData values = some data ∧ etag data = tag

/-- A request answered 304 has sent the ETag of what rendering now gives. -/
def Fresh [DecidableEq Tag] (values : Values V) (etag : ConfigurationData V → Tag)
    (s : State V Tag) : Prop :=
  ∀ i ifNoneMatch n tag, s.parties[i]? = some (.request ifNoneMatch) →
    (run (step values etag) s (List.replicate n (.step i))).parties[i]? = some (.notModified tag) →
    (∃ data, ifNoneMatch = some (etag data)) ∧
      ∀ data, ifNoneMatch = some (etag data) → s.world.db.configurationData values = some data

def State.Quiet (s : State V Tag) : Prop := ∀ p ∈ s.parties, Idle p

/-- What is cached meets no change. -/
def Undisturbed (values : Values V) (s : State V Tag) : Event → Prop
  | .step i =>
    match s.parties[i]? with
    | some (.rendered data) =>
      (s.world.db.bound = true → s.world.db.configurationData values = some data) ∨
        ∃ p ∈ s.parties, Due p
    | some (.signalled change callback) =>
      callback = .etag ∨ s.world.cache = none ∨ (change.apply s.world.db).bound = false ∨
        (s.world.db.bound = true ∧
          (change.apply s.world.db).configurationData values =
            s.world.db.configurationData values) ∨
        ∃ p ∈ s.parties, Due p
    | _ => True
  | .expire => True
  | .expireEnv _ => True

variable {values : Values V} {etag : ConfigurationData V → Tag} {s : State V Tag} {i : ℕ}
  {p : Party V Tag} {tag : Tag}

/-! ### The invariant -/

def Inv (values : Values V) (etag : ConfigurationData V → Tag) (s : State V Tag) : Prop :=
  Sound (Right values etag) Due s.parties s.world

theorem not_due_of_idle (h : Idle p) : ¬Due p := by
  cases p <;> first | exact id | exact absurd h id

theorem Right.of_eq {db db' : Db V} (h : Right values etag db tag) (h_bound : db.bound = true)
    (h_same : db'.configurationData values = db.configurationData values) :
    Right values etag db' tag := by
  intro _
  rw [h_same]
  exact h h_bound

/-- How a party comes to answer 304: the ETag has been cached, and the configuration bound. -/
def Answer (w : World (Db V) Tag) (p : Party V Tag) : Party V Tag → Prop
  | .request _ => False
  | .matched tag => p = .request (some tag) ∧ w.cache = some tag
  | .notModified tag => p = .notModified tag ∨ p = .matched tag ∧ w.db.bound = true
  | _ => True

theorem answer_render (w : World (Db V) Tag) (p : Party V Tag) (inputs : Option (Inputs V))
    (envRows : List EnvRow) : Answer w p (render values inputs envRows) := by
  cases inputs <;> trivial

variable [DecidableEq Tag]

theorem Inv.step (h : Inv values etag s) (event : Event) (h_event : Undisturbed values s event) :
    Inv values etag (step values etag s event) := by
  match event with
  | .expire => exact .of_none rfl
  | .expireEnv _ => exact h
  | .step i =>
    unfold NodeConfig.step
    unfold Undisturbed at h_event
    dsimp only at h_event ⊢
    match h_p : s.parties[i]? with
    | none => exact h
    | some p =>
      rw [h_p] at h_event
      match p with
      | .request ifNoneMatch =>
        match h_cache : s.world.cache with
        | none =>
          simp only [serve, h_cache]
          exact h.stay h_p id
        | some cached =>
          by_cases h_same : ifNoneMatch = some cached
          · simp only [serve, h_cache, if_pos h_same]
            exact h.stay h_p id
          · simp only [serve, h_cache, if_neg h_same]
            exact h.stay h_p id
      | .matched cached => exact h.stay h_p False.elim
      | .unmatched =>
        match h_assignment : s.world.db.assignment with
        | none =>
          simp only [serve, h_assignment]
          exact h.stay h_p id
        | some (node, configuration, sectionHeaders) =>
          simp only [serve, h_assignment]
          exact h.stay h_p id
      | .assigned .. => exact h.stay h_p id
      | .absent => exact h.stay h_p id
      | .looking cloudRegionId inputs =>
        match h_env : s.env cloudRegionId with
        | none =>
          simp only [serve, h_env]
          exact h.stay h_p id
        | some envRows =>
          simp only [serve, h_env]
          exact h.stay h_p False.elim
      | .missed .. => exact h.stay h_p id
      | .obtained .. => exact h.stay h_p False.elim
      | .rendered data =>
        refine (sound_fill_iff h_p id id (etag data)).mpr (h_event.imp_left ?_)
        intro h_read h_bound
        exact ⟨data, h_read h_bound, rfl⟩
      | .change change => exact h.stay h_p id
      | .signalled change callback =>
        by_cases h_etag : callback = .etag
        · subst h_etag
          exact .announce h_p trivial _
        · have h_due : ¬Due (.committed callback : Party V Tag) := by
            cases callback <;> first | exact id | exact absurd rfl h_etag
          refine (sound_silent_iff h_p id h_due _).mpr fun tag h_tag => ?_
          obtain h_etag' | h_none | h_unbound | ⟨h_bound, h_same⟩ | h_due := h_event
          · exact absurd h_etag' h_etag
          · rw [h_none] at h_tag
            cases h_tag
          · left
            intro h_bound
            rw [h_unbound] at h_bound
            cases h_bound
          · exact (h tag h_tag).imp_left fun h_right => h_right.of_eq h_bound h_same
          · exact .inr h_due
      | .committed .none => exact h.stay h_p id
      | .committed .etag => exact .drop
      | .committed (.sidecarEnvCache _) => exact h.stay h_p id
      | .responded data => exact h.stay h_p id
      | .notModified cached => exact h.stay h_p id
      | .notFound error => exact h.stay h_p id
      | .finished => exact h.stay h_p id

/-! ### A request that is answered alone -/

theorem answer_serve (w : World (Db V) Tag) (env : EnvCache) (p : Party V Tag) :
    Answer w p (serve values etag w env p).2.2 := by
  match p with
  | .request ifNoneMatch =>
    match h_cache : w.cache with
    | none =>
      simp only [serve, h_cache]
      trivial
    | some cached =>
      by_cases h_same : ifNoneMatch = some cached
      · simp only [serve, h_cache, if_pos h_same]
        exact ⟨congrArg Party.request h_same, h_cache⟩
      · simp only [serve, h_cache, if_neg h_same]
        trivial
  | .matched cached =>
    by_cases h_bound : w.db.bound = true
    · simp only [serve, if_pos h_bound]
      exact .inr ⟨rfl, h_bound⟩
    · simp only [serve, if_neg h_bound]
      trivial
  | .unmatched =>
    match h_assignment : w.db.assignment with
    | none =>
      simp only [serve, h_assignment]
      trivial
    | some _ =>
      simp only [serve, h_assignment]
      trivial
  | .looking cloudRegionId inputs =>
    match h_env : env cloudRegionId with
    | none =>
      simp only [serve, h_env]
      trivial
    | some envRows =>
      simp only [serve, h_env]
      exact answer_render w _ inputs envRows
  | .obtained cloudRegionId inputs envRows => exact answer_render w _ inputs envRows
  | .notModified cached => exact .inl rfl
  | .absent | .assigned .. | .missed .. | .rendered _ | .change _ | .signalled .. |
    .committed .none | .committed .etag | .committed (.sidecarEnvCache _) | .responded _ |
    .notFound _ | .finished => trivial

theorem step_alone (h_p : s.parties[i]? = some p) :
    (step values etag s (.step i)).parties[i]? = some (serve values etag s.world s.env p).2.2 := by
  obtain ⟨h_i, -⟩ := List.getElem?_eq_some_iff.mp h_p
  simp only [step, h_p]
  exact List.getElem?_set_self h_i

theorem world_step_request {ifNoneMatch : Option Tag}
    (h_p : s.parties[i]? = some (.request ifNoneMatch)) :
    (step values etag s (.step i)).world = s.world := by
  simp only [step, h_p, serve]
  split
  · rfl
  · split <;> rfl

/-- Where a request that is answered alone has come to in `n` steps. -/
def Stage (s : State V Tag) (ifNoneMatch : Option Tag) (n : ℕ) : Party V Tag → Prop
  | .request sent => n = 0 ∧ sent = ifNoneMatch
  | .matched tag => n = 1 ∧ ifNoneMatch = some tag ∧ s.world.cache = some tag
  | .notModified tag =>
    ifNoneMatch = some tag ∧ s.world.cache = some tag ∧ s.world.db.bound = true
  | _ => True

variable (values etag) in
theorem stage_alone {ifNoneMatch : Option Tag}
    (h_p : s.parties[i]? = some (.request ifNoneMatch)) (n : ℕ) :
    ∃ p, (run (step values etag) s (List.replicate n (.step i))).parties[i]? = some p ∧
      Stage s ifNoneMatch n p := by
  induction n with
  | zero => exact ⟨_, h_p, rfl, rfl⟩
  | succ n ih =>
    obtain ⟨p, h_get, h_stage⟩ := ih
    rw [List.replicate_succ', run_concat]
    refine ⟨_, step_alone h_get, ?_⟩
    -- in the first two steps the world is the one the request has found
    have h_first : n = 0 →
        run (step values etag) s (List.replicate n (.step i)) = s := by
      rintro rfl
      rfl
    have h_second : n = 1 →
        (run (step values etag) s (List.replicate n (.step i))).world = s.world := by
      rintro rfl
      exact world_step_request h_p
    generalize run (step values etag) s (List.replicate n (.step i)) = t at *
    have h_answer : Answer t.world p (serve values etag t.world t.env p).2.2 :=
      answer_serve t.world t.env p
    match h_next : (serve values etag t.world t.env p).2.2 with
    | .request sent =>
      rw [h_next] at h_answer
      exact h_answer.elim
    | .matched tag =>
      rw [h_next] at h_answer
      obtain ⟨rfl, h_cache⟩ := h_answer
      obtain ⟨rfl, h_sent⟩ := h_stage
      rw [h_first rfl] at h_cache
      exact ⟨rfl, h_sent.symm, h_cache⟩
    | .notModified tag =>
      rw [h_next] at h_answer
      obtain rfl | ⟨rfl, h_bound⟩ := h_answer
      · exact h_stage
      · obtain ⟨rfl, h_sent, h_cache⟩ := h_stage
        rw [h_second rfl] at h_bound
        exact ⟨h_sent, h_cache, h_bound⟩
    | .unmatched | .absent | .assigned .. | .looking .. | .missed .. | .obtained .. | .rendered _
    | .change _ | .signalled .. | .committed _ | .responded _ | .notFound _ | .finished => trivial

/-- **A 304.** The ETag that was sent is the cached one, and the configuration is bound. -/
theorem notModified_alone {ifNoneMatch : Option Tag} {n : ℕ}
    (h_p : s.parties[i]? = some (.request ifNoneMatch))
    (h : (run (step values etag) s (List.replicate n (.step i))).parties[i]? =
      some (.notModified tag)) :
    ifNoneMatch = some tag ∧ s.world.cache = some tag ∧ s.world.db.bound = true := by
  obtain ⟨p, h_get, h_stage⟩ := stage_alone values etag h_p n
  obtain rfl : p = .notModified tag := Option.some.inj (h_get.symm.trans h)
  exact h_stage

/-! ### Runs -/

theorem Inv.fresh (h_etag : Function.Injective etag) (h : Inv values etag s) (h_quiet : s.Quiet) :
    Fresh values etag s := by
  intro i ifNoneMatch n tag h_p h_answer
  obtain ⟨rfl, h_cache, h_bound⟩ := notModified_alone h_p h_answer
  have h_right := h.right (fun p h_p => not_due_of_idle (h_quiet p h_p)) h_cache
  obtain ⟨data, h_data, rfl⟩ := h_right h_bound
  refine ⟨⟨data, rfl⟩, fun data' h_data' => ?_⟩
  rw [h_data, h_etag (Option.some.inj h_data')]

/-- **A 304 is fresh** in a run in which what is cached meets no change. -/
theorem not_modified_fresh (values : Values V) (etag : ConfigurationData V → Tag)
    (h_etag : Function.Injective etag) (db : Db V) (parties : List (Party V Tag))
    (events : List Event)
    (h_events : Along (step values etag) (fun s event _ => Undisturbed values s event)
      (start db parties) events) :
    Always (step values etag) (fun s => s.Quiet → Fresh values etag s) (start db parties)
      events := by
  have h_inv : Always (step values etag) (Inv values etag) (start db parties) events :=
    h_events.always (fun _ event h_s h_event => h_s.step event h_event) (.of_none rfl)
  intro pre h_pre h_quiet
  exact (h_inv pre h_pre).fresh h_etag h_quiet

section Examples

private def plain : Values Text := ⟨id, fun _ => none⟩

private def node : Node :=
  ⟨"n".toList, "host".toList, "10.0.0.1".toList, "linux".toList, "/etc".toList, 1⟩

private def configuration : Configuration Text :=
  ⟨"c".toList, "telegraf".toList, "url=$URL".toList, "t".toList, []⟩

private def row (value : String) : EnvRow := ⟨"URL".toList, value.toList, []⟩

private def db : Db Text :=
  ⟨true, some node, some configuration, [], fun _ => [], fun _ => [row "a"]⟩

private def data : ConfigurationData Text :=
  ⟨"c".toList, "t".toList, "telegraf".toList, "url=a".toList, []⟩

private def answered : List Event := List.replicate 7 (.step 0)

/-- A request, and then a change of the template. -/
theorem not_modified_fresh_announced :
    Always (step plain id) (fun s => s.Quiet → Fresh plain id s)
      (start db [.request none,
        .change (.configuration { configuration with configTemplate := [] }), .request (some data)])
      (answered ++ [.step 1, .step 1, .step 1]) := by
  refine not_modified_fresh plain id (fun _ _ h => h) db _ _ ?_
  exact ⟨trivial, trivial, trivial, trivial, trivial, trivial, .inl fun _ => rfl, trivial, .inl rfl,
    trivial, trivial⟩

/-- **A stale 304.** A variable of the environment is changed after the ETag has been cached, and
nothing drops the ETag. -/
theorem not_not_modified_fresh :
    ¬∀ (db : Db Text) (parties : List (Party Text (ConfigurationData Text)))
      (events : List Event), (∀ p ∈ parties, Initial p) →
      Always (step plain id) (fun s => s.Quiet → Fresh plain id s) (start db parties)
        events := by
  intro h
  have h_fresh := (h db
    [.request none, .change (.sidecarEnv 1 [row "b"]), .request (some data)]
    (answered ++ [.step 1, .step 1, .step 1]) ?_).last ?_
  · obtain ⟨-, h_data⟩ := h_fresh 2 (some data) 2 data (by decide +kernel) (by decide +kernel)
    exact absurd (h_data data rfl) (by decide +kernel)
  · intro p h_p
    simp only [List.mem_cons, List.not_mem_nil, or_false] at h_p
    obtain rfl | rfl | rfl := h_p <;> trivial
  · change ∀ p ∈ [Party.responded data, .finished, .request (some data)], Idle p
    intro p h_p
    simp only [List.mem_cons, List.not_mem_nil, or_false] at h_p
    obtain rfl | rfl | rfl := h_p <;> trivial

end Examples

end NodeMgmt.NodeConfig

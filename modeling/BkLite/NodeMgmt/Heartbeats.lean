import Mathlib.Algebra.Order.Group.Multiset
import Mathlib.Data.List.Sort
import BkLite.Framework.Cached
import BkLite.Framework.Runs

/-!
# The heartbeats of a sidecar

A heartbeat of a node (`update_node_client`, `services/sidecar.py`) is answered with the pending
actions and the assignments of the node, and takes the actions off. It is answered 304 where its
ETag is the cached one. `batch_operate_node_collector` (`services/node.py`) puts an action item into
the one `Action` row of the node: it reads or creates the row, appends to what it has read, and
saves. Every read, write and cache access is a step of its own here. The rows of the tasks behind
the actions are left out.
-/

namespace NodeMgmt.Heartbeats

open Runs Cached

/-! ### The node -/

/-- An item of `Action.action`. -/
structure ActionItem where
  collectorId : String
  operation : String
  taskId : ℕ
deriving DecidableEq, Repr

structure Assignment where
  collectorId : String
  configurationId : String
deriving DecidableEq, Repr

/-- `response_data`, without what is the same in each. -/
structure Response where
  actions : List ActionItem
  assignments : List Assignment
deriving DecidableEq, Repr

/-- The rows of the node: its `Action` rows by their ids, and its assignments. -/
structure Db where
  actions : List (ℕ × List ActionItem)
  nextId : ℕ
  assignments : List Assignment
deriving DecidableEq, Repr

/-- `save`: an update, or an insert where there is no such row (any more). -/
def Db.save (db : Db) (id : ℕ) (action : List ActionItem) : Db :=
  if ∃ row ∈ db.actions, row.1 = id then
    { db with actions := db.actions.map fun row => if row.1 = id then (id, action) else row }
  else { db with actions := db.actions.orderedInsert (fun x y => x.1 ≤ y.1) (id, action) }

/-- `create`, with the next id. -/
def Db.create (db : Db) : Db := { db.save db.nextId [] with nextId := db.nextId + 1 }

def Db.delete (db : Db) (id : ℕ) : Db :=
  { db with actions := db.actions.filter fun row => row.1 ≠ id }

/-! ### The parties -/

variable {Tag : Type*}

/-- A heartbeat, an operation of a collector on the node, or a change of its assignments, and how
far it has come. -/
inductive Party (Tag : Type*)
  | heartbeat (ifNoneMatch : Option Tag)
  | missed
  | assigned (assignments : List Assignment)
  | acting (id : ℕ) (response : Response)
  | deleted (response : Response)
  | built (response : Response)
  | responded (response : Response)
  | notModified (etag : Tag)
  | operate (item : ActionItem)
  | absent (item : ActionItem)
  | created (item : ActionItem) (id : ℕ)
  | held (item : ActionItem) (id : ℕ) (action : List ActionItem)
  | saved (item : ActionItem)
  | operated (item : ActionItem)
  | failed (item : ActionItem)
  | assign (change : List Assignment → List Assignment)
  | changed
  | finished

def serve [DecidableEq Tag] (etag : Response → Tag) (w : World Db Tag) :
    Party Tag → World Db Tag × Party Tag
  -- `update_node_client`
  | .heartbeat ifNoneMatch =>
    match w.cache with
    | none => (w, .missed)
    | some cached => if ifNoneMatch = some cached then (w, .notModified cached) else (w, .missed)
  | .missed => (w, .assigned w.db.assignments)
  | .assigned assignments =>
    match w.db.actions.head? with
    | none => (w, .built ⟨[], assignments⟩)
    | some (id, action) => (w, .acting id ⟨action, assignments⟩)
  | .acting id response => (w.change (w.db.delete id), .deleted response)
  | .deleted response => (w.drop, .built response)
  | .built response => (w.fill (etag response), .responded response)
  -- `get_or_create`, append, `save`
  | .operate item =>
    match w.db.actions with
    | [] => (w, .absent item)
    | [(id, action)] => (w, .held item id action)
    | _ => (w, .failed item)
  | .absent item => (w.change w.db.create, .created item w.db.nextId)
  | .created item id => (w.drop, .held item id [])
  | .held item id action => (w.change (w.db.save id (action ++ [item])), .saved item)
  | .saved item => (w.drop, .operated item)
  -- a change of the assignments
  | .assign change =>
    (w.change { w.db with assignments := change w.db.assignments }, .changed)
  | .changed => (w.drop, .finished)
  | .responded response => (w, .responded response)
  | .notModified cached => (w, .notModified cached)
  | .operated item => (w, .operated item)
  | .failed item => (w, .failed item)
  | .finished => (w, .finished)

/-- The party is to drop the cached ETag. -/
def Due : Party Tag → Prop
  | .deleted _ => True
  | .created _ _ => True
  | .saved _ => True
  | .changed => True
  | _ => False

/-- The party has not begun, or is done. -/
def Idle : Party Tag → Prop
  | .heartbeat _ => True
  | .responded _ => True
  | .notModified _ => True
  | .operate _ => True
  | .operated _ => True
  | .failed _ => True
  | .assign _ => True
  | .finished => True
  | _ => False

/-- The party has not begun. -/
def Initial : Party Tag → Prop
  | .heartbeat _ => True
  | .operate _ => True
  | .assign _ => True
  | _ => False

structure State (Tag : Type*) where
  world : World Db Tag
  parties : List (Party Tag)

def step [DecidableEq Tag] (etag : Response → Tag) (s : State Tag) (i : ℕ) : State Tag :=
  match s.parties[i]? with
  | none => s
  | some p => ⟨(serve etag s.world p).1, s.parties.set i (serve etag s.world p).2⟩

def start (assignments : List Assignment) (parties : List (Party Tag)) : State Tag :=
  ⟨⟨⟨[], 0, assignments⟩, none⟩, parties⟩

/-! ### What is claimed, and when it is kept -/

def Db.pending (db : Db) : Multiset ActionItem :=
  (db.actions.map fun row => (row.2 : Multiset ActionItem)).sum

def Party.appended : Party Tag → Multiset ActionItem
  | .saved item => {item}
  | .operated item => {item}
  | _ => 0

def Party.taken : Party Tag → Multiset ActionItem
  | .deleted response => response.actions
  | .built response => response.actions
  | .responded response => response.actions
  | _ => 0

def State.appended (s : State Tag) : Multiset ActionItem := (s.parties.map Party.appended).sum

def State.taken (s : State Tag) : Multiset ActionItem := (s.parties.map Party.taken).sum

/-- A 304 for the tag hides nothing: no action is pending, and the assignments are those of the
response with the tag. -/
def Right (etag : Response → Tag) (db : Db) (tag : Tag) : Prop :=
  db.actions = [] ∧ ∀ response, etag response = tag → response.assignments = db.assignments

/-- No work is lost or hidden, and a cached ETag is right. -/
structure Kept [DecidableEq Tag] (etag : Response → Tag) (s : State Tag) : Prop where
  once : s.appended = s.world.db.pending + s.taken
  next : ∀ i ifNoneMatch, s.parties[i]? = some (.heartbeat ifNoneMatch) → s.world.db.actions ≠ [] →
    ∃ response, (run (step etag) s (List.replicate 6 i)).parties[i]? = some (.responded response) ∧
      (response.actions : Multiset ActionItem) = s.world.db.pending
  fresh : ∀ tag, s.world.cache = some tag → Right etag s.world.db tag

def State.Quiet (s : State Tag) : Prop := ∀ p ∈ s.parties, Idle p

/-- What a party writes is not out of date. -/
def Undisturbed (s : State Tag) (i : ℕ) : Prop :=
  match s.parties[i]? with
  | some (.acting id response) => (id, response.actions) ∈ s.world.db.actions
  | some (.absent _) => s.world.db.actions = []
  | some (.held _ id action) =>
    (id, action) ∈ s.world.db.actions ∨ action = [] ∧ s.world.db.actions = []
  | some (.built response) =>
    (s.world.db.actions = [] ∧ response.assignments = s.world.db.assignments) ∨
      ∃ p ∈ s.parties, Due p
  | _ => True

variable {etag : Response → Tag} {s : State Tag} {i : ℕ} {db : Db}
  {p p' : Party Tag} {id : ℕ} {action action' : List ActionItem}

/-! ### The one row -/

theorem actions_of_mem (h : db.actions.length ≤ 1) {row : ℕ × List ActionItem}
    (h_row : row ∈ db.actions) : db.actions = [row] := by
  match h_actions : db.actions with
  | [] =>
    rw [h_actions] at h_row
    cases h_row
  | [first] =>
    rw [h_actions] at h_row
    rw [List.mem_singleton.mp h_row]
  | first :: second :: rest =>
    rw [h_actions] at h
    exact absurd h (by simp)

theorem pending_nil (h : db.actions = []) : db.pending = 0 := by
  rw [Db.pending, h]
  rfl

theorem pending_single (h : db.actions = [(id, action)]) : db.pending = action := by
  rw [Db.pending, h, List.map_singleton, List.sum_singleton]

theorem delete_single (h : db.actions = [(id, action)]) : (db.delete id).actions = [] := by
  simp [Db.delete, h]

theorem save_single (h : db.actions = [(id, action)]) (action' : List ActionItem) :
    (db.save id action').actions = [(id, action')] := by
  simp [Db.save, h]

theorem save_nil (h : db.actions = []) (id : ℕ) (action : List ActionItem) :
    (db.save id action).actions = [(id, action)] := by
  simp [Db.save, h]

/-! ### The invariant -/

/-- One row at most, no item lost or twice, and an ETag that is right or to be dropped. -/
structure Inv (etag : Response → Tag) (s : State Tag) : Prop where
  single : s.world.db.actions.length ≤ 1
  once : s.appended = s.world.db.pending + s.taken
  sound : Sound (Right etag) Due s.parties s.world

/-- **The move of a party.** What it appends comes to the pending items, and what it takes comes
from them. -/
theorem Inv.move (h : Inv etag s) (h_p : s.parties[i]? = some p) {w : World Db Tag}
    {x y : Multiset ActionItem} (h_single : w.db.actions.length ≤ 1)
    (h_appended : p'.appended = p.appended + x) (h_taken : p'.taken = p.taken + y)
    (h_pending : s.world.db.pending + x = w.db.pending + y)
    (h_sound : Sound (Right etag) Due (s.parties.set i p') w) :
    Inv etag ⟨w, s.parties.set i p'⟩ := by
  refine ⟨h_single, ?_, h_sound⟩
  calc State.appended ⟨w, s.parties.set i p'⟩
      = s.appended + x := Rows.sum_map_set_of_eq Party.appended h_p h_appended
    _ = s.world.db.pending + x + s.taken := by rw [h.once, add_right_comm]
    _ = w.db.pending + (s.taken + y) := by rw [h_pending, add_assoc, add_comm y]
    _ = w.db.pending + State.taken ⟨w, s.parties.set i p'⟩ :=
        congrArg (w.db.pending + ·) (Rows.sum_map_set_of_eq Party.taken h_p h_taken).symm

theorem Inv.stay (h : Inv etag s) (h_p : s.parties[i]? = some p)
    (h_appended : p'.appended = p.appended) (h_taken : p'.taken = p.taken)
    (h_due : Due p → Due p') : Inv etag ⟨s.world, s.parties.set i p'⟩ :=
  h.move h_p h.single (h_appended.trans (add_zero _).symm) (h_taken.trans (add_zero _).symm) rfl
    (h.sound.stay h_p h_due)

theorem Inv.drop (h : Inv etag s) (h_p : s.parties[i]? = some p)
    (h_appended : p'.appended = p.appended) (h_taken : p'.taken = p.taken) :
    Inv etag ⟨s.world.drop, s.parties.set i p'⟩ :=
  h.move h_p h.single (h_appended.trans (add_zero _).symm) (h_taken.trans (add_zero _).symm) rfl
    .drop

theorem not_due_of_idle (h : Idle p) : ¬Due p := by
  cases p <;> first | exact id | exact absurd h id

theorem Inv.start (etag : Response → Tag) (assignments : List Assignment)
    {parties : List (Party Tag)} (h : ∀ p ∈ parties, Initial p) :
    Inv etag (start assignments parties) := by
  have h_none : ∀ p ∈ parties, p.appended = 0 ∧ p.taken = 0 := by
    intro p h_p
    have h_initial := h p h_p
    cases p <;> first | exact ⟨rfl, rfl⟩ | exact absurd h_initial id
  refine ⟨Nat.zero_le 1, ?_, .of_none rfl⟩
  have h_appended : (parties.map Party.appended).sum = 0 :=
    List.sum_eq_zero (List.forall_mem_map.mpr fun p h_p => (h_none p h_p).1)
  have h_taken : (parties.map Party.taken).sum = 0 :=
    List.sum_eq_zero (List.forall_mem_map.mpr fun p h_p => (h_none p h_p).2)
  change (parties.map Party.appended).sum = 0 + (parties.map Party.taken).sum
  rw [h_appended, h_taken, add_zero]

variable [DecidableEq Tag]

theorem Inv.step (h_etag : Function.Injective etag) (h : Inv etag s) (i : ℕ)
    (h_i : Undisturbed s i) : Inv etag (step etag s i) := by
  unfold Heartbeats.step
  unfold Undisturbed at h_i
  match h_p : s.parties[i]? with
  | none => exact h
  | some p =>
    rw [h_p] at h_i
    dsimp only
    match p with
    | .heartbeat ifNoneMatch =>
      match h_cache : s.world.cache with
      | none =>
        simp only [serve, h_cache]
        exact h.stay h_p rfl rfl id
      | some cached =>
        by_cases h_same : ifNoneMatch = some cached
        · simp only [serve, h_cache, if_pos h_same]
          exact h.stay h_p rfl rfl id
        · simp only [serve, h_cache, if_neg h_same]
          exact h.stay h_p rfl rfl id
    | .missed => exact h.stay h_p rfl rfl id
    | .assigned assignments =>
      match h_row : s.world.db.actions.head? with
      | none =>
        simp only [serve, h_row]
        exact h.stay h_p rfl rfl id
      | some (id, action) =>
        simp only [serve, h_row]
        exact h.stay h_p rfl rfl fun h_due => h_due
    | .acting id response =>
      have h_row : s.world.db.actions = [(id, response.actions)] := actions_of_mem h.single h_i
      have h_none : (s.world.db.delete id).actions = [] := delete_single h_row
      refine h.move (x := 0) (y := response.actions) h_p ?_ rfl (zero_add _).symm ?_
        (.announce h_p trivial _)
      · change (s.world.db.delete id).actions.length ≤ 1
        rw [h_none]
        exact Nat.zero_le 1
      · change _ = (s.world.db.delete id).pending + _
        rw [pending_single h_row, pending_nil h_none, add_zero, zero_add]
    | .deleted response => exact h.drop h_p rfl rfl
    | .built response =>
      refine h.move (x := 0) (y := 0) h_p h.single rfl (add_zero _).symm rfl ?_
      refine (sound_fill_iff h_p id id (etag response)).mpr (h_i.imp_left ?_)
      rintro ⟨h_none, h_assignments⟩
      refine ⟨h_none, fun response' h_response' => ?_⟩
      rw [h_etag h_response', h_assignments]
    | .responded response => exact h.stay h_p rfl rfl id
    | .notModified cached => exact h.stay h_p rfl rfl id
    | .operate item =>
      match h_rows : s.world.db.actions with
      | [] =>
        simp only [serve, h_rows]
        exact h.stay h_p rfl rfl id
      | [(id, action)] =>
        simp only [serve, h_rows]
        exact h.stay h_p rfl rfl fun h_due => h_due
      | _ :: _ :: _ =>
        simp only [serve, h_rows]
        exact h.stay h_p rfl rfl id
    | .absent item =>
      have h_row : s.world.db.create.actions = [(s.world.db.nextId, [])] := save_nil h_i _ _
      refine h.move (x := 0) (y := 0) h_p ?_ rfl rfl ?_ (.announce h_p trivial _)
      · change s.world.db.create.actions.length ≤ 1
        rw [h_row]
        rfl
      · change _ = s.world.db.create.pending + _
        rw [pending_nil h_i, pending_single h_row]
        rfl
    | .created item id => exact h.drop h_p rfl rfl
    | .held item id action =>
      -- the row is saved as it was read, with the item added
      have h_row : (s.world.db.save id (action ++ [item])).actions = [(id, action ++ [item])] ∧
          s.world.db.pending = action := by
        obtain h_mem | ⟨rfl, h_none⟩ := h_i
        · have h_row := actions_of_mem h.single h_mem
          exact ⟨save_single h_row _, pending_single h_row⟩
        · exact ⟨save_nil h_none _ _, pending_nil h_none⟩
      refine h.move (x := {item}) (y := 0) h_p ?_ (zero_add _).symm rfl ?_
        (.announce h_p trivial _)
      · change (s.world.db.save id _).actions.length ≤ 1
        rw [h_row.1]
        rfl
      · change _ = (s.world.db.save id _).pending + _
        rw [pending_single h_row.1, h_row.2, add_zero]
        rfl
    | .saved item => exact h.drop h_p rfl rfl
    | .operated item => exact h.stay h_p rfl rfl id
    | .failed item => exact h.stay h_p rfl rfl id
    | .assign change =>
      exact h.move (x := 0) (y := 0) h_p h.single rfl rfl rfl (.announce h_p trivial _)
    | .changed => exact h.drop h_p rfl rfl
    | .finished => exact h.stay h_p rfl rfl id

/-! ### A heartbeat that runs alone -/

theorem step_set {w : World Db Tag} {ps : List (Party Tag)} (h_i : i < ps.length) (p : Party Tag) :
    step etag ⟨w, ps.set i p⟩ i = ⟨(serve etag w p).1, ps.set i (serve etag w p).2⟩ := by
  simp [step, List.getElem?_set_self h_i, List.set_set]

variable (etag) in
theorem heartbeat_alone {ifNoneMatch : Option Tag}
    (h_p : s.parties[i]? = some (.heartbeat ifNoneMatch)) (h_cache : s.world.cache = none)
    (h_row : s.world.db.actions = [(id, action)]) :
    ∃ response, (run (step etag) s (List.replicate 6 i)).parties[i]? = some (.responded response) ∧
      response.actions = action := by
  obtain ⟨h_i, h_get⟩ := List.getElem?_eq_some_iff.mp h_p
  have h_state : s = ⟨s.world, s.parties.set i (.heartbeat ifNoneMatch)⟩ := by
    rw [← h_get, List.set_getElem_self]
  have h_first : s.world.db.actions.head? = some (id, action) := by
    rw [h_row]
    rfl
  rw [h_state]
  simp only [List.replicate, run_cons, run_nil, step_set h_i, serve, h_cache, h_first]
  exact ⟨_, List.getElem?_set_self h_i, rfl⟩

/-! ### Runs -/

theorem Inv.kept (h : Inv etag s) (h_quiet : s.Quiet) : Kept etag s := by
  have h_fresh : ∀ tag, s.world.cache = some tag → Right etag s.world.db tag := fun tag h_tag =>
    h.sound.right (fun p h_p => not_due_of_idle (h_quiet p h_p)) h_tag
  refine ⟨h.once, fun i ifNoneMatch h_p h_some => ?_, h_fresh⟩
  have h_cache : s.world.cache = none := by
    by_contra h_cached
    obtain ⟨tag, h_tag⟩ := Option.ne_none_iff_exists'.mp h_cached
    exact h_some (h_fresh tag h_tag).1
  obtain ⟨⟨id, action⟩, h_mem⟩ := List.exists_mem_of_ne_nil _ h_some
  have h_row := actions_of_mem h.single h_mem
  obtain ⟨response, h_response, h_actions⟩ := heartbeat_alone etag h_p h_cache h_row
  refine ⟨response, h_response, ?_⟩
  rw [h_actions, pending_single h_row]

/-- **Heartbeats lose and hide no work** where no party writes what is out of date. -/
theorem heartbeats_kept (etag : Response → Tag) (h_etag : Function.Injective etag)
    (assignments : List Assignment) (parties : List (Party Tag)) (h : ∀ p ∈ parties, Initial p)
    (as : List ℕ)
    (h_as : Along (step etag) (fun s i _ => Undisturbed s i) (start assignments parties) as) :
    Always (step etag) (fun s => s.Quiet → Kept etag s) (start assignments parties) as := by
  have h_inv : Always (step etag) (Inv etag) (start assignments parties) as :=
    h_as.always (fun _ i h_s h_i => h_s.step h_etag i h_i) (.start etag assignments h)
  intro pre h_pre h_quiet
  exact (h_inv pre h_pre).kept h_quiet

section Examples

private def item (operation : String) : ActionItem := ⟨"telegraf", operation, 1⟩

/-- An operation and then a heartbeat. -/
theorem heartbeats_kept_in_turn :
    Always (step fun response => response)
      (fun s => s.Quiet → Kept (fun response => response) s)
      (start [] [.operate (item "start"), .heartbeat none])
      [0, 0, 0, 0, 0, 1, 1, 1, 1, 1, 1] := by
  refine heartbeats_kept (fun response => response) (fun _ _ h => h) []
    [.operate (item "start"), .heartbeat none] ?_ _ ?_
  · intro p h_p
    obtain rfl | h_p := List.mem_cons.mp h_p
    · trivial
    · obtain rfl := List.mem_singleton.mp h_p
      trivial
  · exact ⟨trivial, rfl, trivial, .inl List.mem_cons_self, trivial, trivial, trivial, trivial,
      List.mem_cons_self, trivial, .inl ⟨rfl, rfl⟩, trivial⟩

/-- **A lost action.** A heartbeat has read the row of one action, another is appended, and the
heartbeat deletes the row. -/
theorem not_heartbeats_kept :
    ¬∀ (parties : List (Party Response)) (as : List ℕ), (∀ p ∈ parties, Initial p) →
      Always (step fun response => response)
        (fun s => s.Quiet → Kept (fun response => response) s) (start [] parties) as := by
  intro h
  have h_kept := (h [.operate (item "start"), .heartbeat none, .operate (item "restart")]
    [0, 0, 0, 0, 0, 1, 1, 1, 2, 2, 2, 1, 1, 1] ?_).last ?_
  · have h_once := congrArg Multiset.card h_kept.once
    exact absurd h_once (by decide +kernel)
  · intro p h_p
    simp only [List.mem_cons, List.not_mem_nil, or_false] at h_p
    obtain rfl | rfl | rfl := h_p <;> trivial
  · change ∀ p ∈ [Party.operated (item "start"), .responded ⟨[item "start"], []⟩,
      .operated (item "restart")], Idle p
    intro p h_p
    simp only [List.mem_cons, List.not_mem_nil, or_false] at h_p
    obtain rfl | rfl | rfl := h_p <;> trivial

end Examples

end NodeMgmt.Heartbeats

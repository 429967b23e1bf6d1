import BkLite.Cmdb.Instances
import BkLite.Framework.Ranges
import BkLite.Framework.Runs

/-!
# The subnets of the address management

The instances of the model `subnet` are not to overlap (`ipam_subnet.py`), for an address is given
to the first subnet that holds it (`match_subnet_for_ip`). Creating one instance and updating one
instance check this; updating a set of instances and creating many do not.

Reading an address or a network from a text is a parameter (`Env`).
-/

namespace Cmdb
namespace Subnets

open Py Ranges

abbrev Network := Range ℕ ℕ

/-- `str`, `ip_network` without `strict`, with the text of its `ValueError`, and `ip_address`. -/
structure Env where
  str : Value → List Char
  network : List Char → Option Network
  reason : List Char → List Char
  address : List Char → Option (ℕ × ℕ)

variable (env : Env) (editable : String → Bool)

/-- The text that `parse_subnet` hands over. -/
def networkText (address mask : Value) : List Char :=
  strip (env.str address) ++ '/' :: strip (env.str mask)

def parseSubnet (address mask : Value) : Option Network := env.network (networkText env address mask)

/-- `x in (None, "")`. -/
def isBlank : Value → Bool
  | .null => true
  | .str s => s == ""
  | _ => false

def given (address mask : Value) : Bool := address.truthy && !isBlank mask

inductive Failure
  | invalid (address mask : Value)
  | overlap (address mask name : Value)
  | notFound
  | empty
  /-- Another check refuses. -/
  | refused

def Failure.message : Failure → List Char
  | .invalid address mask =>
    "非法网段地址/掩码: ".toList ++ env.str address ++ '/' :: env.str mask ++ " (".toList ++
      env.reason (networkText env address mask) ++ ")".toList
  | .overlap address mask name =>
    "网段 ".toList ++ env.str address ++ '/' :: env.str mask ++ " 与已有子网 ".toList ++
      env.str name ++ " 地址范围重叠，不允许录入".toList
  | .notFound => "实例不存在！".toList
  | .empty => "properties is empty".toList
  | .refused => []

def addressOf (get : String → Value) : Value := get "subnet_address"

def maskOf (get : String → Value) : Value := get "subnet_mask"

/-- The loop of `validate_subnet_no_overlap` over the instances. -/
def checkRows (address mask : Value) (net : Network) (exclude : Option ℕ) :
    List Instance → Except Failure Unit
  | [] => .ok ()
  | row :: rows =>
    if exclude = some row.id then checkRows address mask net exclude rows
    else if given (addressOf row.get) (maskOf row.get) = false then
      checkRows address mask net exclude rows
    else
      match parseSubnet env (addressOf row.get) (maskOf row.get) with
      | none => .error (.invalid (addressOf row.get) (maskOf row.get))
      | some other =>
        if net.Overlaps other then .error (.overlap address mask (row.get "inst_name"))
        else checkRows address mask net exclude rows

def validateSubnetNoOverlap (info : String → Value) (exclude : Option ℕ) (rows : List Instance) :
    Except Failure Unit :=
  if given (addressOf info) (maskOf info) = false then .ok ()
  else
    match parseSubnet env (addressOf info) (maskOf info) with
    | none => .error (.invalid (addressOf info) (maskOf info))
    | some net => checkRows env (addressOf info) (maskOf info) net exclude rows

/-- `instance_create`. `refused` says that another check fails. -/
def instanceCreate (info : Props) (refused : Bool) (s : Store) : Except Failure Store := do
  validateSubnetNoOverlap env info.get none s.rows
  if refused then throw .refused
  return s.create info

/-- `set_entity_properties` of what is editable. -/
def setProperties (ids : List ℕ) (attr : Props) (s : Store) : Except Failure Store :=
  if (attr.getEditable editable).isEmpty then throw .empty
  else return s.write ids (attr.getEditable editable)

def instanceUpdate (id : ℕ) (attr : Props) (refused : Bool) (s : Store) : Except Failure Store :=
  match s.find id with
  | none => throw .notFound
  | some inst => do
    validateSubnetNoOverlap env (inst.set attr).get (some id) s.rows
    if refused then throw .refused
    setProperties editable [id] attr s

def batchInstanceUpdate (ids : List ℕ) (attr : Props) (refused : Bool) (s : Store) :
    Except Failure Store :=
  if s.rows.all fun inst => inst.id ∉ ids then throw .notFound
  else if refused then throw .refused
  else setProperties editable ids attr s

/-- `batch_create_entity`: an item that is refused is left out. -/
def batchCreateEntity : List (Props × Bool) → Store → Store
  | [], s => s
  | (info, refused) :: items, s => batchCreateEntity items (if refused then s else s.create info)

/-- An operation on the instances of the model. -/
inductive Op
  | create (info : Props) (refused : Bool)
  | update (id : ℕ) (attr : Props) (refused : Bool)
  | batchUpdate (ids : List ℕ) (attr : Props) (refused : Bool)
  | batchCreate (items : List (Props × Bool))

def Op.result (s : Store) : Op → Except Failure Store
  | .create info refused => instanceCreate env info refused s
  | .update id attr refused => instanceUpdate env editable id attr refused s
  | .batchUpdate ids attr refused => batchInstanceUpdate editable ids attr refused s
  | .batchCreate items => .ok (batchCreateEntity items s)

def step (s : Store) (op : Op) : Store :=
  match op.result env editable s with
  | .ok t => t
  | .error _ => s

def ipInSubnet (ip : Value) (net : Network) : Bool :=
  match env.address (strip (env.str ip)) with
  | none => false
  | some (version, number) => net.Contains version number

def rangeOf (get : String → Value) : Option Network :=
  if given (addressOf get) (maskOf get) then parseSubnet env (addressOf get) (maskOf get) else none

def matchSubnetForIp (ip : Value) (subnets : List Instance) : Option Instance :=
  subnets.find? fun row =>
    match rangeOf env row.get with
    | none => false
    | some net => ipInSubnet env ip net

/-! ### Subnets apart -/

def Apart (get get' : String → Value) : Prop :=
  ∀ net net', rangeOf env get = some net → rangeOf env get' = some net' → ¬net.Overlaps net'

def Disjoint (s : Store) : Prop := s.Pairwise (Apart env)

def Kept (s : Store) : Prop :=
  Disjoint env s ∧ ∀ subnets, s.rows.Perm subnets → ∀ ip,
    matchSubnetForIp env ip subnets = matchSubnetForIp env ip s.rows

def Fits (ids : List ℕ) (attr : Props) (s : Store) : Prop :=
  s.Fits (Apart env) ids (attr.getEditable editable)

def ItemsFit : List (Props × Bool) → Store → Prop
  | [], _ => True
  | (info, refused) :: items, s =>
    (refused = false → ∀ row ∈ s.rows, Apart env info.get row.get) ∧
      ItemsFit items (if refused then s else s.create info)

def Plain (attr : Props) : Prop :=
  (attr.Has "subnet_address" → editable "subnet_address" = true) ∧
    (attr.Has "subnet_mask" → editable "subnet_mask" = true)

/-- The condition of an operation. -/
def Met (s : Store) : Op → Prop
  | .create _ _ => True
  | .update id attr refused =>
    Plain editable attr ∨
      ∀ t, instanceUpdate env editable id attr refused s = .ok t → Fits env editable [id] attr s
  | .batchUpdate ids attr refused =>
    ∀ t, batchInstanceUpdate editable ids attr refused s = .ok t → Fits env editable ids attr s
  | .batchCreate items => ItemsFit env items s

/-! ### The check -/

section Check

variable {env editable} {s t : Store} {props : Props} {ids : List ℕ} {refused : Bool}

theorem Apart.symm (get get' : String → Value) (h : Apart env get get') : Apart env get' get :=
  fun net net' h_net h_net' h_overlaps => h net' net h_net' h_net h_overlaps.symm

theorem rangeOf_congr {get get' : String → Value} (h_address : addressOf get = addressOf get')
    (h_mask : maskOf get = maskOf get') : rangeOf env get = rangeOf env get' := by
  rw [rangeOf, rangeOf, h_address, h_mask]

theorem apart_of_checkRows {address mask : Value} {net : Network} {exclude : Option ℕ}
    {rows : List Instance} (h : checkRows env address mask net exclude rows = .ok ()) :
    ∀ row ∈ rows, exclude ≠ some row.id → ∀ other, rangeOf env row.get = some other →
      ¬net.Overlaps other := by
  induction rows with
  | nil => simp
  | cons row rows ih =>
    rw [checkRows] at h
    intro row' h_row' h_exclude other h_other
    obtain rfl | h_later := List.mem_cons.mp h_row'
    · -- the row itself is not passed over, since it has a range
      rw [if_neg h_exclude] at h
      unfold rangeOf at h_other
      split_ifs at h_other with h_given
      rw [h_given, if_neg Bool.noConfusion, h_other] at h
      simp only at h
      split_ifs at h with h_overlaps
      exact h_overlaps
    · refine ih ?_ row' h_later h_exclude other h_other
      split_ifs at h with h_same h_given
      · exact h
      · exact h
      · cases h_parse : parseSubnet env (addressOf row.get) (maskOf row.get) with
        | none =>
          rw [h_parse] at h
          cases h
        | some net' =>
          rw [h_parse] at h
          simp only at h
          split_ifs at h
          exact h

/-- **The check.** What it lets through is apart from the instances that it looks at. -/
theorem apart_of_validate {info : String → Value} {exclude : Option ℕ} {rows : List Instance}
    (h : validateSubnetNoOverlap env info exclude rows = .ok ()) :
    ∀ row ∈ rows, exclude ≠ some row.id → Apart env info row.get := by
  intro row h_row h_exclude net net' h_net h_net'
  unfold rangeOf at h_net
  split_ifs at h_net with h_given
  rw [validateSubnetNoOverlap, h_given, if_neg Bool.noConfusion, h_net] at h
  exact apart_of_checkRows h row h_row h_exclude net' h_net'

theorem of_setProperties (h : setProperties editable ids props s = .ok t) :
    t = s.write ids (props.getEditable editable) := by
  unfold setProperties at h
  split_ifs at h
  exact (Except.ok.inj h).symm

theorem of_instanceCreate (h : instanceCreate env props refused s = .ok t) :
    t = s.create props ∧ ∀ row ∈ s.rows, Apart env props.get row.get := by
  obtain ⟨⟨⟩, h_check, h⟩ := bind_eq_ok.mp h
  split_ifs at h
  · cases h
  · refine ⟨(Except.ok.inj h).symm, fun row h_row => ?_⟩
    exact apart_of_validate h_check row h_row (Option.some_ne_none _).symm

theorem of_instanceUpdate {id : ℕ} (h : instanceUpdate env editable id props refused s = .ok t) :
    t = s.write [id] (props.getEditable editable) ∧
      ∃ inst ∈ s.rows, inst.id = id ∧
        ∀ row ∈ s.rows, row.id ≠ id → Apart env (inst.set props).get row.get := by
  unfold instanceUpdate at h
  cases h_find : s.find id with
  | none =>
    rw [h_find] at h
    cases h
  | some inst =>
    rw [h_find] at h
    obtain ⟨⟨⟩, h_check, h⟩ := bind_eq_ok.mp h
    split_ifs at h
    · cases h
    · obtain ⟨h_inst, h_id⟩ := Store.find_eq_some h_find
      refine ⟨of_setProperties h, inst, h_inst, h_id, fun row h_row h_ne => ?_⟩
      exact apart_of_validate h_check row h_row fun h_same => h_ne (Option.some.inj h_same).symm

theorem of_batchInstanceUpdate (h : batchInstanceUpdate editable ids props refused s = .ok t) :
    t = s.write ids (props.getEditable editable) := by
  unfold batchInstanceUpdate at h
  split_ifs at h
  exact of_setProperties h

end Check

/-! ### One operation -/

section Operations

variable {env editable} {s t : Store} {props : Props} {ids : List ℕ} {refused : Bool}

theorem rangeOf_set_of_plain (h : Plain editable props) (inst : Instance) :
    rangeOf env (inst.set (props.getEditable editable)).get =
      rangeOf env (inst.set props).get := by
  have h_field : ∀ key, (props.Has key → editable key = true) →
      (inst.set (props.getEditable editable)).get key = (inst.set props).get key := by
    intro key h_key
    show (if (props.getEditable editable).Has key then _ else _) = if props.Has key then _ else _
    by_cases h_has : props.Has key
    · rw [if_pos h_has, if_pos (Props.has_getEditable.mpr ⟨h_has, h_key h_has⟩),
        Props.get_getEditable (h_key h_has)]
    · rw [if_neg h_has, if_neg fun h_edit => h_has (Props.has_getEditable.mp h_edit).1]
  exact rangeOf_congr (h_field _ h.1) (h_field _ h.2)

theorem fits_of_plain (h_plain : Plain editable props) {id : ℕ}
    (h : instanceUpdate env editable id props refused s = .ok t) (h_numbered : s.Numbered) :
    Fits env editable [id] props s := by
  obtain ⟨-, inst, h_inst, rfl, h_apart⟩ := of_instanceUpdate h
  intro i h_i h_mem j h_j h_ne
  obtain rfl : i = inst := h_numbered.eq_of_id h_i h_inst (List.mem_singleton.mp h_mem)
  have h_other : j.id ∉ [i.id] := fun h_j => h_ne (List.mem_singleton.mp h_j).symm
  rw [Instance.written, Instance.written, if_pos h_mem, if_neg h_other]
  intro net net' h_net
  rw [rangeOf_set_of_plain h_plain] at h_net
  exact h_apart j h_j h_ne.symm net net' h_net

theorem disjoint_of_batchCreateEntity {items : List (Props × Bool)}
    (h : Disjoint env (batchCreateEntity items s)) : Disjoint env s := by
  have h_rows : ∀ row ∈ s.rows, row ∈ (batchCreateEntity items s).rows := by
    clear h
    induction items generalizing s with
    | nil => exact fun _ => id
    | cons item items ih =>
      obtain ⟨info, refused⟩ := item
      cases refused with
      | true => exact ih
      | false => exact fun row h_row => ih row (List.mem_append_left _ h_row)
  exact fun i h_i j h_j => h i (h_rows i h_i) j (h_rows j h_j)

theorem disjoint_batchCreate_iff {items : List (Props × Bool)} (h_numbered : s.Numbered)
    (h : Disjoint env s) :
    Disjoint env (batchCreateEntity items s) ↔ ItemsFit env items s := by
  induction items generalizing s with
  | nil => exact iff_of_true h trivial
  | cons item items ih =>
    obtain ⟨info, refused⟩ := item
    cases refused with
    | true =>
      rw [batchCreateEntity, ItemsFit, if_pos rfl, ih h_numbered h]
      simp
    | false =>
      rw [batchCreateEntity, ItemsFit, if_neg Bool.noConfusion,
        ← Store.pairwise_create_iff Apart.symm h_numbered h]
      constructor
      · intro h_after
        have h_new : Disjoint env (s.create info) := disjoint_of_batchCreateEntity h_after
        exact ⟨fun _ => h_new, (ih h_numbered.create h_new).mp h_after⟩
      · rintro ⟨h_new, h_items⟩
        exact (ih h_numbered.create (h_new rfl)).mpr h_items

theorem numbered_batchCreateEntity {items : List (Props × Bool)} (h : s.Numbered) :
    (batchCreateEntity items s).Numbered := by
  induction items generalizing s with
  | nil => exact h
  | cons item items ih =>
    obtain ⟨info, refused⟩ := item
    cases refused with
    | false => exact ih h.create
    | true => exact ih h

theorem numbered_step (s : Store) (op : Op) (h : s.Numbered) :
    (step env editable s op).Numbered := by
  unfold step
  cases h_result : op.result env editable s with
  | error _ => exact h
  | ok t =>
    cases op with
    | create info refused =>
      rw [(of_instanceCreate h_result).1]
      exact h.create
    | update id attr refused =>
      rw [(of_instanceUpdate h_result).1]
      exact h.write
    | batchUpdate ids attr refused =>
      rw [of_batchInstanceUpdate h_result]
      exact h.write
    | batchCreate items =>
      rw [← Except.ok.inj h_result]
      exact numbered_batchCreateEntity h

/-- **One operation.** The subnets stay apart exactly if the operation meets its condition. -/
theorem disjoint_step_iff (s : Store) (op : Op) (h_numbered : s.Numbered) (h : Disjoint env s) :
    Disjoint env (step env editable s op) ↔ Met env editable s op := by
  unfold step
  cases op with
  | create info refused =>
    refine iff_of_true ?_ trivial
    cases h_result : Op.result env editable s (.create info refused) with
    | error _ => exact h
    | ok t =>
      obtain ⟨rfl, h_apart⟩ := of_instanceCreate h_result
      exact (Store.pairwise_create_iff Apart.symm h_numbered h).mpr h_apart
  | update id attr refused =>
    cases h_result : Op.result env editable s (.update id attr refused) with
    | error _ =>
      refine iff_of_true h (.inr fun t h_ok => ?_)
      cases h_result.symm.trans h_ok
    | ok t =>
      have h_write := (of_instanceUpdate h_result).1
      rw [h_write]
      refine (Store.pairwise_write_iff Apart.symm h).trans ⟨fun h_fits => .inr fun _ _ => h_fits, ?_⟩
      rintro (h_plain | h_fits)
      · exact fits_of_plain h_plain h_result h_numbered
      · exact h_fits t h_result
  | batchUpdate ids attr refused =>
    cases h_result : Op.result env editable s (.batchUpdate ids attr refused) with
    | error _ =>
      refine iff_of_true h fun t h_ok => ?_
      cases h_result.symm.trans h_ok
    | ok t =>
      have h_write := of_batchInstanceUpdate h_result
      rw [h_write]
      exact (Store.pairwise_write_iff Apart.symm h).trans ⟨fun h_fits _ _ => h_fits, fun h_fits => h_fits t h_result⟩
  | batchCreate items => exact disjoint_batchCreate_iff h_numbered h

theorem kept_of_disjoint (h_numbered : s.Numbered) (h : Disjoint env s) : Kept env s := by
  refine ⟨h, fun subnets h_perm ip => (find?_perm h_perm fun i h_i j h_j h_in h_in' => ?_).symm⟩
  by_contra h_ne
  have h_id : i.id ≠ j.id := fun h_id => h_ne (h_numbered.eq_of_id h_i h_j h_id)
  cases h_net : rangeOf env i.get with
  | none => simp [h_net] at h_in
  | some net =>
    cases h_net' : rangeOf env j.get with
    | none => simp [h_net'] at h_in'
    | some net' =>
      simp only [h_net, h_net', ipInSubnet] at h_in h_in'
      cases h_address : env.address (strip (env.str ip)) with
      | none => simp [h_address] at h_in
      | some address =>
        simp only [h_address, decide_eq_true_eq] at h_in h_in'
        refine h i h_i j h_j h_id net net' h_net h_net' (overlaps_iff.mpr ?_)
        exact ⟨address.1, address.2, h_in, h_in'⟩

/-- **Subnets apart.** They stay apart exactly if every operation meets its condition. -/
theorem subnets_iff {ops : List Op} (h_numbered : s.Numbered) (h : Disjoint env s) :
    Runs.Always (step env editable) (Kept env) s ops ↔
      Runs.Along (step env editable) (fun s op _ => Met env editable s op) s ops :=
  Runs.always_iff_along (K := Store.Numbered) numbered_step
    (fun s op (_ : True) h_numbered h_kept =>
      ⟨fun h_next => (disjoint_step_iff s op h_numbered h_kept.1).mp h_next.1,
        fun h_met => kept_of_disjoint (numbered_step s op h_numbered)
          ((disjoint_step_iff s op h_numbered h_kept.1).mpr h_met)⟩)
    (fun _ _ => trivial) h_numbered (kept_of_disjoint h_numbered h)

end Operations

/-! ### A batch update -/

/-- `Apart`, computed. -/
def apart (get get' : String → Value) : Bool :=
  match rangeOf env get, rangeOf env get' with
  | some net, some net' => !decide (net.Overlaps net')
  | _, _ => true

theorem apart_iff {get get' : String → Value} : apart env get get' = true ↔ Apart env get get' := by
  unfold apart Apart
  cases rangeOf env get <;> cases rangeOf env get' <;> simp

instance (get get' : String → Value) : Decidable (Apart env get get') :=
  decidable_of_iff _ (apart_iff env)

def smallEnv : Env where
  str
    | .str s => s.toList
    | _ => []
  network text :=
    if text = "10.0.0.4/30".toList then some ⟨4, 167772164, 167772167, by decide⟩
    else if text = "10.0.0.8/30".toList then some ⟨4, 167772168, 167772171, by decide⟩
    else if text = "10.0.0.4/29".toList then some ⟨4, 167772160, 167772167, by decide⟩
    else none
  reason _ := []
  address _ := none

def subnet (address mask : String) : Props :=
  [("subnet_address", .str address), ("subnet_mask", .str mask)]

def twoSubnets : List Op :=
  [.create (subnet "10.0.0.4" "30") false, .create (subnet "10.0.0.8" "30") false]

theorem numbered_empty : Store.Numbered { rows := [], nextId := 0 } :=
  ⟨List.nodup_nil, nofun⟩

/-- A wider mask on one of them still fits. -/
theorem subnets_wider :
    Runs.Always (step smallEnv fun _ => true) (Kept smallEnv) { rows := [], nextId := 0 }
      (twoSubnets ++ [.batchUpdate [0] [("subnet_mask", .str "29")] false]) := by
  refine (subnets_iff numbered_empty nofun).mpr ⟨trivial, trivial, fun _ _ => ?_, trivial⟩
  unfold Fits Store.Fits
  decide +kernel

/-- **Overlapping.** One address on both of them: the update succeeds, and the subnets overlap. -/
theorem subnets_overlapping :
    ¬Runs.Always (step smallEnv fun _ => true) (Kept smallEnv) { rows := [], nextId := 0 }
      (twoSubnets ++ [.batchUpdate [0, 1] [("subnet_address", .str "10.0.0.4")] false]) := by
  intro h
  have h_disjoint := h.last.1
  revert h_disjoint
  unfold Disjoint Store.Pairwise
  decide +kernel

end Subnets
end Cmdb

import BkLite.Cmdb.Ledger

/-!
# A right ledger over whole runs

The proof that passes which meet addresses in one text each keep the ledger right. A pass only
updates automatic records, and leaves their keys as they are (`of_update`); so records that it does
not create stay apart (`single_applied`), and a second reconciliation finds the records that the
first one has written.
-/

namespace Cmdb
namespace Ledger

open Py Subnets

variable {env : Env} {s : Store} {cis : List Ci} {subnets rows : List Instance}
  {time time' subnetId : String} {alive : List Alive} {organization : Value} {row : Instance}

/-! ### Reading the records -/

theorem of_isText {text : String} {x : Value} (h : isText text x = true) : x = .str text := by
  cases x with
  | str s => rw [of_decide_eq_true h]
  | _ => cases h

theorem isText_self (text : String) : isText text (.str text) = true := decide_eq_true rfl

theorem hasKey_iff {subnet ip : String} {get : String → Value} :
    hasKey env subnet ip get = true ↔
      env.net.str (get "subnet_id") = subnet.toList ∧ get "ip_addr" = .str ip := by
  rw [hasKey, Bool.and_eq_true, decide_eq_true_eq]
  refine and_congr_right fun _ => ⟨of_isText, fun h => ?_⟩
  rw [h]
  exact isText_self ip

theorem find?_congr {p q : Instance → Bool} (h : ∀ row ∈ rows, p row = q row) :
    rows.find? p = rows.find? q := by
  induction rows with
  | nil => rfl
  | cons row rows ih =>
    obtain ⟨h_row, h_rows⟩ := List.forall_mem_cons.mp h
    rw [List.find?_cons, List.find?_cons, h_row, ih h_rows]

section LastWith

variable {p : (String → Value) → Bool}

theorem of_lastWith (h : lastWith p rows = some row) : row ∈ rows ∧ p row.get = true :=
  ⟨List.mem_reverse.mp (List.mem_of_find?_eq_some h),
    List.find?_some (p := fun row : Instance => p row.get) h⟩

theorem not_of_lastWith (h : lastWith p rows = none) (h_row : row ∈ rows) : p row.get ≠ true :=
  List.find?_eq_none.mp h row (List.mem_reverse.mpr h_row)

theorem lastWith_append (later : List Instance) :
    lastWith p (rows ++ later) = (lastWith p later).or (lastWith p rows) := by
  rw [lastWith, List.reverse_append, List.find?_append]
  rfl

theorem lastWith_map {f : Instance → Instance} (h : ∀ row ∈ rows, p (f row).get = p row.get) :
    lastWith p (rows.map f) = (lastWith p rows).map f := by
  rw [lastWith, ← List.map_reverse, List.find?_map, lastWith]
  exact congrArg _ (find?_congr fun row h_row => h row (List.mem_reverse.mp h_row))

end LastWith

/-! ### The CIs at an address -/

/-- What the dict of the occupants has for a text. -/
structure OccupantsOk (env : Env) (subnets : List Instance) (cis : List Ci)
    (occupied : List Occupied) : Prop where
  distinct : occupied.Pairwise fun o o' => o.ip ≠ o'.ip
  entry : ∀ o ∈ occupied, matchSubnetForIp env.net (.str o.ip) subnets = some o.subnet ∧
    o.ips = (cis.filter (·.ip = o.ip)).map fun ci => (ci.model, ci.id)
  known : ∀ o ∈ occupied, ∃ ci ∈ cis, ci.ip = o.ip
  complete : ∀ ci ∈ cis, matchSubnetForIp env.net (.str ci.ip) subnets ≠ none →
    ∃ o ∈ occupied, o.ip = ci.ip

theorem OccupantsOk.concat {occupied : List Occupied} (h : OccupantsOk env subnets cis occupied)
    (ci : Ci) : OccupantsOk env subnets (cis ++ [ci])
      (match matchSubnetForIp env.net (.str ci.ip) subnets with
        | none => occupied
        | some subnet => addOccupant occupied subnet ci) := by
  have h_filter : ∀ ip, (cis ++ [ci]).filter (·.ip = ip) =
      cis.filter (·.ip = ip) ++ if ci.ip = ip then [ci] else [] := by
    intro ip
    rw [List.filter_append, List.filter_singleton]
    by_cases h_ip : ci.ip = ip <;> simp [h_ip]
  cases h_match : matchSubnetForIp env.net (.str ci.ip) subnets with
  | none =>
    have h_ne : ∀ o ∈ occupied, ci.ip ≠ o.ip := by
      intro o h_o h_ip
      rw [h_ip, (h.entry o h_o).1] at h_match
      cases h_match
    refine ⟨h.distinct, fun o h_o => ⟨(h.entry o h_o).1, ?_⟩, fun o h_o => ?_,
      fun ci' h_ci' h_some => ?_⟩
    · rw [h_filter, if_neg (h_ne o h_o), List.append_nil]
      exact (h.entry o h_o).2
    · obtain ⟨ci', h_ci', h_ip⟩ := h.known o h_o
      exact ⟨ci', List.mem_append_left _ h_ci', h_ip⟩
    · obtain h_old | h_new := List.mem_append.mp h_ci'
      · exact h.complete ci' h_old h_some
      · rw [List.mem_singleton.mp h_new] at h_some
        exact absurd h_match h_some
  | some subnet =>
    -- the subnet follows from the text
    have h_same : ∀ o ∈ occupied, o.ip = ci.ip → o.subnet.id = subnet.id := by
      intro o h_o h_ip
      have h_entry := (h.entry o h_o).1
      rw [h_ip, h_match] at h_entry
      rw [Option.some.inj h_entry]
    show OccupantsOk env subnets _ (addOccupant occupied subnet ci)
    unfold addOccupant
    split_ifs with h_any
    · obtain ⟨o₀, h_o₀, h_here⟩ := List.any_eq_true.mp h_any
      obtain ⟨-, h_ip₀⟩ := of_decide_eq_true h_here
      refine ⟨?_, fun o h_o => ?_, fun o h_o => ?_, fun ci' h_ci' h_some => ?_⟩
      · refine List.pairwise_map.mpr (h.distinct.imp fun {o o'} h_ne => ?_)
        split_ifs <;> exact h_ne
      · obtain ⟨o, h_old, rfl⟩ := List.mem_map.mp h_o
        obtain ⟨h_subnet, h_ips⟩ := h.entry o h_old
        by_cases h_ip : o.ip = ci.ip
        · rw [if_pos ⟨h_same o h_old h_ip, h_ip⟩]
          refine ⟨h_subnet, ?_⟩
          show o.ips ++ _ = _
          rw [h_filter, if_pos h_ip.symm, List.map_append, h_ips]
          rfl
        · rw [if_neg fun h_both => h_ip h_both.2, h_filter, if_neg (Ne.symm h_ip), List.append_nil]
          exact ⟨h_subnet, h_ips⟩
      · obtain ⟨o, h_old, rfl⟩ := List.mem_map.mp h_o
        obtain ⟨ci', h_ci', h_ip⟩ := h.known o h_old
        refine ⟨ci', List.mem_append_left _ h_ci', ?_⟩
        split_ifs <;> exact h_ip
      · have h_old : ∃ o ∈ occupied, o.ip = ci'.ip := by
          obtain h_old | h_new := List.mem_append.mp h_ci'
          · exact h.complete ci' h_old h_some
          · rw [List.mem_singleton.mp h_new]
            exact ⟨o₀, h_o₀, h_ip₀⟩
        obtain ⟨o, h_o, h_ip⟩ := h_old
        refine ⟨_, List.mem_map_of_mem h_o, ?_⟩
        split_ifs <;> exact h_ip
    · have h_new : ∀ o ∈ occupied, o.ip ≠ ci.ip := fun o h_o h_ip =>
        h_any (List.any_eq_true.mpr ⟨o, h_o, decide_eq_true ⟨h_same o h_o h_ip, h_ip⟩⟩)
      refine ⟨?_, fun o h_o => ?_, fun o h_o => ?_, fun ci' h_ci' h_some => ?_⟩
      · refine List.pairwise_append.mpr ⟨h.distinct, List.pairwise_singleton _ _, ?_⟩
        intro o h_o o' h_o'
        rw [List.mem_singleton.mp h_o']
        exact h_new o h_o
      · obtain h_o | h_o := List.mem_append.mp h_o
        · rw [h_filter, if_neg (h_new o h_o).symm, List.append_nil]
          exact h.entry o h_o
        · rw [List.mem_singleton.mp h_o]
          refine ⟨h_match, ?_⟩
          -- no CI before it has its text
          have h_none : cis.filter (·.ip = ci.ip) = [] := by
            refine List.filter_eq_nil_iff.mpr fun ci' h_ci' h_ip => ?_
            have h_ip := of_decide_eq_true h_ip
            obtain ⟨o', h_o', h_ip'⟩ := h.complete ci' h_ci' (by rw [h_ip, h_match]; nofun)
            exact h_new o' h_o' (h_ip'.trans h_ip)
          show _ = ((cis ++ [ci]).filter (·.ip = ci.ip)).map _
          rw [h_filter, if_pos rfl, h_none]
          rfl
      · obtain h_o | h_o := List.mem_append.mp h_o
        · obtain ⟨ci', h_ci', h_ip⟩ := h.known o h_o
          exact ⟨ci', List.mem_append_left _ h_ci', h_ip⟩
        · rw [List.mem_singleton.mp h_o]
          exact ⟨ci, List.mem_append_right _ List.mem_cons_self, rfl⟩
      · obtain h_old | h_last := List.mem_append.mp h_ci'
        · obtain ⟨o, h_o, h_ip⟩ := h.complete ci' h_old h_some
          exact ⟨o, List.mem_append_left _ h_o, h_ip⟩
        · rw [List.mem_singleton.mp h_last]
          exact ⟨_, List.mem_append_right _ List.mem_cons_self, rfl⟩

theorem occupantsOk (env : Env) (subnets : List Instance) (cis : List Ci) :
    OccupantsOk env subnets cis (occupants env subnets cis) := by
  induction cis using List.reverseRecOn with
  | nil => exact ⟨.nil, nofun, nofun, nofun⟩
  | append_singleton cis ci ih =>
    unfold occupants
    rw [List.foldl_concat]
    exact ih.concat ci

/-! ### The writes of a pass -/

section Writes

theorem of_writeFor {prev : Option Instance} {payload : Props} {w : Write}
    (h : writeFor prev payload = some w) :
    prev.all (fun row => isAuto row.get) = true ∧ w = upsert prev payload := by
  unfold writeFor at h
  split_ifs at h with h_manual
  refine ⟨?_, (Option.some.inj h).symm⟩
  cases prev with
  | none => rfl
  | some row => simpa using h_manual

theorem of_upsert_update {prev : Option Instance} {payload props : Props} {id : ℕ}
    (h : .update id props = upsert prev payload) :
    ∃ row, prev = some row ∧ row.id = id ∧ props = payload := by
  unfold upsert at h
  cases prev with
  | none => cases h
  | some row =>
    simp only at h
    split_ifs at h
    obtain ⟨rfl, rfl⟩ := Write.update.inj h
    exact ⟨row, rfl, rfl, rfl⟩

theorem of_upsert_create {prev : Option Instance} {payload props : Props}
    (h_prev : ∀ row, prev = some row → row.id ≠ 0) (h : .create props = upsert prev payload) :
    prev = none ∧ props = payload := by
  unfold upsert at h
  cases prev with
  | none => exact ⟨rfl, Write.create.inj h⟩
  | some row =>
    simp only [if_neg (h_prev row rfl)] at h
    cases h

theorem mem_markOffline {here : (String → Value) → Bool} {w : Write} :
    w ∈ markOffline here rows ↔ ∃ row ∈ rows, isAuto row.get = true ∧ here row.get = false ∧
      w = .update row.id [("ip_status", .list [.str "offline"])] := by
  unfold markOffline
  rw [List.mem_filterMap]
  refine exists_congr fun row => and_congr_right fun _ => ?_
  cases isAuto row.get <;> cases here row.get <;> simp [eq_comm]

/-- What an update writes leaves the key of the record as it is. -/
structure Keeps (env : Env) (row : Instance) (props : Props) : Prop where
  auto : isAuto row.get = true ∧ (props.Has "auto_collect" → isTrue (props.get "auto_collect") = true)
  ip : props.Has "ip_addr" → props.get "ip_addr" = row.get "ip_addr"
  subnet : props.Has "subnet_id" →
    env.net.str (props.get "subnet_id") = env.net.str (row.get "subnet_id")

def Updates (env : Env) (rows : List Instance) (writes : List Write) : Prop :=
  ∀ id props, .update id props ∈ writes → ∃ row ∈ rows, row.id = id ∧ Keeps env row props

theorem keeps_offline (h : isAuto row.get = true) :
    Keeps env row [("ip_status", .list [.str "offline"])] := by
  refine ⟨⟨h, fun h_has => ?_⟩, fun h_has => ?_, fun h_has => ?_⟩ <;>
    exact absurd h_has (by decide)

theorem str_text (text : String) : env.net.str (.str text) = text.toList := env.str_str text

theorem updates_reconcile (cis : List Ci) (subnets : List Instance) (time : String) :
    Updates env rows (reconcileWrites env cis subnets time rows) := by
  intro id props h_mem
  obtain h_mem | h_mem := List.mem_append.mp h_mem
  · obtain ⟨o, -, h_write⟩ := List.mem_filterMap.mp h_mem
    obtain ⟨h_auto, h_update⟩ := of_writeFor h_write
    obtain ⟨row, h_prev, h_id, rfl⟩ := of_upsert_update h_update
    obtain ⟨h_row, h_key⟩ := of_lastWith h_prev
    obtain ⟨h_subnet, h_ip⟩ := hasKey_iff.mp h_key
    rw [h_prev] at h_auto
    exact ⟨row, h_row, h_id, ⟨h_auto, fun _ => rfl⟩, fun _ => h_ip.symm,
      fun _ => (str_text _).trans h_subnet.symm⟩
  · obtain ⟨row, h_row, h_auto, -, h_update⟩ := mem_markOffline.mp h_mem
    obtain ⟨rfl, rfl⟩ := Write.update.inj h_update
    exact ⟨row, h_row, rfl, keeps_offline h_auto⟩

theorem updates_discover (subnetId : String) (alive : List Alive) (organization : Value)
    (time : String) :
    Updates env rows (discoverWrites subnetId alive organization time rows) := by
  intro id props h_mem
  obtain h_mem | h_mem := List.mem_append.mp h_mem
  · obtain ⟨a, -, h_write⟩ := List.mem_filterMap.mp h_mem
    obtain ⟨h_auto, h_update⟩ := of_writeFor h_write
    obtain ⟨row, h_prev, h_id, rfl⟩ := of_upsert_update h_update
    obtain ⟨h_row, h_ip⟩ := of_lastWith h_prev
    obtain ⟨h_row, h_subnet⟩ := List.mem_filter.mp h_row
    rw [h_prev] at h_auto
    refine ⟨row, h_row, h_id, ⟨h_auto, fun _ => rfl⟩, fun _ => (of_isText h_ip).symm, fun _ => ?_⟩
    rw [of_isText h_subnet]
    rfl
  · obtain ⟨row, h_row, h_auto, -, h_update⟩ := mem_markOffline.mp h_mem
    obtain ⟨rfl, rfl⟩ := Write.update.inj h_update
    exact ⟨row, (List.mem_filter.mp h_row).1, rfl, keeps_offline h_auto⟩

theorem Updates.keeps {writes : List Write} (h : Updates env s.rows writes)
    (h_numbered : s.Numbered) (h_row : row ∈ s.rows) {props : Props}
    (h_mem : .update row.id props ∈ writes) : Keeps env row props := by
  obtain ⟨row', h_row', h_id, h_keeps⟩ := h row.id props h_mem
  obtain rfl := h_numbered.eq_of_id h_row' h_row h_id
  exact h_keeps

theorem Updates.lt {writes : List Write} (h : Updates env s.rows writes)
    (h_numbered : s.Numbered) (id : ℕ) (props : Props) (h_mem : .update id props ∈ writes) :
    id < s.nextId := by
  obtain ⟨row, h_row, rfl, -⟩ := h id props h_mem
  exact h_numbered.below row h_row

theorem Updates.mono {writes done : List Write} (h : Updates env rows writes)
    (h_done : done <+: writes) : Updates env rows done := fun id props h_mem =>
  h id props (h_done.subset h_mem)

theorem Updates.touched_manual {writes : List Write} (h : Updates env s.rows writes)
    (h_numbered : s.Numbered) (h_row : row ∈ s.rows) (h_manual : isAuto row.get = false) :
    touched env.editable writes row = row := by
  refine touched_of_none fun props h_mem => ?_
  have h_auto := (h.keeps h_numbered h_row h_mem).auto.1
  rw [h_manual] at h_auto
  cases h_auto

theorem Updates.touched_key {writes : List Write} (h : Updates env s.rows writes)
    (h_numbered : s.Numbered) (h_row : row ∈ s.rows) :
    isAuto (touched env.editable writes row).get = isAuto row.get ∧
      (touched env.editable writes row).get "ip_addr" = row.get "ip_addr" ∧
      env.net.str ((touched env.editable writes row).get "subnet_id") =
        env.net.str (row.get "subnet_id") := by
  refine ⟨?_, ?_, ?_⟩
  · cases h_auto : isAuto row.get with
    | false => rw [h.touched_manual h_numbered h_row h_auto, h_auto]
    | true =>
      exact touched_invariant (P := fun x => isTrue x = true) h_auto fun props h_mem h_has =>
        (h.keeps h_numbered h_row h_mem).auto.2 h_has
  · exact touched_invariant (P := fun x => x = row.get "ip_addr") rfl fun props h_mem h_has =>
      (h.keeps h_numbered h_row h_mem).ip h_has
  · exact touched_invariant (P := fun x => env.net.str x = env.net.str (row.get "subnet_id")) rfl
      fun props h_mem h_has => (h.keeps h_numbered h_row h_mem).subnet h_has

end Writes

/-! ### Records stay apart -/

section Single

theorem Double.symm {get get' : String → Value} (h : Double env get get') : Double env get' get := by
  obtain ⟨h_auto, h_auto', h_subnet, h_some, h_ip⟩ := h
  exact ⟨h_auto', h_auto, h_subnet.symm, h_ip ▸ h_some, h_ip.symm⟩

theorem ipOf_congr (env : Env) {get get' : String → Value} (h : get "ip_addr" = get' "ip_addr") :
    ipOf env get = ipOf env get' := by
  rw [ipOf, ipOf, h]

theorem Updates.double {writes : List Write} (h : Updates env s.rows writes)
    (h_numbered : s.Numbered) (h_row : row ∈ s.rows) {get : String → Value}
    (h_double : Double env get (touched env.editable writes row).get) : Double env get row.get := by
  obtain ⟨h_auto, h_ip, h_subnet⟩ := h.touched_key h_numbered h_row
  unfold Double at h_double ⊢
  rwa [h_auto, h_subnet, ipOf_congr env h_ip] at h_double

/-- **Apart.** Records stay apart if what a pass creates is apart from them and each other. -/
theorem single_applied {writes : List Write} (h_numbered : s.Numbered)
    (h_updates : Updates env s.rows writes)
    (h_single : s.Pairwise fun get get' => ¬Double env get get')
    (h_new : (creates writes).Pairwise fun props props' => ¬Double env props.get props'.get)
    (h_old : ∀ props, .create props ∈ writes → ∀ row ∈ s.rows, ¬Double env props.get row.get) :
    (applied env.editable writes s).Pairwise fun get get' => ¬Double env get get' := by
  intro i h_i j h_j h_ne h_double
  rw [rows_applied (h_updates.lt h_numbered)] at h_i h_j
  obtain h_i | h_i := List.mem_append.mp h_i <;> obtain h_j | h_j := List.mem_append.mp h_j
  · obtain ⟨row, h_row, rfl⟩ := List.mem_map.mp h_i
    obtain ⟨row', h_row', rfl⟩ := List.mem_map.mp h_j
    rw [id_touched, id_touched] at h_ne
    have h_half := h_updates.double h_numbered h_row' h_double
    exact h_single row' h_row' row h_row h_ne.symm (h_updates.double h_numbered h_row h_half.symm)
  · obtain ⟨row, h_row, rfl⟩ := List.mem_map.mp h_i
    obtain ⟨-, props, h_create, h_get⟩ := mem_created h_j
    rw [h_get] at h_double
    exact h_old props h_create row h_row (h_updates.double h_numbered h_row h_double.symm)
  · obtain ⟨-, props, h_create, h_get⟩ := mem_created h_i
    obtain ⟨row, h_row, rfl⟩ := List.mem_map.mp h_j
    rw [h_get] at h_double
    exact h_old props h_create row h_row (h_updates.double h_numbered h_row h_double)
  · have h_pairs := pairwise_created (n := s.nextId)
      (R := fun get get' => ¬Double env get get') h_new
    have h_ne : i ≠ j := fun h_eq => h_ne (congrArg Instance.id h_eq)
    refine List.Pairwise.forall_of_forall_of_flip
      (R := fun x y : Instance => x ≠ y → ¬Double env x.get y.get)
      (fun _ _ h_ne => absurd rfl h_ne) ?_ ?_ h_i h_j h_ne h_double
    · exact h_pairs.imp fun {x y} h_apart (_ : x ≠ y) => h_apart
    · exact h_pairs.imp fun {x y} h_apart (_ : y ≠ x) h_double => h_apart h_double.symm

theorem isPrefix_creates {writes done : List Write} (h : done <+: writes) :
    creates done <+: creates writes := h.filterMap _

theorem kept_of_pass {writes : List Write} (h_numbered : s.Numbered)
    (h_updates : Updates env s.rows writes)
    (h_single : s.Pairwise fun get get' => ¬Double env get get')
    (h_new : (creates writes).Pairwise fun props props' => ¬Double env props.get props'.get)
    (h_old : ∀ props, .create props ∈ writes → ∀ row ∈ s.rows, ¬Double env props.get row.get) :
    (∀ row ∈ s.rows, isAuto row.get = false →
      row ∈ (perform env.editable env.refused writes s).1.rows) ∧
    (perform env.editable env.refused writes s).1.Pairwise fun get get' => ¬Double env get get' := by
  obtain ⟨done, h_done, h_store, -⟩ := perform_eq env.editable env.refused writes s
  have h_updates := h_updates.mono h_done
  rw [h_store]
  refine ⟨fun row h_row h_manual => ?_, ?_⟩
  · rw [rows_applied (h_updates.lt h_numbered)]
    refine List.mem_append_left _ (List.mem_map.mpr ⟨row, h_row, ?_⟩)
    exact h_updates.touched_manual h_numbered h_row h_manual
  · exact single_applied h_numbered h_updates h_single
      (h_new.sublist (isPrefix_creates h_done).sublist)
      fun props h_create => h_old props (h_done.subset h_create)

theorem of_create_mem {X : Type*} {xs : List X} {record : X → Option Instance} {payload : X → Props}
    {here : (String → Value) → Bool} {props : Props}
    (h_ids : ∀ x ∈ xs, ∀ row, record x = some row → row.id ≠ 0)
    (h : .create props ∈ xs.filterMap (fun x => writeFor (record x) (payload x)) ++
      markOffline here rows) : ∃ x ∈ xs, record x = none ∧ props = payload x := by
  obtain h_mem | h_mem := List.mem_append.mp h
  · obtain ⟨x, h_x, h_write⟩ := List.mem_filterMap.mp h_mem
    obtain ⟨h_none, h_props⟩ := of_upsert_create (h_ids x h_x) (of_writeFor h_write).2
    exact ⟨x, h_x, h_none, h_props⟩
  · obtain ⟨_, -, -, -, h_create⟩ := mem_markOffline.mp h_mem
    cases h_create

theorem create_of_some {w : Write} {props : Props}
    (h : (match w with
      | .create props => some props
      | .update _ _ => none) = some props) : w = .create props := by
  cases w with
  | create _ => rw [Option.some.inj h]
  | update _ _ => cases h

theorem pairwise_creates {X : Type*} {xs : List X} {record : X → Option Instance}
    {payload : X → Props} {here : (String → Value) → Bool} {R : Props → Props → Prop}
    (h_ids : ∀ x ∈ xs, ∀ row, record x = some row → row.id ≠ 0)
    (h : xs.Pairwise fun x y => record x = none → record y = none → R (payload x) (payload y)) :
    (creates (xs.filterMap (fun x => writeFor (record x) (payload x)) ++
      markOffline here rows)).Pairwise R := by
  have h_offline : creates (markOffline here rows) = [] := by
    refine List.filterMap_eq_nil_iff.mpr fun w h_w => ?_
    obtain ⟨_, -, -, -, rfl⟩ := mem_markOffline.mp h_w
    rfl
  unfold creates at h_offline ⊢
  rw [List.filterMap_append, h_offline, List.append_nil, List.pairwise_filterMap,
    List.pairwise_filterMap]
  refine h.imp_of_mem fun {x y} h_x h_y h_xy w h_w w' h_w' props h_create props' h_create' => ?_
  obtain ⟨-, rfl⟩ := of_writeFor h_w
  obtain ⟨-, rfl⟩ := of_writeFor h_w'
  obtain ⟨h_none, rfl⟩ := of_upsert_create (h_ids x h_x) (create_of_some h_create).symm
  obtain ⟨h_none', rfl⟩ := of_upsert_create (h_ids y h_y) (create_of_some h_create').symm
  exact h_xy h_none h_none'

theorem kept_reconcile (time : String) (h_numbered : s.Numbered) (h_ids : ∀ row ∈ s.rows, row.id ≠ 0)
    (h_single : s.Pairwise fun get get' => ¬Double env get get')
    (h_plain : PlainCis env cis subnets s) :
    (∀ row ∈ s.rows, isAuto row.get = false → row ∈ (perform env.editable env.refused
      (reconcileWrites env cis subnets time s.rows) s).1.rows) ∧
    (perform env.editable env.refused (reconcileWrites env cis subnets time s.rows) s).1.Pairwise
      fun get get' => ¬Double env get get' := by
  have h_ok := occupantsOk env subnets cis
  have h_records : ∀ o ∈ occupants env subnets cis, ∀ row, recordOf env o s.rows = some row →
      row.id ≠ 0 := fun o _ row h_row => h_ids row (of_lastWith h_row).1
  have h_at : ∀ o ∈ occupants env subnets cis, recordOf env o s.rows = none →
      recordAt env subnets s.rows o.ip = some none := by
    intro o h_o h_none
    rw [recordAt, (h_ok.entry o h_o).1, Option.map_some]
    exact congrArg some h_none
  refine kept_of_pass h_numbered (updates_reconcile cis subnets time) h_single
    (pairwise_creates h_records (h_ok.distinct.imp_of_mem ?_)) fun props h_create row h_row => ?_
  · rintro o o' h_o h_o' h_ne h_none h_none' ⟨-, -, -, -, h_ip⟩
    obtain ⟨ci, h_ci, h_text⟩ := h_ok.known o h_o
    obtain ⟨ci', h_ci', h_text'⟩ := h_ok.known o' h_o'
    refine h_ne ?_
    rw [← h_text, ← h_text']
    refine h_plain.oneText ci h_ci ci' h_ci' ?_ ?_ ?_
    · rw [h_text]
      exact h_at o h_o h_none
    · rw [h_text']
      exact h_at o' h_o' h_none'
    · rw [h_text, h_text']
      exact h_ip
  · rintro ⟨-, h_auto, h_subnet, -, h_ip⟩
    obtain ⟨o, h_o, h_none, rfl⟩ := of_create_mem h_records h_create
    obtain ⟨ci, h_ci, h_text⟩ := h_ok.known o h_o
    have h_entry := (h_ok.entry o h_o).1
    rw [← h_text] at h_entry
    unfold recordOf at h_none
    rw [← h_text] at h_none
    refine h_plain.unseen ci h_ci o.subnet h_entry h_none row h_row h_auto ?_ ?_
    · exact h_subnet.symm.trans (str_text _)
    · rw [h_text]
      exact h_ip.symm

theorem kept_discover (organization : Value) (time : String) (h_numbered : s.Numbered) (h_ids : ∀ row ∈ s.rows, row.id ≠ 0)
    (h_single : s.Pairwise fun get get' => ¬Double env get get')
    (h_plain : PlainAlive env subnetId alive s) :
    (∀ row ∈ s.rows, isAuto row.get = false → row ∈ (perform env.editable env.refused
      (discoverWrites subnetId alive organization time s.rows) s).1.rows) ∧
    (perform env.editable env.refused
      (discoverWrites subnetId alive organization time s.rows) s).1.Pairwise
      fun get get' => ¬Double env get get' := by
  have h_records : ∀ a ∈ alive, ∀ row, aliveRecord subnetId a s.rows = some row → row.id ≠ 0 :=
    fun a _ row h_row => h_ids row (List.mem_filter.mp (of_lastWith h_row).1).1
  refine kept_of_pass h_numbered (updates_discover subnetId alive organization time) h_single
    (pairwise_creates h_records (h_plain.once.imp ?_)) fun props h_create row h_row => ?_
  · rintro a b h_once h_none h_none' ⟨-, -, -, h_some, h_ip⟩
    obtain h_text | h_text := h_once h_none h_none'
    · exact h_some h_text
    · exact h_text h_ip
  · rintro ⟨-, h_auto, h_subnet, h_some, h_ip⟩
    obtain ⟨a, h_a, h_none, rfl⟩ := of_create_mem h_records h_create
    have h_same : env.net.str (row.get "subnet_id") = subnetId.toList :=
      h_subnet.symm.trans (str_text subnetId)
    obtain h_text | h_text := h_plain.unseen a h_a h_none row h_row h_auto h_same
    · exact h_some h_text
    · exact h_text h_ip.symm

end Single

/-! ### After a reconciliation -/

section Reconciled

theorem eq_of_ip {o o' : Occupied} (h_o : o ∈ occupants env subnets cis)
    (h_o' : o' ∈ occupants env subnets cis) (h_ip : o.ip = o'.ip) : o = o' := by
  by_contra h_ne
  have h_distinct := (occupantsOk env subnets cis).distinct
  refine List.Pairwise.forall_of_forall_of_flip
    (R := fun o o' : Occupied => o ≠ o' → o.ip ≠ o'.ip) (fun _ _ h_ne => absurd rfl h_ne) ?_ ?_
    h_o h_o' h_ne h_ip
  · exact h_distinct.imp fun {x y} h_xy (_ : x ≠ y) => h_xy
  · exact h_distinct.imp fun {x y} h_xy (_ : y ≠ x) => h_xy.symm

theorem eq_of_hasKey {o o' : Occupied} {subnet subnet' : String} {get : String → Value}
    (h_o : o ∈ occupants env subnets cis) (h_o' : o' ∈ occupants env subnets cis)
    (h : hasKey env subnet o.ip get = true) (h' : hasKey env subnet' o'.ip get = true) : o = o' := by
  refine eq_of_ip h_o h_o' (Value.str.inj ?_)
  exact (hasKey_iff.mp h).2.symm.trans (hasKey_iff.mp h').2

theorem hasKey_payload {o : Occupied} :
    hasKey env (toString o.subnet.id) o.ip (reconcilePayload time o).get = true :=
  hasKey_iff.mpr ⟨str_text (toString o.subnet.id), rfl⟩

theorem occupies_eq_false {occupied : List Occupied} {get : String → Value} :
    occupies env occupied get = false ↔
      ∀ o ∈ occupied, hasKey env (toString o.subnet.id) o.ip get = false := by
  rw [occupies, List.any_eq_false]
  exact forall₂_congr fun o _ => Bool.eq_false_iff.symm

theorem of_update (h_numbered : s.Numbered) (h_row : row ∈ s.rows) {props : Props}
    (h : .update row.id props ∈ reconcileWrites env cis subnets time s.rows) :
    (∃ o ∈ occupants env subnets cis, recordOf env o s.rows = some row ∧
      props = reconcilePayload time o) ∨
    occupies env (occupants env subnets cis) row.get = false ∧
      props = [("ip_status", .list [.str "offline"])] := by
  obtain h_mem | h_mem := List.mem_append.mp h
  · obtain ⟨o, h_o, h_write⟩ := List.mem_filterMap.mp h_mem
    obtain ⟨row', h_prev, h_id, rfl⟩ := of_upsert_update (of_writeFor h_write).2
    obtain rfl := h_numbered.eq_of_id (of_lastWith h_prev).1 h_row h_id
    exact .inl ⟨o, h_o, h_prev, rfl⟩
  · obtain ⟨row', h_row', -, h_free, h_update⟩ := mem_markOffline.mp h_mem
    obtain ⟨h_id, rfl⟩ := Write.update.inj h_update
    obtain rfl := h_numbered.eq_of_id h_row' h_row h_id.symm
    exact .inr ⟨h_free, rfl⟩

theorem status_of_record (h_numbered : s.Numbered) (h_ids : ∀ row ∈ s.rows, row.id ≠ 0)
    (h_auto : isAuto row.get = true) {o : Occupied} (h_o : o ∈ occupants env subnets cis)
    (h_record : recordOf env o s.rows = some row) :
    (touched env.editable (reconcileWrites env cis subnets time s.rows) row).get "ip_status" =
      .list [.str (decideIpStatus o.ips)] := by
  obtain ⟨h_row, h_key⟩ := of_lastWith h_record
  have h_write : .update row.id (reconcilePayload time o) ∈
      reconcileWrites env cis subnets time s.rows := by
    refine List.mem_append_left _ (List.mem_filterMap.mpr ⟨o, h_o, ?_⟩)
    rw [h_record]
    unfold writeFor upsert
    simp [h_auto, h_ids row h_row]
  refine touched_of_mem (P := fun x => x = .list [.str (decideIpStatus o.ips)])
    env.editable_status h_write fun props h_mem => ?_
  obtain ⟨o', h_o', h_record', rfl⟩ | ⟨h_free, -⟩ := of_update h_numbered h_row h_mem
  · obtain rfl := eq_of_hasKey h_o h_o' h_key (of_lastWith h_record').2
    exact ⟨by simp [Props.Has, reconcilePayload], rfl⟩
  · rw [occupies_eq_false.mp h_free o h_o] at h_key
    cases h_key

theorem status_of_free (h_numbered : s.Numbered) (h_row : row ∈ s.rows)
    (h_auto : isAuto row.get = true)
    (h_free : occupies env (occupants env subnets cis) row.get = false) :
    (touched env.editable (reconcileWrites env cis subnets time s.rows) row).get "ip_status" =
      .list [.str "offline"] := by
  have h_write : .update row.id [("ip_status", .list [.str "offline"])] ∈
      reconcileWrites env cis subnets time s.rows :=
    List.mem_append_right _ (mem_markOffline.mpr ⟨row, h_row, h_auto, h_free, rfl⟩)
  refine touched_of_mem (P := fun x => x = .list [.str "offline"]) env.editable_status h_write
    fun props h_mem => ?_
  obtain ⟨o, h_o, h_record, -⟩ | ⟨-, rfl⟩ := of_update h_numbered h_row h_mem
  · have h_key := (of_lastWith h_record).2
    rw [occupies_eq_false.mp h_free o h_o] at h_key
    cases h_key
  · exact ⟨by decide, rfl⟩

theorem touched_of_hidden (h_numbered : s.Numbered) (h_row : row ∈ s.rows) {o : Occupied}
    (h_o : o ∈ occupants env subnets cis)
    (h_key : hasKey env (toString o.subnet.id) o.ip row.get = true)
    (h_other : recordOf env o s.rows ≠ some row) :
    touched env.editable (reconcileWrites env cis subnets time s.rows) row = row := by
  refine touched_of_none fun props h_mem => ?_
  obtain ⟨o', h_o', h_record, -⟩ | ⟨h_free, -⟩ := of_update h_numbered h_row h_mem
  · obtain rfl := eq_of_hasKey h_o h_o' h_key (of_lastWith h_record).2
    exact h_other h_record
  · rw [occupies_eq_false.mp h_free o h_o] at h_key
    cases h_key

theorem counted_of_entry (h_plain : PlainCis env cis subnets s) {o : Occupied}
    (h_o : o ∈ occupants env subnets cis)
    (h_auto : (recordOf env o s.rows).all (fun row => isAuto row.get) = true) :
    decideIpStatus o.ips = statusAt env cis (ipOfText env o.ip) := by
  have h_ok := occupantsOk env subnets cis
  obtain ⟨ci, h_ci, h_text⟩ := h_ok.known o h_o
  obtain ⟨h_subnet, h_ips⟩ := h_ok.entry o h_o
  rw [h_ips, ← h_text]
  refine h_plain.counted ci h_ci (recordOf env o s.rows) ?_ h_auto
  rw [recordAt, h_text, h_subnet]
  rfl

theorem of_created (h_ids : ∀ row ∈ s.rows, row.id ≠ 0) {inst : Instance}
    (h : inst ∈ created s.nextId (reconcileWrites env cis subnets time s.rows)) :
    ∃ o ∈ occupants env subnets cis, recordOf env o s.rows = none ∧
      inst.get = (reconcilePayload time o).get := by
  obtain ⟨-, props, h_create, h_get⟩ := mem_created h
  obtain ⟨o, h_o, h_none, rfl⟩ := of_create_mem
    (fun o _ row h_row => h_ids row (of_lastWith h_row).1) h_create
  exact ⟨o, h_o, h_none, h_get⟩

/-- **Accurate.** When a reconciliation has come to its end, every automatic record has the status
of its address. -/
theorem accurate_applied (h_numbered : s.Numbered) (h_ids : ∀ row ∈ s.rows, row.id ≠ 0)
    (h_plain : PlainCis env cis subnets s) :
    Accurate env cis
      (applied env.editable (reconcileWrites env cis subnets time s.rows) s) := by
  have h_updates : Updates env s.rows (reconcileWrites env cis subnets time s.rows) :=
    updates_reconcile cis subnets time
  have h_ok := occupantsOk env subnets cis
  intro inst h_inst h_auto
  rw [rows_applied (h_updates.lt h_numbered)] at h_inst
  obtain h_inst | h_inst := List.mem_append.mp h_inst
  · obtain ⟨row, h_row, rfl⟩ := List.mem_map.mp h_inst
    obtain ⟨h_same, h_ip, -⟩ := h_updates.touched_key h_numbered h_row
    rw [h_same] at h_auto
    rw [ipOf_congr env h_ip]
    cases h_free : occupies env (occupants env subnets cis) row.get with
    | false =>
      rw [status_of_free h_numbered h_row h_auto h_free]
      -- no CI is at the address
      have h_none : ∀ ci ∈ cis, ¬Occupies env subnets ci row.get := by
        rintro ci h_ci ⟨subnet, h_subnet, h_key⟩
        obtain ⟨o, h_o, h_text⟩ := h_ok.complete ci h_ci (by rw [h_subnet]; nofun)
        have h_entry := (h_ok.entry o h_o).1
        rw [h_text, h_subnet] at h_entry
        have h_not := occupies_eq_false.mp h_free o h_o
        rw [← Option.some.inj h_entry, h_text, h_key] at h_not
        cases h_not
      have h_gone := h_plain.gone row h_row h_auto h_none
      cases h_address : ipOf env row.get with
      | none => rfl
      | some address =>
        have h_nobody : cis.filter (fun ci => ipOfText env ci.ip = some address) = [] := by
          refine List.filter_eq_nil_iff.mpr fun ci h_ci h_at => ?_
          have h_at := of_decide_eq_true h_at
          obtain h_text | h_text := h_gone ci h_ci
          · rw [h_text] at h_at
            cases h_at
          · exact h_text (h_at.trans h_address.symm)
        rw [statusAt, h_nobody]
        rfl
    | true =>
      obtain ⟨o, h_o, h_key⟩ := List.any_eq_true.mp h_free
      obtain ⟨ci, h_ci, h_text⟩ := h_ok.known o h_o
      have h_entry := (h_ok.entry o h_o).1
      have h_address : ipOf env row.get = ipOfText env o.ip := by
        rw [ipOf, (hasKey_iff.mp h_key).2]
        rfl
      by_cases h_record : recordOf env o s.rows = some row
      · rw [status_of_record h_numbered h_ids h_auto h_o h_record, h_address,
          counted_of_entry h_plain h_o (by rw [h_record]; exact h_auto)]
      · rw [touched_of_hidden h_numbered h_row h_o h_key h_record]
        have h_occupies : Occupies env subnets ci row.get := by
          refine ⟨o.subnet, ?_, ?_⟩
          · rw [h_text, h_entry]
          · rw [h_text, h_key]
        refine (h_plain.shown row h_row h_auto ci h_ci h_occupies).resolve_left fun h_at => ?_
        rw [recordAt, h_text, h_entry] at h_at
        exact h_record (Option.some.inj h_at)
  · obtain ⟨o, h_o, h_none, h_get⟩ := of_created h_ids h_inst
    rw [h_get]
    show Value.list [.str (decideIpStatus o.ips)] =
      .list [.str (statusAt env cis (ipOfText env o.ip))]
    rw [counted_of_entry h_plain h_o (by rw [h_none]; rfl)]

section Again

variable (h_numbered : s.Numbered) (h_ids : ∀ row ∈ s.rows, row.id ≠ 0) (h_next : s.nextId ≠ 0)

include h_numbered h_ids h_next in
theorem record_again {o : Occupied} (h_o : o ∈ occupants env subnets cis) :
    ∃ row, recordOf env o
        (applied env.editable (reconcileWrites env cis subnets time s.rows) s).rows = some row ∧
      row.id ≠ 0 ∧ (isAuto row.get = true →
        row.get "ip_status" = .list [.str (decideIpStatus o.ips)]) := by
  have h_updates : Updates env s.rows (reconcileWrites env cis subnets time s.rows) :=
    updates_reconcile cis subnets time
  have h_keys : ∀ row ∈ s.rows, hasKey env (toString o.subnet.id) o.ip (touched env.editable
      (reconcileWrites env cis subnets time s.rows) row).get =
        hasKey env (toString o.subnet.id) o.ip row.get := by
    intro row h_row
    obtain ⟨-, h_ip, h_subnet⟩ := h_updates.touched_key h_numbered h_row
    rw [hasKey, h_ip, h_subnet]
    rfl
  rw [recordOf, rows_applied (h_updates.lt h_numbered), lastWith_append, lastWith_map h_keys]
  cases h_new : lastWith (hasKey env (toString o.subnet.id) o.ip)
      (created s.nextId (reconcileWrites env cis subnets time s.rows)) with
  | some inst =>
    obtain ⟨h_inst, h_key⟩ := of_lastWith h_new
    obtain ⟨o', h_o', h_none, h_get⟩ := of_created h_ids h_inst
    have h_le := (mem_created h_inst).1
    refine ⟨inst, rfl, by omega, fun _ => ?_⟩
    rw [h_get] at h_key ⊢
    obtain rfl := eq_of_hasKey h_o h_o' h_key hasKey_payload
    rfl
  | none =>
    cases h_old : lastWith (hasKey env (toString o.subnet.id) o.ip) s.rows with
    | some row =>
      refine ⟨_, rfl, ?_, fun h_auto => ?_⟩
      · rw [id_touched]
        exact h_ids row (of_lastWith h_old).1
      · rw [(h_updates.touched_key h_numbered (of_lastWith h_old).1).1] at h_auto
        exact status_of_record h_numbered h_ids h_auto h_o h_old
    | none =>
      -- then the first reconciliation has created one
      have h_create : .create (reconcilePayload time o) ∈
          reconcileWrites env cis subnets time s.rows := by
        refine List.mem_append_left _ (List.mem_filterMap.mpr ⟨o, h_o, ?_⟩)
        rw [recordOf, h_old]
        rfl
      obtain ⟨inst, h_inst, h_get⟩ := exists_created (n := s.nextId) h_create
      refine absurd ?_ (not_of_lastWith h_new h_inst)
      rw [h_get]
      exact hasKey_payload

include h_numbered h_ids h_next in
theorem statuses_again :
    statuses (perform env.editable env.refused (reconcileWrites env cis subnets time'
        (applied env.editable (reconcileWrites env cis subnets time s.rows) s).rows)
      (applied env.editable (reconcileWrites env cis subnets time s.rows) s)).1 =
    statuses (applied env.editable (reconcileWrites env cis subnets time s.rows) s) := by
  have h_first : Updates env s.rows (reconcileWrites env cis subnets time s.rows) :=
    updates_reconcile cis subnets time
  have h_records : ∀ o ∈ occupants env subnets cis, ∃ row, recordOf env o
      (applied env.editable (reconcileWrites env cis subnets time s.rows) s).rows = some row ∧
        row.id ≠ 0 ∧ (isAuto row.get = true →
          row.get "ip_status" = .list [.str (decideIpStatus o.ips)]) :=
    fun o h_o => record_again h_numbered h_ids h_next h_o
  have h_free : ∀ row ∈ (applied env.editable (reconcileWrites env cis subnets time s.rows) s).rows,
      isAuto row.get = true → occupies env (occupants env subnets cis) row.get = false →
        row.get "ip_status" = .list [.str "offline"] := by
    intro row h_row h_auto h_free
    rw [rows_applied (h_first.lt h_numbered)] at h_row
    obtain h_row | h_row := List.mem_append.mp h_row
    · obtain ⟨row, h_old, rfl⟩ := List.mem_map.mp h_row
      obtain ⟨h_same, h_ip, h_subnet⟩ := h_first.touched_key h_numbered h_old
      refine status_of_free h_numbered h_old (h_same.symm.trans h_auto) ?_
      refine occupies_eq_false.mpr fun o h_o => ?_
      rw [← occupies_eq_false.mp h_free o h_o, hasKey, hasKey, h_ip, h_subnet]
    · obtain ⟨o, h_o, -, h_get⟩ := of_created h_ids h_row
      have h_key := occupies_eq_false.mp h_free o h_o
      rw [h_get, hasKey_payload] at h_key
      cases h_key
  generalize h_t : applied env.editable (reconcileWrites env cis subnets time s.rows) s = t at *
  have h_numbered' : t.Numbered := h_t ▸ h_numbered.applied
  obtain ⟨done, h_done, h_store, -⟩ := perform_eq env.editable env.refused
    (reconcileWrites env cis subnets time' t.rows) t
  have h_updates : Updates env t.rows done := (updates_reconcile cis subnets time').mono h_done
  have h_no_create : ∀ props, .create props ∉ done := by
    intro props h_create
    obtain h_mem | h_mem := List.mem_append.mp (h_done.subset h_create)
    · obtain ⟨o, h_o, h_write⟩ := List.mem_filterMap.mp h_mem
      obtain ⟨row, h_row, h_id, -⟩ := h_records o h_o
      obtain ⟨h_none, -⟩ := of_upsert_create
        (fun row' h_row' => Option.some.inj (h_row.symm.trans h_row') ▸ h_id) (of_writeFor h_write).2
      rw [h_row] at h_none
      cases h_none
    · obtain ⟨_, -, -, -, h_update⟩ := mem_markOffline.mp h_mem
      cases h_update
  rw [h_store, statuses, statuses, rows_applied (h_updates.lt h_numbered'),
    created_eq_nil h_no_create, List.append_nil, List.map_map]
  refine List.map_congr_left fun row h_row => Prod.ext id_touched ?_
  refine touched_invariant (P := fun x => x = row.get "ip_status") rfl fun props h_mem _ => ?_
  have h_auto := (h_updates.keeps h_numbered' h_row h_mem).auto.1
  obtain ⟨o, h_o, h_record, rfl⟩ | ⟨h_none, rfl⟩ :=
    of_update h_numbered' h_row (h_done.subset h_mem)
  · obtain ⟨row', h_row', -, h_status⟩ := h_records o h_o
    obtain rfl := Option.some.inj (h_record.symm.trans h_row')
    exact (h_status h_auto).symm
  · exact (h_free row h_row h_auto h_none).symm

end Again

end Reconciled

/-! ### Whole runs -/

section Run

theorem right_of_plain_step (h_numbered : s.Numbered)
    (h_single : s.Pairwise fun get get' => ¬Double env get get') {pass : Pass}
    (h_plain : Plain env s pass) : Right env s pass (step env s pass) := by
  obtain ⟨⟨h_ids, h_next⟩, h_plain⟩ := h_plain
  cases pass with
  | reconcile sources instances subnets time =>
    obtain ⟨h_manual, h_apart⟩ := kept_reconcile time h_numbered h_ids h_single h_plain
    refine ⟨h_manual, h_apart, fun sources' instances' subnets' time' h_pass h_end => ?_⟩
    obtain ⟨rfl, rfl, rfl, rfl⟩ := Pass.reconcile.inj h_pass
    obtain ⟨done, -, h_store, h_all⟩ := perform_eq env.editable env.refused
      (reconcileWrites env (loadCis sources instances) subnets time s.rows) s
    obtain rfl := h_all h_end
    have h_step : step env s (.reconcile sources instances subnets time) = applied env.editable
        (reconcileWrites env (loadCis sources instances) subnets time s.rows) s := h_store
    rw [h_step]
    exact ⟨accurate_applied h_numbered h_ids h_plain,
      fun time' => statuses_again h_numbered h_ids h_next⟩
  | discover subnets subnetId alive time =>
    cases h_id : (Value.str subnetId).toInt with
    | error e =>
      have h_step : step env s (.discover subnets subnetId alive time) = s := by
        rw [step, Pass.outcome, Pass.writes, h_id]
        rfl
      rw [h_step]
      exact ⟨fun row h_row _ => h_row, h_single, nofun⟩
    | ok id =>
      have h_step : step env s (.discover subnets subnetId alive time) =
          (perform env.editable env.refused (discoverWrites subnetId alive
            (organizationOf subnets id) time s.rows) s).1 := by
        rw [step, Pass.outcome, Pass.writes, h_id]
        rfl
      obtain ⟨h_manual, h_apart⟩ := kept_discover (organizationOf subnets id)
        time h_numbered h_ids h_single h_plain
      rw [h_step]
      exact ⟨h_manual, h_apart, nofun⟩

theorem numbered_step (pass : Pass) (h : s.Numbered) : (step env s pass).Numbered := by
  rw [step, Pass.outcome]
  split
  · rename_i writes _
    obtain ⟨done, -, h_store, -⟩ := perform_eq env.editable env.refused writes s
    rw [h_store]
    exact h.applied
  · exact h

/-- **Runs.** In a run whose passes meet addresses in one text each, the ledger is right after every
pass. -/
theorem right_of_plain {passes : List Pass} (h_numbered : s.Numbered)
    (h_single : s.Pairwise fun get get' => ¬Double env get get')
    (h : Runs.Along (step env) (fun s pass _ => Plain env s pass) s passes) :
    Runs.Along (step env) (Right env) s passes := by
  refine h.trans (I := fun s => s.Numbered ∧ s.Pairwise fun get get' => ¬Double env get get')
    (fun s pass h_inv h_plain => ?_) ⟨h_numbered, h_single⟩
  have h_right := right_of_plain_step h_inv.1 h_inv.2 h_plain
  exact ⟨⟨numbered_step pass h_inv.1, h_right.single⟩, h_right⟩

end Run

/-! ### Two hosts -/

def smallEnv : Env where
  net :=
    { str := fun
        | .str s => s.toList
        | _ => []
      network := fun text =>
        if text = "10.0.0.0/24".toList then some ⟨4, 167772160, 167772415, by decide⟩ else none
      reason := fun _ => []
      address := fun text =>
        if text = "10.0.0.5".toList then some (4, 167772165)
        else if text = "10.0.0.6".toList then some (4, 167772166)
        else if text = "10.0.0.7".toList then some (4, 167772167)
        else none }
  str_str _ := rfl
  editable _ := true
  editable_status := rfl
  refused _ _ := false

def lan : Instance where
  id := 1
  get := Props.get [("subnet_address", .str "10.0.0.0"), ("subnet_mask", .str "24")]

def hostSource : Source := { modelId := "host", ipAttrId := "ip_addr" }

def hostsWith (hosts : List (ℕ × String)) (_ : String) : List Instance :=
  hosts.map fun host => { id := host.1, get := Props.get [("ip_addr", .str host.2)] }

def reconcileHosts (hosts : List (ℕ × String)) : Pass :=
  .reconcile [hostSource] (hostsWith hosts) [lan] "2026-01-01 00:00:00"

def discoverTwo : Pass :=
  .discover [lan] "1" [{ ip := "10.0.0.6" }, { ip := "10.0.0.7" }] "2026-01-01 00:05:00"

def noRecords : Store := { rows := [], nextId := 10 }

/-- Two hosts with one text, then a discovery. -/
theorem right_oneText : Runs.Along (step smallEnv) (Right smallEnv) noRecords
    [reconcileHosts [(2, "10.0.0.5"), (3, "10.0.0.5")], discoverTwo] := by
  refine right_of_plain ⟨List.nodup_nil, nofun⟩ nofun
    ⟨⟨⟨nofun, by decide⟩, ?_⟩, ⟨⟨by decide +kernel, by decide +kernel⟩, ?_⟩, trivial⟩
  · have h_text : ∀ ci ∈ loadCis [hostSource] (hostsWith [(2, "10.0.0.5"), (3, "10.0.0.5")]),
        ∀ ci' ∈ loadCis [hostSource] (hostsWith [(2, "10.0.0.5"), (3, "10.0.0.5")]),
          ci.ip = ci'.ip := by
      decide +kernel
    have h_counted : ∀ ci ∈ loadCis [hostSource] (hostsWith [(2, "10.0.0.5"), (3, "10.0.0.5")]),
        decideIpStatus (((loadCis [hostSource]
          (hostsWith [(2, "10.0.0.5"), (3, "10.0.0.5")])).filter (·.ip = ci.ip)).map fun ci =>
            (ci.model, ci.id)) =
          statusAt smallEnv (loadCis [hostSource] (hostsWith [(2, "10.0.0.5"), (3, "10.0.0.5")]))
            (ipOfText smallEnv ci.ip) := by
      decide +kernel
    exact ⟨fun ci h_ci ci' h_ci' _ _ _ => h_text ci h_ci ci' h_ci', fun _ _ _ _ _ => nofun,
      fun ci h_ci _ _ _ => h_counted ci h_ci, nofun, nofun⟩
  · refine ⟨?_, fun a h_a _ row h_row _ _ => ?_⟩
    · refine List.Pairwise.imp (R := fun a b => ipOfText smallEnv a.ip = none ∨
        ipOfText smallEnv a.ip ≠ ipOfText smallEnv b.ip) (fun h _ _ => h) ?_
      decide +kernel
    · revert row a
      decide +kernel

/-- **The defect.** A line break behind an address makes a second record of it. -/
theorem not_right_lineBreak : ¬Runs.Along (step smallEnv) (Right smallEnv) noRecords
    [reconcileHosts [(2, "10.0.0.5"), (3, "10.0.0.5\n")]] := by
  intro h
  have h_single := h.1.single
  revert h_single
  unfold Store.Pairwise Double
  decide +kernel

end Ledger
end Cmdb

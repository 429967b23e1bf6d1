import BkLite.Cmdb.TopologyReconcile

/-!
# What reconciling keeps of the candidates

Every candidate is a current link in the end, or it is among the stale links once, and then the link
that took its place lists it as supporting evidence (`Noted`). That link can have been retired
itself later, by a candidate that lists no more of it than its summary. So from a retired candidate
a chain of such links leads to a current one (`Supported`).
-/

namespace Topology

open Py OrderedDict

/-! ### What is promised -/

def Link.core (item : Link) : Link :=
  { item with supportingEvidence := [], status := "", reconciliationRole := none }

def Noted (winner item : Link) : Prop :=
  relationshipIdentity winner = relationshipIdentity item ∧
    summarizeSupportingCandidate item "corroborating" winner.relationshipId ∈
      winner.supportingEvidence

/-- A current link notes the item, or a superseded one does that is supported in turn. -/
inductive Supported (currentLinks staleLinks : List Link) : Link → Prop
  | current {item winner : Link} : winner ∈ currentLinks → Noted winner item →
      Supported currentLinks staleLinks item
  | superseded {item winner : Link} : winner ∈ staleLinks → winner.status = "superseded" →
      Noted winner item → Supported currentLinks staleLinks winner →
      Supported currentLinks staleLinks item

section Statement

variable (lower : String → String)

def candidatesOf (normalized : Normalized) (inferred : Inferred) : List Link :=
  inferred.authoritativeLinks ++ inferred.inferredLinks.filter Link.hasPorts ++
    (buildDeviceMacCorrelations lower normalized normalized.indexPorts
      normalized.indexDevices).map Correlation.candidate

end Statement

/-- What a reconciliation does with the candidates and with the previous links. -/
structure KeepsEvidence (candidates previousLinks : List Link) (r : Reconciled) : Prop where
  distinct : (r.currentLinks.map relationshipIdentityWithVlan).Nodup
  apart : ∀ a ∈ r.authoritativeLinks, ∀ i ∈ r.inferredLinks,
    relationshipIdentity a ≠ relationshipIdentity i
  /-- Each candidate is a current link or, once, a stale one. -/
  accounted : (candidates.map Link.core).Perm
    ((r.currentLinks ++ r.staleLinks.filter (·.status ≠ "stale")).map Link.core)
  supported : ∀ s ∈ r.staleLinks, s.status ≠ "stale" →
    (s.status = "superseded" ∧ Supported r.currentLinks r.staleLinks s) ∨
      (s.status = "suppressed" ∧ ∃ winner ∈ r.authoritativeLinks, Noted winner s)
  /-- Of the previous links of one snapshot identity the last one is reported if no current link
  joins its ports. -/
  gone : ∀ p, (∀ c ∈ r.currentLinks, relationshipIdentity c ≠ relationshipIdentity p) →
    (previousLinks.filter (snapshotIdentity · = snapshotIdentity p)).getLast? = some p →
    p.stale ∈ r.staleLinks
  there : ∀ p ∈ previousLinks, ∀ c ∈ r.currentLinks,
    relationshipIdentity c = relationshipIdentity p → c.vlan.getD "" = p.vlan.getD "" →
    c.isPlainFdb = p.isPlainFdb → p.stale ∉ r.staleLinks

/-! ### Links that stand for others -/

/-- The link still notes all that another one has noted. -/
structure Carries (w w' : Link) : Prop where
  identity : relationshipIdentity w' = relationshipIdentity w
  relationshipId : w'.relationshipId = w.relationshipId
  supportingEvidence : w.supportingEvidence ⊆ w'.supportingEvidence

section Carries

variable {w w' item staleItem : Link} {status : String}

theorem Carries.refl : Carries w w := ⟨rfl, rfl, List.Subset.refl _⟩

theorem Carries.noted (h : Carries w w') (h_noted : Noted w item) : Noted w' item :=
  ⟨h.identity.trans h_noted.1, h.relationshipId ▸ h.supportingEvidence h_noted.2⟩

theorem carries_corroboratedBy : Carries w (w.corroboratedBy staleItem) :=
  ⟨rfl, rfl, List.subset_append_left _ _⟩

theorem carries_retired : Carries w (w.retired status) := ⟨rfl, rfl, List.Subset.refl _⟩

@[simp] theorem core_retired : (w.retired status).core = w.core := rfl

theorem noted_corroboratedBy (h : relationshipIdentity w = relationshipIdentity item) :
    Noted (w.corroboratedBy (item.retired status)) (item.retired status) :=
  ⟨h, List.mem_append_right _ (List.mem_singleton_self _)⟩

theorem Supported.mono {current current' stale stale' : List Link}
    (h_current : ∀ w ∈ current, (∃ w' ∈ current', Carries w w') ∨
      ∃ w' ∈ stale', w'.status = "superseded" ∧ Carries w w' ∧ Supported current' stale' w')
    (h_stale : stale ⊆ stale') (h : Supported current stale item) :
    Supported current' stale' item := by
  induction h with
  | current h_mem h_noted =>
    obtain ⟨w', h_mem', h_carries⟩ | ⟨w', h_mem', h_status, h_carries, h_supported⟩ :=
      h_current _ h_mem
    · exact .current h_mem' (h_carries.noted h_noted)
    · exact .superseded h_mem' h_status (h_carries.noted h_noted) h_supported
  | superseded h_mem h_status h_noted _ ih => exact .superseded (h_stale h_mem) h_status h_noted ih

end Carries

/-! ### The book -/

def coresOf (links : List Link) : Multiset Link := links.map Link.core

def Book.cores (book : Book) : Multiset Link :=
  valuesOf Link.core book.authoritative + valuesOf Link.core book.inferred +
    coresOf book.staleLinks

/-- What the parts of a book have to do with each other; `pending` is a candidate on its way in. -/
structure Inv (pending : List Link) (book : Book) : Prop where
  keyedA : Keyed book.authoritative
  keyedI : Keyed book.inferred
  keyA : ∀ k w, (k, w) ∈ book.authoritative → relationshipIdentity w = k
  keyI : ∀ k w, (k, w) ∈ book.inferred → relationshipIdentityWithVlan w = k
  apart : ∀ k w, (k, w) ∈ book.inferred → book.authoritative.get k.1 = none
  supported : ∀ s ∈ book.staleLinks,
    (s.status = "superseded" ∧ Supported (book.currentLinks ++ pending) book.staleLinks s) ∨
      (s.status = "suppressed" ∧ ∃ winner ∈ book.authoritative.values, Noted winner s)

section Steps

variable {book : Book} {pending : List Link} {item winner : Link}

theorem inv_empty : Inv [] {} where
  keyedA := keyed_nil
  keyedI := keyed_nil
  keyA _ _ h := absurd h List.not_mem_nil
  keyI _ _ h := absurd h List.not_mem_nil
  apart _ _ h := absurd h List.not_mem_nil
  supported _ h := absurd h List.not_mem_nil

theorem carried_set {Key : Type} [DecidableEq Key] {d : OrderedDict Key Link} {k : Key} {v' : Link}
    (h_keyed : Keyed d) (h : ∀ v, d.get k = some v → Carries v v') {w : Link}
    (h_mem : w ∈ d.values) : ∃ w' ∈ (d.set k v').values, Carries w w' := by
  obtain h_get | h_stays := get_or_mem_set (v := v') h_keyed h_mem
  · exact ⟨v', mem_values_set_self, h w h_get⟩
  · exact ⟨w, h_stays, .refl⟩

theorem Inv.pend (h : Inv [] book) : Inv [item] book where
  keyedA := h.keyedA
  keyedI := h.keyedI
  keyA := h.keyA
  keyI := h.keyI
  apart := h.apart
  supported s h_mem := by
    refine (h.supported s h_mem).imp_left fun ⟨h_status, h_supported⟩ => ⟨h_status, ?_⟩
    refine h_supported.mono (fun w h_w => .inl ⟨w, ?_, .refl⟩) (List.Subset.refl _)
    rw [List.append_nil] at h_w
    exact List.mem_append_left _ h_w

theorem Inv.setAuthoritative (h : Inv [] book) {key : Pair} (v' : Link) (added : List Link)
    (h_key : relationshipIdentity v' = key)
    (h_carry : ∀ v, book.authoritative.get key = some v → Carries v v')
    (h_free : ∀ k w, (k, w) ∈ book.inferred → k.1 ≠ key)
    (h_added : ∀ s ∈ added, (s.status = "superseded" ∨ s.status = "suppressed") ∧ Noted v' s) :
    Inv [] { book with
      authoritative := book.authoritative.set key v'
      staleLinks := book.staleLinks ++ added } where
  keyedA := h.keyedA.set
  keyedI := h.keyedI
  keyA k w h_mem := by
    obtain ⟨rfl, rfl⟩ | h_old := mem_set h_mem
    · exact h_key
    · exact h.keyA k w h_old
  keyI := h.keyI
  apart k w h_mem := by
    rw [get_set, if_neg (Ne.symm (h_free k w h_mem))]
    exact h.apart k w h_mem
  supported s h_mem := by
    have h_winner : v' ∈ (book.authoritative.set key v').values := mem_values_set_self
    obtain h_old | h_new := List.mem_append.mp h_mem
    · obtain ⟨h_status, h_supported⟩ | ⟨h_status, winner, h_in, h_noted⟩ := h.supported s h_old
      · refine .inl ⟨h_status, h_supported.mono (fun w h_w => .inl ?_)
          (List.subset_append_left _ _)⟩
        rw [List.append_nil] at h_w
        obtain h_auth | h_inf := List.mem_append.mp h_w
        · obtain ⟨w', h_w', h_carries⟩ := carried_set h.keyedA h_carry h_auth
          exact ⟨w', List.mem_append_left _ (List.mem_append_left _ h_w'), h_carries⟩
        · exact ⟨w, List.mem_append_left _ (List.mem_append_right _ h_inf), .refl⟩
      · obtain ⟨w', h_w', h_carries⟩ := carried_set h.keyedA h_carry h_in
        exact .inr ⟨h_status, w', h_w', h_carries.noted h_noted⟩
    · obtain ⟨h_status | h_status, h_noted⟩ := h_added s h_new
      · exact .inl ⟨h_status,
          .current (List.mem_append_left _ (List.mem_append_left _ h_winner)) h_noted⟩
      · exact .inr ⟨h_status, v', h_winner, h_noted⟩

theorem Inv.setInferred (h : Inv [item] book) {key : Pair × String} (v' : Link)
    (added : List Link)
    (h_key : relationshipIdentityWithVlan v' = key)
    (h_free : book.authoritative.get key.1 = none)
    (h_added : ∀ s ∈ added, s.status = "superseded" ∧ Noted v' s)
    (h_carry : ∀ w, book.inferred.get key = some w ∨ w = item →
      Carries w v' ∨ ∃ w' ∈ added, Carries w w') :
    Inv [] { book with
      inferred := book.inferred.set key v'
      staleLinks := book.staleLinks ++ added } where
  keyedA := h.keyedA
  keyedI := h.keyedI.set
  keyA := h.keyA
  keyI k w h_mem := by
    obtain ⟨rfl, rfl⟩ | h_old := mem_set h_mem
    · exact h_key
    · exact h.keyI k w h_old
  apart k w h_mem := by
    obtain ⟨rfl, -⟩ | h_old := mem_set h_mem
    · exact h_free
    · exact h.apart k w h_old
  supported s h_mem := by
    have h_winner : v' ∈ book.authoritative.values ++ (book.inferred.set key v').values ++ [] :=
      List.mem_append_left _ (List.mem_append_right _ mem_values_set_self)
    obtain h_old | h_new := List.mem_append.mp h_mem
    · refine (h.supported s h_old).imp_left fun ⟨h_status, h_supported⟩ => ⟨h_status, ?_⟩
      refine h_supported.mono (fun w h_w => ?_) (List.subset_append_left _ _)
      -- the candidate on its way and the link under the key are carried on, the others stay
      have h_cases : (book.inferred.get key = some w ∨ w = item) ∨
          w ∈ book.authoritative.values ++ (book.inferred.set key v').values ++ [] := by
        obtain h_current | h_item := List.mem_append.mp h_w
        · obtain h_auth | h_inf := List.mem_append.mp h_current
          · exact .inr (List.mem_append_left _ (List.mem_append_left _ h_auth))
          · obtain h_get | h_stays := get_or_mem_set (v := v') h.keyedI h_inf
            · exact .inl (.inl h_get)
            · exact .inr (List.mem_append_left _ (List.mem_append_right _ h_stays))
        · exact .inl (.inr (List.mem_singleton.mp h_item))
      obtain h_touched | h_stays := h_cases
      · obtain h_carries | ⟨w', h_w', h_carries⟩ := h_carry w h_touched
        · exact .inl ⟨v', h_winner, h_carries⟩
        · obtain ⟨h_status', h_noted⟩ := h_added w' h_w'
          exact .inr ⟨w', List.mem_append_right _ h_w', h_status', h_carries,
            .current h_winner h_noted⟩
      · exact .inl ⟨w, h_stays, .refl⟩
    · obtain ⟨h_status, h_noted⟩ := h_added s h_new
      exact .inl ⟨h_status, .current h_winner h_noted⟩

/-! ### What each step does -/

theorem addAuthoritative_inv (h : Inv [] book) (h_none : book.inferred = []) :
    Inv [] (addAuthoritative book item) ∧ (addAuthoritative book item).inferred = [] := by
  have h_free : ∀ k w, (k, w) ∈ book.inferred → k.1 ≠ relationshipIdentity item := by
    intro k w h_mem
    rw [h_none] at h_mem
    exact absurd h_mem List.not_mem_nil
  unfold addAuthoritative
  dsimp only
  cases h_get : book.authoritative.get (relationshipIdentity item) with
  | none =>
    have h_inv := h.setAuthoritative item [] rfl
      (fun v h_v => by rw [h_get] at h_v; cases h_v) h_free
      (fun s h_s => absurd h_s List.not_mem_nil)
    rw [List.append_nil] at h_inv
    exact ⟨h_inv, h_none⟩
  | some existing =>
    have h_same : relationshipIdentity existing = relationshipIdentity item :=
      h.keyA _ _ (mem_of_get h_get)
    refine ⟨h.setAuthoritative _ _ (h_same : relationshipIdentity (existing.corroboratedBy _) = _)
      (fun v h_v => ?_) h_free (fun s h_s => ?_), h_none⟩
    · rw [h_get] at h_v
      rw [← Option.some.inj h_v]
      exact carries_corroboratedBy
    · rw [List.mem_singleton.mp h_s]
      exact ⟨.inl rfl, noted_corroboratedBy h_same⟩

theorem suppress_inv (h : Inv [] book)
    (h_get : book.authoritative.get (relationshipIdentity item) = some winner) :
    Inv [] (suppress book winner item) := by
  have h_same : relationshipIdentity winner = relationshipIdentity item :=
    h.keyA _ _ (mem_of_get h_get)
  refine h.setAuthoritative _ _ (h_same : relationshipIdentity (winner.corroboratedBy _) = _)
    (fun v h_v => ?_) (fun k w h_mem h_key => ?_) (fun s h_s => ?_)
  · rw [h_get] at h_v
    rw [← Option.some.inj h_v]
    exact carries_corroboratedBy
  · have h_apart := h.apart k w h_mem
    rw [h_key, h_get] at h_apart
    cases h_apart
  · rw [List.mem_singleton.mp h_s]
    exact ⟨.inr rfl, noted_corroboratedBy h_same⟩

theorem contend_inv {wins : Link → Link → Bool} (h : Inv [item] book)
    (h_free : book.authoritative.get (relationshipIdentity item) = none) :
    Inv [] (contend wins book item) := by
  unfold contend
  dsimp only
  cases h_get : book.inferred.get (relationshipIdentityWithVlan item) with
  | none =>
    have h_inv := h.setInferred item [] rfl h_free
      (fun s h_s => absurd h_s List.not_mem_nil) (fun w h_w => .inl ?_)
    · rw [List.append_nil] at h_inv
      exact h_inv
    · obtain h_w | rfl := h_w
      · rw [h_get] at h_w
        cases h_w
      · exact .refl
  | some existing =>
    have h_same : relationshipIdentityWithVlan existing = relationshipIdentityWithVlan item :=
      h.keyI _ _ (mem_of_get h_get)
    have h_pair : relationshipIdentity existing = relationshipIdentity item :=
      congrArg Prod.fst h_same
    have h_existing : ∀ w, book.inferred.get (relationshipIdentityWithVlan item) = some w →
        w = existing := fun w h_w => by
      rw [h_get] at h_w
      exact (Option.some.inj h_w).symm
    dsimp only
    split_ifs
    · -- the candidate takes the place of the link
      refine h.setInferred _ _ (by rfl) h_free (fun s h_s => ?_) (fun w h_w => ?_)
      · rw [List.mem_singleton.mp h_s]
        exact ⟨rfl, noted_corroboratedBy h_pair.symm⟩
      · obtain h_w | rfl := h_w
        · rw [h_existing w h_w]
          exact .inr ⟨_, List.mem_singleton_self _, carries_retired⟩
        · exact .inl carries_corroboratedBy
    · -- the link stays
      refine h.setInferred _ _
        (h_same : relationshipIdentityWithVlan (existing.corroboratedBy _) = _)
        h_free (fun s h_s => ?_) (fun w h_w => ?_)
      · rw [List.mem_singleton.mp h_s]
        exact ⟨rfl, noted_corroboratedBy h_pair⟩
      · obtain h_w | rfl := h_w
        · rw [h_existing w h_w]
          exact .inl carries_corroboratedBy
        · exact .inr ⟨_, List.mem_singleton_self _, carries_retired⟩

theorem addInferred_inv (h : Inv [] book) : Inv [] (addInferred book item) := by
  unfold addInferred
  split_ifs
  · cases h_get : book.authoritative.get (relationshipIdentity item) with
    | some winner => exact suppress_inv h h_get
    | none => exact contend_inv h.pend h_get
  · exact h

theorem absorbGeneric_inv (h : Inv [] book) (candidate : Link) :
    Inv [(absorbGeneric book candidate).2] (absorbGeneric book candidate).1 ∧
      (absorbGeneric book candidate).1.authoritative = book.authoritative ∧
      relationshipIdentity (absorbGeneric book candidate).2 = relationshipIdentity candidate := by
  unfold absorbGeneric
  dsimp only
  split_ifs
  · exact ⟨h.pend, rfl, rfl⟩
  cases h_get : book.inferred.get (relationshipIdentity candidate, "") with
  | none => exact ⟨h.pend, rfl, rfl⟩
  | some generic =>
    have h_pair : relationshipIdentity candidate = relationshipIdentity generic :=
      (congrArg Prod.fst (h.keyI _ _ (mem_of_get h_get))).symm
    refine ⟨⟨h.keyedA, h.keyedI.pop, h.keyA, fun k w h_mem => ?_, fun k w h_mem => ?_,
      fun s h_mem => ?_⟩, rfl, rfl⟩
    · exact h.keyI k w (mem_pop.mp h_mem).1
    · exact h.apart k w (mem_pop.mp h_mem).1
    · have h_noted : Noted (candidate.corroboratedBy (generic.retired "superseded"))
          (generic.retired "superseded") := noted_corroboratedBy h_pair
      have h_generic : Supported (book.authoritative.values ++
          (book.inferred.pop (relationshipIdentity candidate, "")).values ++
            [candidate.corroboratedBy (generic.retired "superseded")])
          (book.staleLinks ++ [generic.retired "superseded"]) (generic.retired "superseded") :=
        .current (List.mem_append_right _ (List.mem_singleton_self _)) h_noted
      obtain h_old | h_new := List.mem_append.mp h_mem
      · refine (h.supported s h_old).imp_left fun h_here => ⟨h_here.1, ?_⟩
        refine h_here.2.mono (fun w h_w => ?_) (List.subset_append_left _ _)
        rw [List.append_nil] at h_w
        obtain h_auth | h_inf := List.mem_append.mp h_w
        · exact .inl ⟨w, List.mem_append_left _ (List.mem_append_left _ h_auth), .refl⟩
        · obtain h_at | h_stays := get_or_mem_pop h.keyedI h_inf
          · rw [h_get] at h_at
            rw [← Option.some.inj h_at]
            exact .inr ⟨_, List.mem_append_right _ (List.mem_singleton_self _), rfl,
              carries_retired, h_generic⟩
          · exact .inl ⟨w, List.mem_append_left _ (List.mem_append_right _ h_stays), .refl⟩
      · rw [List.mem_singleton.mp h_new]
        exact .inl ⟨rfl, h_generic⟩

theorem addCorrelation_inv (h : Inv [] book) {correlation : Correlation} :
    Inv [] (addCorrelation book correlation) := by
  unfold addCorrelation
  dsimp only
  cases h_get : book.authoritative.get (relationshipIdentity correlation.candidate) with
  | some winner => exact suppress_inv h h_get
  | none =>
    obtain ⟨h_inv, h_auth, h_same⟩ := absorbGeneric_inv h correlation.candidate
    refine contend_inv h_inv ?_
    rw [h_auth, h_same]
    exact h_get

/-! ### What each step takes in -/

theorem coresOf_append {links links' : List Link} :
    coresOf (links ++ links') = coresOf links + coresOf links' := by
  unfold coresOf
  rw [List.map_append, Multiset.coe_add]

theorem coresOf_concat {links : List Link} {s : Link} :
    coresOf (links ++ [s]) = s.core ::ₘ coresOf links :=
  coresOf_append.trans (Multiset.add_comm _ _)

theorem addAuthoritative_cores :
    (addAuthoritative book item).cores = item.core ::ₘ book.cores := by
  unfold addAuthoritative Book.cores
  dsimp only
  cases h_get : book.authoritative.get (relationshipIdentity item) with
  | none =>
    show valuesOf _ (set _ _ _) + _ + _ = _
    rw [valuesOf_set_of_none _ h_get, Multiset.cons_add, Multiset.cons_add]
  | some existing =>
    show valuesOf _ (set _ _ _) + _ + coresOf (_ ++ [_]) = _
    rw [valuesOf_set_of_eq _ h_get (by rfl), coresOf_concat, Multiset.add_cons]
    rfl

theorem suppress_cores
    (h_get : book.authoritative.get (relationshipIdentity item) = some winner) :
    (suppress book winner item).cores = item.core ::ₘ book.cores := by
  unfold suppress Book.cores
  dsimp only
  rw [valuesOf_set_of_eq _ h_get (by rfl), coresOf_concat, Multiset.add_cons]
  rfl

theorem contend_cores {wins : Link → Link → Bool} :
    (contend wins book item).cores = item.core ::ₘ book.cores := by
  unfold contend Book.cores
  dsimp only
  cases h_get : book.inferred.get (relationshipIdentityWithVlan item) with
  | none =>
    show _ + valuesOf _ (set _ _ _) + _ = _
    rw [valuesOf_set_of_none _ h_get, Multiset.add_cons, Multiset.cons_add]
  | some existing =>
    dsimp only
    split_ifs
    · -- what the winner replaces is stale now
      show _ + valuesOf _ (set _ _ _) + coresOf (_ ++ [_]) = _
      have h_swap := valuesOf_set_of_some Link.core
        (v := item.corroboratedBy (existing.retired "superseded")) h_get
      rw [coresOf_concat, Multiset.add_cons, ← Multiset.cons_add, ← Multiset.add_cons, core_retired,
        h_swap, Multiset.add_cons, Multiset.cons_add]
      rfl
    · show _ + valuesOf _ (set _ _ _) + coresOf (_ ++ [_]) = _
      rw [valuesOf_set_of_eq _ h_get (by rfl), coresOf_concat, Multiset.add_cons]
      rfl

theorem absorbGeneric_cores (h_keyed : Keyed book.inferred) (candidate : Link) :
    (absorbGeneric book candidate).1.cores = book.cores ∧
      (absorbGeneric book candidate).2.core = candidate.core := by
  unfold absorbGeneric Book.cores
  dsimp only
  split_ifs
  · exact ⟨rfl, rfl⟩
  cases h_get : book.inferred.get (relationshipIdentity candidate, "") with
  | none => exact ⟨rfl, rfl⟩
  | some generic =>
    refine ⟨?_, rfl⟩
    show _ + valuesOf _ (pop _ _) + coresOf (_ ++ [_]) = _
    rw [coresOf_concat, core_retired, Multiset.add_cons, ← Multiset.cons_add, ← Multiset.add_cons,
      valuesOf_pop Link.core h_keyed h_get]

theorem addInferred_cores : (addInferred book item).cores =
    coresOf (Option.guard Link.hasPorts item).toList + book.cores := by
  unfold addInferred
  cases h_ports : item.hasPorts with
  | false =>
    rw [Option.guard_eq_none_iff.mpr h_ports, if_neg Bool.false_ne_true]
    exact (Multiset.zero_add _).symm
  | true =>
    have h_guard : Option.guard Link.hasPorts item = some item := by simp [Option.guard, h_ports]
    rw [h_guard, if_pos rfl]
    show _ = item.core ::ₘ book.cores
    cases h_get : book.authoritative.get (relationshipIdentity item) with
    | some winner => exact suppress_cores h_get
    | none => exact contend_cores

theorem addCorrelation_cores (h : Inv [] book) {correlation : Correlation} :
    (addCorrelation book correlation).cores = correlation.candidate.core ::ₘ book.cores := by
  unfold addCorrelation
  dsimp only
  cases h_get : book.authoritative.get (relationshipIdentity correlation.candidate) with
  | some winner => exact suppress_cores h_get
  | none =>
    obtain ⟨h_cores, h_core⟩ := absorbGeneric_cores h.keyedI correlation.candidate
    exact contend_cores.trans (by rw [h_cores, h_core])

/-! ### The run over the candidates -/

theorem foldl_keeps {α : Type} (step : Book → α → Book) (P : Book → Prop)
    (candidate : α → Option Link)
    (h_step : ∀ b x, P b →
      P (step b x) ∧ (step b x).cores = coresOf (candidate x).toList + b.cores)
    (xs : List α) (h : P book) :
    P (xs.foldl step book) ∧
      (xs.foldl step book).cores = coresOf (xs.filterMap candidate) + book.cores := by
  induction xs generalizing book with
  | nil => exact ⟨h, (Multiset.zero_add _).symm⟩
  | cons x xs ih =>
    obtain ⟨h_next, h_one⟩ := h_step book x h
    obtain ⟨h_run, h_all⟩ := ih h_next
    have h_cons : (x :: xs).filterMap candidate =
        (candidate x).toList ++ xs.filterMap candidate := by
      cases h_x : candidate x with
      | none => rw [List.filterMap_cons_none h_x]; rfl
      | some item => rw [List.filterMap_cons_some h_x]; rfl
    refine ⟨h_run, ?_⟩
    calc (xs.foldl step (step book x)).cores
        = coresOf (xs.filterMap candidate) + (coresOf (candidate x).toList + book.cores) := by
          rw [h_all, h_one]
      _ = coresOf (candidate x).toList + coresOf (xs.filterMap candidate) + book.cores := by
          rw [← Multiset.add_assoc]
          exact congrArg (· + book.cores) (Multiset.add_comm _ _)
      _ = coresOf ((x :: xs).filterMap candidate) + book.cores := by
          rw [h_cons, coresOf_append]

theorem bookOf_spec (lower : String → String) (normalized : Normalized) (inferred : Inferred) :
    Inv [] (bookOf lower normalized inferred) ∧
      (bookOf lower normalized inferred).cores =
        coresOf (candidatesOf lower normalized inferred) := by
  obtain ⟨⟨h_auth, -⟩, h_auth_cores⟩ := foldl_keeps addAuthoritative
    (fun b => Inv [] b ∧ b.inferred = []) some
    (fun b x h => ⟨addAuthoritative_inv h.1 h.2, addAuthoritative_cores⟩)
    inferred.authoritativeLinks ⟨inv_empty, rfl⟩
  obtain ⟨h_inf, h_inf_cores⟩ := foldl_keeps addInferred (Inv [])
    (Option.guard Link.hasPorts)
    (fun b x h => ⟨addInferred_inv h, addInferred_cores⟩) inferred.inferredLinks h_auth
  obtain ⟨h_corr, h_corr_cores⟩ := foldl_keeps addCorrelation (Inv [])
    (some ∘ Correlation.candidate)
    (fun b x h => ⟨addCorrelation_inv h, addCorrelation_cores h⟩)
    (buildDeviceMacCorrelations lower normalized normalized.indexPorts normalized.indexDevices)
    h_inf
  refine ⟨h_corr, h_corr_cores.trans ?_⟩
  unfold candidatesOf
  rw [h_inf_cores, h_auth_cores, List.filterMap_eq_filter, List.filterMap_some,
    List.filterMap_eq_map, coresOf_append, coresOf_append]
  -- the groups were taken in one after another
  show _ + (_ + (_ + 0)) = _ + _ + _
  rw [Multiset.add_zero]
  exact (Multiset.add_comm _ _).trans (congrArg (· + _) (Multiset.add_comm _ _))

/-! ### The result -/

theorem Inv.distinct (h : Inv [] book) :
    (book.currentLinks.map relationshipIdentityWithVlan).Nodup ∧
      ∀ a ∈ book.authoritative.values, ∀ i ∈ book.inferred.values,
        relationshipIdentity a ≠ relationshipIdentity i := by
  have h_apart : ∀ a ∈ book.authoritative.values, ∀ i ∈ book.inferred.values,
      relationshipIdentity a ≠ relationshipIdentity i := by
    intro a h_a i h_i h_same
    obtain ⟨k, h_k⟩ := mem_values.mp h_a
    obtain ⟨l, h_l⟩ := mem_values.mp h_i
    have h_key : k = l.1 := by
      rw [← h.keyA k a h_k, h_same, ← h.keyI l i h_l]
      rfl
    have h_none := h.apart l i h_l
    rw [← h_key, get_of_mem h.keyedA h_k] at h_none
    cases h_none
  have h_auth : (book.authoritative.values.map relationshipIdentity).Nodup := by
    have h_keys : book.authoritative.values.map relationshipIdentity =
        book.authoritative.map (·.1) := by
      unfold values
      rw [List.map_map]
      exact List.map_congr_left fun e h_e => h.keyA e.1 e.2 h_e
    rw [h_keys]
    exact h.keyedA
  have h_inf : (book.inferred.values.map relationshipIdentityWithVlan).Nodup := by
    have h_keys : book.inferred.values.map relationshipIdentityWithVlan =
        book.inferred.map (·.1) := by
      unfold values
      rw [List.map_map]
      exact List.map_congr_left fun e h_e => h.keyI e.1 e.2 h_e
    rw [h_keys]
    exact h.keyedI
  refine ⟨?_, h_apart⟩
  unfold Book.currentLinks
  rw [List.map_append, List.nodup_append]
  refine ⟨?_, h_inf, fun x h_x y h_y h_eq => ?_⟩
  · refine List.Nodup.of_map Prod.fst ?_
    rw [List.map_map]
    exact h_auth
  · obtain ⟨a, h_a, rfl⟩ := List.mem_map.mp h_x
    obtain ⟨i, h_i, rfl⟩ := List.mem_map.mp h_y
    exact h_apart a h_a i h_i (congrArg Prod.fst h_eq)

theorem mem_staleOf {currentLinks previousLinks : List Link} {s : Link} :
    s ∈ staleOf currentLinks previousLinks ↔
      ∃ p, (previousLinks.filter (snapshotIdentity · = snapshotIdentity p)).getLast? = some p ∧
        (∀ c ∈ currentLinks, snapshotIdentity c ≠ snapshotIdentity p) ∧ p.stale = s := by
  have h_none : ∀ k, (get (ofList snapshotIdentity currentLinks) k).isNone = true ↔
      ∀ c ∈ currentLinks, snapshotIdentity c ≠ k := by
    intro k
    rw [get_ofList, Option.isNone_iff_eq_none, List.getLast?_eq_none_iff, List.filter_eq_nil_iff]
    simp
  unfold staleOf
  constructor
  · intro h_mem
    obtain ⟨⟨k, p⟩, h_e, rfl⟩ := List.mem_map.mp h_mem
    obtain ⟨h_in, h_gone⟩ := List.mem_filter.mp h_e
    obtain ⟨-, rfl⟩ := mem_ofList h_in
    have h_last := get_of_mem keyed_ofList h_in
    rw [get_ofList] at h_last
    exact ⟨p, h_last, (h_none _).mp h_gone, rfl⟩
  · rintro ⟨p, h_last, h_gone, rfl⟩
    rw [← get_ofList] at h_last
    exact List.mem_map.mpr ⟨(snapshotIdentity p, p),
      List.mem_filter.mpr ⟨mem_of_get h_last, (h_none _).mpr h_gone⟩, rfl⟩

theorem status_of_inv (h : Inv [] book) {s : Link} (h_mem : s ∈ book.staleLinks) :
    s.status ≠ "stale" := by
  obtain ⟨h_status, -⟩ | ⟨h_status, -⟩ := h.supported s h_mem
  · rw [h_status]
    decide
  · rw [h_status]
    decide

end Steps

/-- A reconciliation keeps all evidence: for every evidence, every list of candidates and every
previous snapshot. -/
theorem reconcile_keepsEvidence (lower : String → String) (normalized : Normalized)
    (inferred : Inferred) (previousLinks : List Link) :
    KeepsEvidence (candidatesOf lower normalized inferred) previousLinks
      (reconcileTopology lower normalized inferred previousLinks) := by
  obtain ⟨h_inv, h_cores⟩ := bookOf_spec lower normalized inferred
  generalize h_book : bookOf lower normalized inferred = book at h_inv h_cores
  have h_current : (reconcileTopology lower normalized inferred previousLinks).currentLinks =
      book.currentLinks := by rw [← h_book]; rfl
  have h_stale : (reconcileTopology lower normalized inferred previousLinks).staleLinks =
      book.staleLinks ++ staleOf book.currentLinks previousLinks := by rw [← h_book]; rfl
  have h_auth : (reconcileTopology lower normalized inferred previousLinks).authoritativeLinks =
      book.authoritative.values := by rw [← h_book]; rfl
  have h_inf : (reconcileTopology lower normalized inferred previousLinks).inferredLinks =
      book.inferred.values := by rw [← h_book]; rfl
  have h_status : ∀ s ∈ staleOf book.currentLinks previousLinks, s.status = "stale" := by
    intro s h_mem
    obtain ⟨p, -, -, rfl⟩ := mem_staleOf.mp h_mem
    rfl
  constructor
  case distinct =>
    rw [h_current]
    exact h_inv.distinct.1
  case apart =>
    rw [h_auth, h_inf]
    exact h_inv.distinct.2
  case accounted =>
    have h_own : book.staleLinks.filter (fun s => decide (s.status ≠ "stale")) = book.staleLinks :=
      List.filter_eq_self.mpr fun s h_mem => decide_eq_true (status_of_inv h_inv h_mem)
    have h_old : (staleOf book.currentLinks previousLinks).filter
        (fun s => decide (s.status ≠ "stale")) = [] :=
      List.filter_eq_nil_iff.mpr fun s h_mem => by simp [h_status s h_mem]
    rw [h_current, h_stale, List.filter_append, h_own, h_old, List.append_nil]
    refine Multiset.coe_eq_coe.mp (h_cores.symm.trans ?_)
    show _ + _ + _ = coresOf _
    rw [coresOf_append]
    exact congrArg (· + _) coresOf_append.symm
  case supported =>
    intro s h_mem h_not
    rw [h_stale] at h_mem
    rw [h_current, h_stale, h_auth]
    have h_own : s ∈ book.staleLinks := (List.mem_append.mp h_mem).resolve_right fun h_old =>
      h_not (h_status s h_old)
    refine (h_inv.supported s h_own).imp_left fun ⟨h_sup, h_supported⟩ => ⟨h_sup, ?_⟩
    refine h_supported.mono (fun w h_w => .inl ⟨w, ?_, .refl⟩) (List.subset_append_left _ _)
    rwa [List.append_nil] at h_w
  case gone =>
    intro p h_gone h_last
    rw [h_stale]
    rw [h_current] at h_gone
    refine List.mem_append_right _ (mem_staleOf.mpr ⟨p, h_last, fun c h_c h_same => ?_, rfl⟩)
    exact h_gone c h_c (congrArg Prod.fst h_same)
  case there =>
    intro p _ c h_c h_pair h_vlan h_plain h_mem
    rw [h_stale] at h_mem
    rw [h_current] at h_c
    obtain h_own | h_old := List.mem_append.mp h_mem
    · exact status_of_inv h_inv h_own rfl
    · -- what is reported has the snapshot identity of the link
      obtain ⟨q, -, h_gone, h_eq⟩ := mem_staleOf.mp h_old
      have h_identity : snapshotIdentity q = snapshotIdentity p :=
        (congrArg snapshotIdentity h_eq : snapshotIdentity q.stale = snapshotIdentity p.stale)
      refine h_gone c h_c ?_
      rw [h_identity]
      unfold snapshotIdentity
      rw [h_pair, h_plain, h_vlan]

section Examples

instance decidableNoted (winner item : Link) : Decidable (Noted winner item) :=
  inferInstanceAs (Decidable (_ ∧ _))

/-- Two switches that have learned each other in one VLAN and have ARP entries of each other. -/
private def twoSwitches : Normalized where
  devices := [{ deviceId := "10.0.0.1", host := "10.0.0.1" },
    { deviceId := "10.0.0.2", host := "10.0.0.2" }]
  ports := [⟨"10.0.0.1", "10.0.0.1:1", "1", "Gi1", "", "", "aa:aa:aa:aa:aa:aa"⟩,
    ⟨"10.0.0.2", "10.0.0.2:2", "2", "Gi2", "", "", "bb:bb:bb:bb:bb:bb"⟩]
  neighborObservations := []
  arpObservations :=
    [⟨"10.0.0.1", "10.0.0.1:1", "10.0.0.2", "bb:bb:bb:bb:bb:bb", "10.0.0.1:arp:10.0.0.2"⟩,
      ⟨"10.0.0.2", "10.0.0.2:2", "10.0.0.1", "aa:aa:aa:aa:aa:aa", "10.0.0.2:arp:10.0.0.1"⟩]
  fdbObservations :=
    [⟨"10.0.0.1", "10.0.0.1:1", "bb:bb:bb:bb:bb:bb", "10.0.0.1:fdb:10", "3", "10"⟩,
      ⟨"10.0.0.2", "10.0.0.2:2", "aa:aa:aa:aa:aa:aa", "10.0.0.2:fdb:10", "3", "10"⟩]
  errors := []

private def arpLink (device port target targetPort : String) : Link where
  relationshipId := "inf:" ++ port ++ ":" ++ targetPort ++ ":arp"
  relationshipType := "inferred"
  evidenceSource := "arp"
  confidence := 50
  sourceDevice := device
  sourcePortId := port
  sourceInstName := device ++ "-" ++ port
  targetDevice := some target
  targetPortId := some targetPort

private def fdbLink : Link where
  relationshipId := "inf:10.0.0.1:1:10.0.0.2:2:fdb:10"
  relationshipType := "inferred"
  evidenceSource := "fdb"
  confidence := 75
  sourceDevice := "10.0.0.1"
  sourcePortId := "10.0.0.1:1"
  sourceInstName := "10.0.0.1-Gi1"
  targetDevice := some "10.0.0.2"
  targetPortId := some "10.0.0.2:2"
  vlan := some "10"

private def inferredLinks : Inferred where
  authoritativeLinks := []
  inferredLinks := [arpLink "10.0.0.1" "10.0.0.1:1" "10.0.0.2" "10.0.0.2:2",
    arpLink "10.0.0.2" "10.0.0.2:2" "10.0.0.1" "10.0.0.1:1", fdbLink]
  unresolvedNeighbors := []
  deviceLabels := []

/-- The second link is noted by the first one alone, which is superseded; and a current link is
stale. -/
theorem not_noted_by_current :
    (¬∀ lower normalized inferred previousLinks,
      ∀ s ∈ (reconcileTopology lower normalized inferred previousLinks).staleLinks,
        s.status ≠ "stale" →
        ∃ winner ∈ (reconcileTopology lower normalized inferred previousLinks).currentLinks,
          Noted winner s) ∧
      ¬∀ lower normalized inferred previousLinks, ∀ p ∈ previousLinks,
        ∀ c ∈ (reconcileTopology lower normalized inferred previousLinks).currentLinks,
          relationshipIdentity c = relationshipIdentity p → c.vlan.getD "" = p.vlan.getD "" →
          p.stale ∉ (reconcileTopology lower normalized inferred previousLinks).staleLinks := by
  have h_unnoted : ∃ s ∈ (reconcileTopology String.toLower twoSwitches inferredLinks
      [fdbLink]).staleLinks, s.status ≠ "stale" ∧
        ∀ winner ∈ (reconcileTopology String.toLower twoSwitches inferredLinks
          [fdbLink]).currentLinks, ¬Noted winner s := by decide +kernel
  have h_stale : ∃ c ∈ (reconcileTopology String.toLower twoSwitches inferredLinks
      [fdbLink]).currentLinks, relationshipIdentity c = relationshipIdentity fdbLink ∧
        c.vlan.getD "" = fdbLink.vlan.getD "" ∧ fdbLink.stale ∈
          (reconcileTopology String.toLower twoSwitches inferredLinks [fdbLink]).staleLinks := by
    decide +kernel
  refine ⟨fun h_all => ?_, fun h_all => ?_⟩
  · obtain ⟨s, h_mem, h_status, h_none⟩ := h_unnoted
    obtain ⟨winner, h_winner, h_noted⟩ := h_all _ _ _ _ s h_mem h_status
    exact h_none winner h_winner h_noted
  · obtain ⟨c, h_c, h_pair, h_vlan, h_mem⟩ := h_stale
    exact h_all _ _ _ _ fdbLink (List.mem_singleton_self _) c h_c h_pair h_vlan h_mem

end Examples

end Topology

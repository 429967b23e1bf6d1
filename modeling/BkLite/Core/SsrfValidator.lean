import BkLite.Framework.Collect
import BkLite.Framework.IpNetworks
import BkLite.Framework.Value

/-!
# Addresses a URL may not lead to

`apps/core/utils/ssrf_validator.py` checks a URL by its scheme and its host name, has the name
resolved and checks the addresses of the answer. The three validators differ in the list an address
is checked against: all special networks, with the whitelist of the system settings as an exception
(`validate`), the metadata networks (`validate_llm_endpoint`), and these with the loopback
(`validate_callback`).
-/

namespace Core.SsrfValidator

open IpNetworks

/-! ### Lists -/

def allowedSchemes : List String := ["http", "https"]

def blockedNetworks : List Network := [
  .v4 (dotted 0 0 0 0) 8,
  .v4 (dotted 10 0 0 0) 8,
  .v4 (dotted 100 64 0 0) 10,
  .v4 (dotted 127 0 0 0) 8,
  .v4 (dotted 169 254 0 0) 16,
  .v4 (dotted 172 16 0 0) 12,
  .v4 (dotted 192 0 0 0) 24,
  .v4 (dotted 192 0 2 0) 24,
  .v4 (dotted 192 88 99 0) 24,
  .v4 (dotted 192 168 0 0) 16,
  .v4 (dotted 192 175 48 0) 24,
  .v4 (dotted 198 18 0 0) 15,
  .v4 (dotted 198 51 100 0) 24,
  .v4 (dotted 203 0 113 0) 24,
  .v4 (dotted 224 0 0 0) 4,
  .v4 (dotted 240 0 0 0) 4,
  .v4 (dotted 255 255 255 255) 32,
  .v6 (hextets [] [1]) 128,
  .v6 (hextets [] []) 128,
  .v6 (hextets [] [0xffff, 0, 0]) 96,
  .v6 (hextets [0x64, 0xff9b] []) 96,
  .v6 (hextets [0x64, 0xff9b, 1] []) 48,
  .v6 (hextets [0x100] []) 64,
  .v6 (hextets [0x2001] []) 32,
  .v6 (hextets [0x2001, 0x10] []) 28,
  .v6 (hextets [0x2001, 0x20] []) 28,
  .v6 (hextets [0x2001, 0xdb8] []) 32,
  .v6 (hextets [0x2002] []) 16,
  .v6 (hextets [0xfc00] []) 7,
  .v6 (hextets [0xfe80] []) 10,
  .v6 (hextets [0xff00] []) 8]

def cloudMetadataHosts : List String :=
  ["169.254.169.254", "169.254.170.2", "metadata.google.internal", "metadata.goog",
    "fd00:ec2::254"]

def cloudMetadataNetworks : List Network :=
  [.v4 (dotted 169 254 169 254) 32, .v4 (dotted 169 254 170 2) 32]

def llmEndpointBlockedNetworks : List Network :=
  [.v4 (dotted 169 254 169 254) 32, .v4 (dotted 169 254 170 2) 32]

def callbackBlockedNetworks : List Network :=
  [.v4 (dotted 169 254 169 254) 32, .v4 (dotted 169 254 170 2) 32, .v4 (dotted 127 0 0 0) 8,
    .v6 (hextets [] [1]) 128]

/-! ### Validators -/

/-- What `urlparse` returns. Reading the port raises `ValueError` if it is none. -/
structure Parsed where
  scheme : String
  netloc : String
  hostname : Option String
  port : Except String (Option ℕ)

/-- `str.lower`, `urlparse`, `getaddrinfo`, `ip_address` and `ip_network` (`none` where they raise),
and the whitelist. -/
structure Env where
  lower : String → String
  urlparse : String → Except String Parsed
  getaddrinfo : String → ℕ → Except String (List String)
  ipAddress : String → Option Address
  ipNetwork : String → Option Network
  networkWhitelistCidrs : Except String (List String)

/-- `SSRFError`, or a `ValueError` of what the validators call. -/
inductive Exn
  | ssrf (message : String)
  | value (message : String)
deriving DecidableEq, Repr

/-- `url.strip()`. -/
def stripped (url : String) : String := String.ofList (Py.strip url.toList)

section Validators

variable (env : Env)

/-- `_get_allowed_networks`. -/
def allowedNetworks : List Network :=
  match env.networkWhitelistCidrs with
  | .ok cidrs => cidrs.filterMap env.ipNetwork
  | .error _ => []

def isBlockedIp (ip : Address) : Bool × String :=
  let ipStr := ip.text
  if ipStr ∈ cloudMetadataHosts then (true, "云元数据地址 " ++ ipStr)
  else if Covers cloudMetadataNetworks ip then (true, "云元数据地址 " ++ ipStr)
  else if Covers (allowedNetworks env) ip then (false, "")
  else
    match blockedNetworks.find? (·.Has ip) with
    | some network => (true, "禁止的网段 " ++ network.text)
    | none => (false, "")

/-- The steps before an address is looked at: the checks of the scheme and of the host name, and
the answer for the name. -/
def resolve (allowlist : Option (List String)) (url : String) : Except Exn (List String) := do
  let parsed ← (env.urlparse url).mapError .value
  let scheme := env.lower parsed.scheme
  if scheme ∉ allowedSchemes then
    throw (.ssrf ("不允许的协议: " ++ scheme ++ "，仅支持 http/https"))
  if parsed.netloc = "" ∨ parsed.hostname.getD "" = "" then throw (.ssrf "URL 必须包含有效主机名")
  let hostname := env.lower (parsed.hostname.getD "")
  if hostname ∈ cloudMetadataHosts then throw (.ssrf ("禁止访问云元数据地址: " ++ hostname))
  if allowlist.any (hostname ∉ ·) then throw (.ssrf ("主机 " ++ hostname ++ " 不在允许列表中"))
  let port ← parsed.port.mapError .value
  -- the port 0 counts as none
  let port := if port.getD 0 = 0 then (if scheme = "https" then 443 else 80) else port.getD 0
  let addrInfos ← (env.getaddrinfo hostname port).mapError
    fun e => .ssrf ("无法解析主机名 " ++ hostname ++ ": " ++ e)
  if addrInfos = [] then throw (.ssrf ("主机名 " ++ hostname ++ " 无法解析"))
  return addrInfos

/-- The loop over the answer: a text that is no address is passed over, and an address with a
refusal ends it. -/
def checkAddresses (refusal : String → Address → Option String) : List String → Except Exn Unit
  | [] => .ok ()
  | ipStr :: addrInfos =>
    match env.ipAddress ipStr with
    | none => checkAddresses refusal addrInfos
    | some ip =>
      match refusal ipStr ip with
      | some message => .error (.ssrf message)
      | none => checkAddresses refusal addrInfos

def validateWith (refusal : String → Address → Option String) (allowlist : Option (List String))
    (url : String) : Except Exn String := do
  let addrInfos ← resolve env allowlist url
  checkAddresses env refusal addrInfos
  return url

/-- The refusal of `validate`. -/
def refusal (_ : String) (ip : Address) : Option String :=
  let (blocked, reason) := isBlockedIp env ip
  if blocked then some ("目标地址被禁止: " ++ reason) else none

/-- The refusal of `validate_llm_endpoint`. -/
def llmEndpointRefusal (ipStr : String) (ip : Address) : Option String :=
  if Covers llmEndpointBlockedNetworks ip then some ("禁止访问云元数据地址: " ++ ipStr) else none

/-- The refusal of `validate_callback`. -/
def callbackRefusal (ipStr : String) (ip : Address) : Option String :=
  match callbackBlockedNetworks.find? (·.Has ip) with
  | some network =>
    if network = .v4 (dotted 127 0 0 0) 8 ∨ network = .v6 (hextets [] [1]) 128 then
      some ("禁止访问 localhost: " ++ ipStr)
    else some ("禁止访问云元数据地址: " ++ ipStr)
  | none => none

def validate (url : String) (allowlist : Option (List String)) : Except Exn String :=
  if stripped url = "" then .error (.ssrf "URL 不能为空")
  else validateWith env (refusal env) allowlist (stripped url)

def validateLlmEndpoint (url : String) : Except Exn String :=
  if stripped url = "" then .error (.ssrf "URL 不能为空")
  else validateWith env llmEndpointRefusal none (stripped url)

/-- `validate_callback`. Without a URL there is nothing to check. -/
def validateCallback (callbackUrl : Option String) : Except Exn (Option String) :=
  let url := stripped (callbackUrl.getD "")
  if url = "" then .ok none
  else (validateWith env callbackRefusal none url).map some

end Validators

/-! ### Metadata and loopback addresses -/

def metadataAddresses : List Address :=
  [.v4 (dotted 169 254 169 254), .v4 (dotted 169 254 170 2), .v6 (hextets [0xfd00, 0xec2] [0x254])]

def IsMetadata (ip : Address) : Prop := ∃ address ∈ metadataAddresses, ip.IsFormOf address

def IsLoopback (ip : Address) : Prop :=
  ∃ address, Covers [.v4 (dotted 127 0 0 0) 8, .v6 (hextets [] [1]) 128] address ∧
    ip.IsFormOf address

def CarriesMetadata (ip : Address) : Prop :=
  ip = .mapped (dotted 169 254 169 254) ∨ ip = .mapped (dotted 169 254 170 2)

def IsMetadataV6 (ip : Address) : Prop := ip = .v6 (hextets [0xfd00, 0xec2] [0x254])

def CarriesLoopback (ip : Address) : Prop :=
  ∃ value, (Network.v4 (dotted 127 0 0 0) 8).Has (.v4 value) ∧ ip = .mapped value

section Forms

variable {ip : Address}

theorem isMetadata_iff : IsMetadata ip ↔
    ip = .v4 (dotted 169 254 169 254) ∨ ip = .v4 (dotted 169 254 170 2) ∨ IsMetadataV6 ip ∨
      CarriesMetadata ip := by
  simp only [IsMetadata, metadataAddresses, List.mem_cons, List.not_mem_nil, or_false,
    exists_eq_or_imp, exists_eq_left, isFormOf_v4, isFormOf_v6, IsMetadataV6, CarriesMetadata]
  tauto

theorem isLoopback_iff : IsLoopback ip ↔
    Covers [.v4 (dotted 127 0 0 0) 8, .v6 (hextets [] [1]) 128] ip ∨ CarriesLoopback ip := by
  constructor
  · rintro ⟨address, h_covers, rfl | ⟨value, rfl, rfl⟩⟩
    · exact .inl h_covers
    · refine .inr ⟨value, ?_, rfl⟩
      -- the loopback network of version 6 does not have it
      obtain ⟨network, h_network, h_has⟩ := h_covers
      rcases List.mem_pair.mp h_network with rfl | rfl
      · exact h_has
      · exact h_has.elim
  · rintro (h_covers | ⟨value, h_has, rfl⟩)
    · exact ⟨ip, h_covers, .inl rfl⟩
    · exact ⟨.v4 value, ⟨_, List.mem_cons_self, h_has⟩, .inr ⟨value, rfl, rfl⟩⟩

end Forms

/-! ### Refusals -/

section Refusals

variable {env : Env} {ipStr : String} {ip : Address}

theorem find_has_eq_none {networks : List Network} :
    networks.find? (·.Has ip) = none ↔ ¬Covers networks ip := by
  simp [List.find?_eq_none, Covers]

/-- **Blocked addresses.** The whitelist is an exception from the special networks only. -/
theorem isBlockedIp_iff : (isBlockedIp env ip).1 = true ↔
    ip.text ∈ cloudMetadataHosts ∨ Covers cloudMetadataNetworks ip ∨
      ¬Covers (allowedNetworks env) ip ∧ Covers blockedNetworks ip := by
  rw [isBlockedIp]
  split_ifs with h_text h_metadata h_allowed
  · exact iff_of_true rfl (.inl h_text)
  · exact iff_of_true rfl (.inr (.inl h_metadata))
  · have h_no : ¬(ip.text ∈ cloudMetadataHosts ∨ Covers cloudMetadataNetworks ip ∨
        ¬Covers (allowedNetworks env) ip ∧ Covers blockedNetworks ip) := by tauto
    exact iff_of_false not_false h_no
  · rw [or_iff_right h_text, or_iff_right h_metadata, and_iff_right h_allowed]
    cases h_find : blockedNetworks.find? (·.Has ip) with
    | some network =>
      refine iff_of_true rfl (not_not.mp fun h_not => ?_)
      rw [find_has_eq_none.mpr h_not] at h_find
      cases h_find
    | none => exact iff_of_false Bool.false_ne_true (find_has_eq_none.mp h_find)

theorem refusal_eq_none : refusal env ipStr ip = none ↔ ¬(isBlockedIp env ip).1 = true := by
  simp [refusal]

theorem llmEndpointRefusal_eq_none :
    llmEndpointRefusal ipStr ip = none ↔ ¬Covers llmEndpointBlockedNetworks ip := by
  simp [llmEndpointRefusal]

theorem callbackRefusal_eq_none :
    callbackRefusal ipStr ip = none ↔ ¬Covers callbackBlockedNetworks ip := by
  rw [← find_has_eq_none, callbackRefusal]
  cases callbackBlockedNetworks.find? (·.Has ip) with
  | none => exact iff_of_true rfl rfl
  | some network =>
    refine iff_of_false (fun h => ?_) (Option.some_ne_none _)
    dsimp only at h
    split_ifs at h

theorem mapped_ne_loopback (value : BitVec 32) :
    ¬(Network.v6 (hextets [] [1]) 128).Has (.mapped value) := by
  intro (h : SamePart _ _ 128)
  -- the two differ in bit 32
  have h_mapped : ((0xffff : BitVec 96) ++ value).getLsbD 32 = true := by
    rw [BitVec.getLsbD_append, if_neg (by omega)]
    decide
  have h_loopback : (hextets [] [1]).getLsbD 32 = false := by decide +kernel
  simp only [SamePart, Nat.sub_self, BitVec.ushiftRight_zero] at h
  rw [h, h_loopback] at h_mapped
  exact Bool.false_ne_true h_mapped

theorem not_covers_mapped {networks : List Network} {value : BitVec 32}
    (h : ∀ network ∈ networks, (∃ address prefixlen, network = .v4 address prefixlen) ∨
      network = .v6 (hextets [] [1]) 128) : ¬Covers networks (.mapped value) := by
  rintro ⟨network, h_network, h_has⟩
  obtain ⟨address, prefixlen, rfl⟩ | rfl := h network h_network
  · exact h_has
  · exact mapped_ne_loopback value h_has

theorem not_blocked_iff : IsMetadata ip ∧ ¬(isBlockedIp env ip).1 = true ↔
    CarriesMetadata ip ∧ Covers (allowedNetworks env) ip := by
  have h_direct : ∀ address ∈ metadataAddresses, address.text ∈ cloudMetadataHosts := by
    decide +kernel
  have h_carries : CarriesMetadata ip → ip.text ∉ cloudMetadataHosts ∧
      ¬Covers cloudMetadataNetworks ip ∧ Covers blockedNetworks ip := by
    rintro (rfl | rfl) <;> decide +kernel
  rw [isBlockedIp_iff, isMetadata_iff]
  constructor
  · rintro ⟨rfl | rfl | rfl | h_ip, h_open⟩
    · exact absurd (.inl (h_direct _ (by decide))) h_open
    · exact absurd (.inl (h_direct _ (by decide))) h_open
    · exact absurd (.inl (h_direct _ (by decide))) h_open
    · have h_facts := h_carries h_ip
      exact ⟨h_ip, by tauto⟩
  · rintro ⟨h_ip, h_allowed⟩
    have h_facts := h_carries h_ip
    exact ⟨.inr (.inr (.inr h_ip)), by tauto⟩

theorem not_covers_llmEndpoint_iff : IsMetadata ip ∧ ¬Covers llmEndpointBlockedNetworks ip ↔
    CarriesMetadata ip ∨ IsMetadataV6 ip := by
  rw [isMetadata_iff]
  constructor
  · rintro ⟨rfl | rfl | h_ip | h_ip, h_open⟩
    · exact absurd (by decide) h_open
    · exact absurd (by decide) h_open
    · exact .inr h_ip
    · exact .inl h_ip
  · rintro ((rfl | rfl) | rfl)
    · exact ⟨.inr (.inr (.inr (.inl rfl))), by decide⟩
    · exact ⟨.inr (.inr (.inr (.inr rfl))), by decide⟩
    · exact ⟨.inr (.inr (.inl rfl)), by decide⟩

theorem not_covers_callback_iff :
    (IsMetadata ip ∨ IsLoopback ip) ∧ ¬Covers callbackBlockedNetworks ip ↔
      CarriesMetadata ip ∨ IsMetadataV6 ip ∨ CarriesLoopback ip := by
  have h_mapped : ∀ value, ¬Covers callbackBlockedNetworks (.mapped value) := by
    intro value
    refine not_covers_mapped ?_
    simp [callbackBlockedNetworks]
  rw [isMetadata_iff, isLoopback_iff]
  constructor
  · rintro ⟨(rfl | rfl | h_ip | h_ip) | ⟨network, h_network, h_has⟩ | h_ip, h_open⟩
    · exact absurd (by decide) h_open
    · exact absurd (by decide) h_open
    · exact .inr (.inl h_ip)
    · exact .inl h_ip
    · refine absurd ⟨network, ?_, h_has⟩ h_open
      rcases List.mem_pair.mp h_network with rfl | rfl <;> simp [callbackBlockedNetworks]
    · exact .inr (.inr h_ip)
  · rintro (h_ip | h_ip | h_ip)
    · refine ⟨.inl (.inr (.inr (.inr h_ip))), ?_⟩
      rcases h_ip with rfl | rfl <;> exact h_mapped _
    · refine ⟨.inl (.inr (.inr (.inl h_ip))), ?_⟩
      rw [IsMetadataV6] at h_ip
      subst h_ip
      decide
    · refine ⟨.inr (.inr h_ip), ?_⟩
      obtain ⟨value, -, rfl⟩ := h_ip
      exact h_mapped value

end Refusals

/-! ### What is accepted -/

def addresses (env : Env) (allowlist : Option (List String)) (url : String) : List Address :=
  if stripped url = "" then []
  else
    match resolve env allowlist (stripped url) with
    | .ok addrInfos => addrInfos.filterMap env.ipAddress
    | .error _ => []

section Accepted

variable {env : Env} {allowlist : Option (List String)} {url : String}
  {refusal : String → Address → Option String} {Refused Unsafe Evades : Address → Prop}

variable (env) in
theorem checkAddresses_eq_ok (h : ∀ ipStr ip, refusal ipStr ip = none ↔ ¬Refused ip)
    (addrInfos : List String) : checkAddresses env refusal addrInfos = .ok () ↔
      ∀ ip ∈ addrInfos.filterMap env.ipAddress, ¬Refused ip := by
  induction addrInfos with
  | nil => simp [checkAddresses]
  | cons ipStr addrInfos ih =>
    rw [checkAddresses]
    cases h_ip : env.ipAddress ipStr with
    | none => rw [List.filterMap_cons_none h_ip]; exact ih
    | some ip =>
      rw [List.filterMap_cons_some h_ip, List.forall_mem_cons, ← h ipStr ip, ← ih]
      cases h_refusal : refusal ipStr ip with
      | none => simp [h_refusal]
      | some message => simp [h_refusal]

theorem validateWith_eq_ok (h : ∀ ipStr ip, refusal ipStr ip = none ↔ ¬Refused ip)
    (h_url : stripped url ≠ "") :
    (∃ u, validateWith env refusal allowlist (stripped url) = .ok u) ↔
      (∃ addrInfos, resolve env allowlist (stripped url) = .ok addrInfos) ∧
        ∀ ip ∈ addresses env allowlist url, ¬Refused ip := by
  rw [validateWith, addresses, if_neg h_url]
  cases resolve env allowlist (stripped url) with
  | error e => simp [bind, Except.bind]
  | ok addrInfos =>
    have h_check := checkAddresses_eq_ok env h addrInfos
    rw [← h_check]
    cases h_loop : checkAddresses env refusal addrInfos <;>
      simp [bind, Except.bind, pure, Except.pure, h_loop]

theorem safe_iff (h : ∀ ipStr ip, refusal ipStr ip = none ↔ ¬Refused ip)
    (h_evades : ∀ ip, Unsafe ip ∧ ¬Refused ip ↔ Evades ip) :
    (stripped url ≠ "" → (∃ u, validateWith env refusal allowlist (stripped url) = .ok u) →
      ∀ ip ∈ addresses env allowlist url, ¬Unsafe ip) ↔
    ((∃ ip ∈ addresses env allowlist url, Evades ip) →
      ∃ ip ∈ addresses env allowlist url, Refused ip) := by
  constructor
  · rintro h_safe ⟨ip, h_ip, h_ev⟩
    by_contra h_none
    push Not at h_none
    -- there is an address, so the URL is not blank and its name is resolved
    have h_url : stripped url ≠ "" := by
      intro h_blank
      rw [addresses, if_pos h_blank] at h_ip
      exact List.not_mem_nil h_ip
    have h_resolved : ∃ addrInfos, resolve env allowlist (stripped url) = .ok addrInfos := by
      rw [addresses, if_neg h_url] at h_ip
      cases h_resolve : resolve env allowlist (stripped url) with
      | ok addrInfos => exact ⟨addrInfos, rfl⟩
      | error e =>
        rw [h_resolve] at h_ip
        exact absurd h_ip List.not_mem_nil
    have h_accepted := (validateWith_eq_ok h h_url).mpr ⟨h_resolved, h_none⟩
    exact h_safe h_url h_accepted ip h_ip ((h_evades ip).mpr h_ev).1
  · intro h_refused h_url h_accepted ip h_ip h_not_safe
    have h_open := ((validateWith_eq_ok h h_url).mp h_accepted).2
    obtain ⟨other, h_other, h_no⟩ :=
      h_refused ⟨ip, h_ip, (h_evades ip).mp ⟨h_not_safe, h_open ip h_ip⟩⟩
    exact h_open other h_other h_no

theorem validate_eq_ok : (∃ u, validate env url allowlist = .ok u) ↔ stripped url ≠ "" ∧
    ∃ u, validateWith env (SsrfValidator.refusal env) allowlist (stripped url) = .ok u := by
  rw [validate]
  split_ifs with h <;> simp [h]

theorem validateLlmEndpoint_eq_ok : (∃ u, validateLlmEndpoint env url = .ok u) ↔
    stripped url ≠ "" ∧
      ∃ u, validateWith env llmEndpointRefusal none (stripped url) = .ok u := by
  rw [validateLlmEndpoint]
  split_ifs with h <;> simp [h]

theorem validateCallback_eq_ok {callbackUrl : Option String} :
    (∃ u, validateCallback env callbackUrl = .ok (some u)) ↔
      stripped (callbackUrl.getD "") ≠ "" ∧
        ∃ u, validateWith env callbackRefusal none (stripped (callbackUrl.getD "")) = .ok u := by
  rw [validateCallback]
  split_ifs with h
  · simp [h]
  · rw [and_iff_right h]
    cases validateWith env callbackRefusal none (stripped (callbackUrl.getD "")) <;>
      simp [Except.map]

variable (env url allowlist) in
/-- **Acceptance.** No whitelist opens the metadata addresses, and it opens every other one. -/
theorem validate_iff : (∃ u, validate env url allowlist = .ok u) ↔ stripped url ≠ "" ∧
    (∃ addrInfos, resolve env allowlist (stripped url) = .ok addrInfos) ∧
      ∀ ip ∈ addresses env allowlist url, ip.text ∉ cloudMetadataHosts ∧
        ¬Covers cloudMetadataNetworks ip ∧
          (Covers blockedNetworks ip → Covers (allowedNetworks env) ip) := by
  rw [validate_eq_ok]
  refine and_congr_right fun h_url => ?_
  have h_refusal (ipStr : String) (ip : Address) : SsrfValidator.refusal env ipStr ip = none ↔
      ¬(isBlockedIp env ip).1 = true := refusal_eq_none
  simp only [validateWith_eq_ok h_refusal h_url, isBlockedIp_iff, not_or, not_and, not_imp_not]

end Accepted

/-- **Accepted URLs.** Which validators let which addresses through. -/
theorem acceptance_iff (env : Env) (url : String) (allowlist : Option (List String))
    (callbackUrl : Option String) :
    (((∃ u, validate env url allowlist = .ok u) →
        ∀ ip ∈ addresses env allowlist url, ¬IsMetadata ip) ↔
      ((∃ ip ∈ addresses env allowlist url, CarriesMetadata ip ∧ Covers (allowedNetworks env) ip) →
        ∃ ip ∈ addresses env allowlist url, (isBlockedIp env ip).1 = true)) ∧
    (((∃ u, validateLlmEndpoint env url = .ok u) →
        ∀ ip ∈ addresses env none url, ¬IsMetadata ip) ↔
      ((∃ ip ∈ addresses env none url, CarriesMetadata ip ∨ IsMetadataV6 ip) →
        ∃ ip ∈ addresses env none url, Covers llmEndpointBlockedNetworks ip)) ∧
    (((∃ u, validateCallback env callbackUrl = .ok (some u)) →
        ∀ ip ∈ addresses env none (callbackUrl.getD ""), ¬(IsMetadata ip ∨ IsLoopback ip)) ↔
      ((∃ ip ∈ addresses env none (callbackUrl.getD ""),
          CarriesMetadata ip ∨ IsMetadataV6 ip ∨ CarriesLoopback ip) →
        ∃ ip ∈ addresses env none (callbackUrl.getD ""),
          Covers callbackBlockedNetworks ip)) := by
  refine ⟨?_, ?_, ?_⟩
  · rw [validate_eq_ok, and_imp]
    exact safe_iff (fun ipStr ip => refusal_eq_none) fun ip => not_blocked_iff
  · rw [validateLlmEndpoint_eq_ok, and_imp]
    exact safe_iff (fun ipStr ip => llmEndpointRefusal_eq_none) fun ip =>
      not_covers_llmEndpoint_iff
  · rw [validateCallback_eq_ok, and_imp]
    exact safe_iff (fun ipStr ip => callbackRefusal_eq_none) fun ip => not_covers_callback_iff

section Examples

private def carriedUrl : String := "http://[::ffff:169.254.169.254]/"

/-- The answer for the address in the URL, with the mapped addresses in the whitelist. -/
private def carriedEnv : Env where
  lower s := s.map Char.toLower
  urlparse url :=
    if url = carriedUrl then
      .ok ⟨"http", "[::ffff:169.254.169.254]", some "::ffff:169.254.169.254", .ok none⟩
    else .error "Invalid IPv6 URL"
  getaddrinfo hostname _ :=
    if hostname = "::ffff:169.254.169.254" then .ok [hostname]
    else .error "Name or service not known"
  ipAddress ipStr :=
    if ipStr = "::ffff:169.254.169.254" then some (.mapped (dotted 169 254 169 254)) else none
  ipNetwork cidr :=
    if cidr = "::ffff:0:0/96" then some (.v6 (hextets [] [0xffff, 0, 0]) 96) else none
  networkWhitelistCidrs := .ok ["::ffff:0:0/96"]

/-- All three accept `http://[::ffff:169.254.169.254]/`, the strict one with `::ffff:0:0/96` in the
whitelist. -/
theorem metadata_accepted :
    (¬∀ env url allowlist, (∃ u, validate env url allowlist = .ok u) →
      ∀ ip ∈ addresses env allowlist url, ¬IsMetadata ip) ∧
    (¬∀ env url, (∃ u, validateLlmEndpoint env url = .ok u) →
      ∀ ip ∈ addresses env none url, ¬IsMetadata ip) ∧
    ¬∀ env callbackUrl, (∃ u, validateCallback env callbackUrl = .ok (some u)) →
      ∀ ip ∈ addresses env none (callbackUrl.getD ""), ¬(IsMetadata ip ∨ IsLoopback ip) := by
  have h_mem : (.mapped (dotted 169 254 169 254)) ∈ addresses carriedEnv none carriedUrl := by
    decide +kernel
  have h_metadata : IsMetadata (.mapped (dotted 169 254 169 254)) :=
    isMetadata_iff.mpr (.inr (.inr (.inr (.inl rfl))))
  refine ⟨fun h => ?_, fun h => ?_, fun h => ?_⟩
  · exact h carriedEnv carriedUrl none ⟨carriedUrl, by decide +kernel⟩ _ h_mem h_metadata
  · exact h carriedEnv carriedUrl ⟨carriedUrl, by decide +kernel⟩ _ h_mem h_metadata
  · exact h carriedEnv (some carriedUrl) ⟨carriedUrl, by decide +kernel⟩ _ h_mem (.inl h_metadata)

end Examples

end Core.SsrfValidator

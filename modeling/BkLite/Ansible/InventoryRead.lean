import BkLite.Ansible.Inventory
import BkLite.Framework.Collect
import BkLite.Framework.Lines
import BkLite.Framework.Shlex

/-!
# Reading back the inventory of a request

The reader takes the inventory line by line: `shlex.split` gives the words of a line, the first is
the host, the others are split at their first `=`; a line of one word in brackets names a group.
-/

namespace Ansible
namespace Inventory

open Py Shlex

/-! ### The reader -/

inductive Entry
  | group (name : Line)
  | host (name : Line) (vars : List (Line × Line))
deriving DecidableEq

/-- A word split at its first `=`. -/
def splitAssign (token : Line) : Option (Line × Line) :=
  if '=' ∈ token then some (token.takeWhile (· ≠ '='), (token.dropWhile (· ≠ '=')).tail) else none

def isSection (token : Line) : Bool := token.head? = some '[' && token.getLast? = some ']'

def entryOf : List Line → Option (List Entry)
  | [] => some []
  | name :: tokens =>
    if isSection name = true ∧ tokens = [] then some [.group name.tail.dropLast]
    else (tokens.mapM splitAssign).map fun vars => [.host name vars]

def readLine (line : Line) : Option (List Entry) := split line >>= entryOf

def readInventory (text : List Char) : Option (List Entry) :=
  ((splitlines text).mapM readLine).map List.flatten

/-! ### What is written -/

section Given

variable (str : Value → String)

def validateHostCredentials : Value → Option (List Dict)
  | .null => some []
  | .list items => items.mapM fun
    | .dict item => if stripped (textOf str item "host") = "" then none else some item
    | _ => none
  | _ => none

def given (item : Dict) (key name : String) : List (String × String) :=
  let value := Value.lookup item key
  if value.truthy then [(name, str value)] else []

def givenPort (item : Dict) : List (String × String) :=
  match Value.lookup item "port" with
  | .null => []
  | _ =>
    if stripped (str (Value.lookup item "port")) = "" then []
    else [("ansible_port", str (Value.lookup item "port"))]

def givenWinrm (item : Dict) : List (String × String) :=
  if (Value.lookup item "connection").truthy && connectionWord str item = "winrm" then
    given str item "winrm_scheme" "ansible_winrm_scheme" ++
      given str item "winrm_transport" "ansible_winrm_transport" ++
      (match Value.lookup item "winrm_cert_validation" with
      | .bool false => [("ansible_winrm_server_cert_validation", "ignore")]
      | _ => [])
  else []

def givenSshArgs (item : Dict) : List (String × String) :=
  if (Value.lookup item "password").truthy && connectionWord str item = "ssh" then
    [("ansible_ssh_common_args", getPasswordAuthSshCommonArgs str item)]
  else []

def givenKey (workspace : String) (idx : ℕ) (item : Dict) : List (String × String) :=
  match keyContent str item with
  | some _ => [("ansible_ssh_private_key_file", workspace ++ "/" ++ keyFileName idx)]
  | none => given str item "private_key_file" "ansible_ssh_private_key_file"

def hostVars (workspace : String) (idx : ℕ) (item : Dict) : List (String × String) :=
  given str item "user" "ansible_user" ++ givenPort str item ++
    given str item "connection" "ansible_connection" ++ givenWinrm str item ++
    given str item "password" "ansible_password" ++ givenSshArgs str item ++
    givenKey str workspace idx item ++
    given str item "private_key_passphrase" "ansible_ssh_passphrase"

def hostOf (item : Dict) : Line := strip (textOf str item "host").toList

def entryFor (workspace : String) (idx : ℕ) (item : Dict) : Entry :=
  .host (hostOf str item) ((hostVars str workspace idx item).map fun v => (v.1.toList, v.2.toList))

def entriesFor (workspace : String) (items : List Dict) : List Entry :=
  if items = [] then []
  else .group "all".toList :: items.mapIdx fun idx item => entryFor str workspace idx item

end Given

def quoted (v : Line) : Line :=
  if v.any isSpace || v.any (· ∈ "#;\"\x27".toList) then '"' :: escaped v ++ ['"'] else escaped v

theorem toList_quoteInventoryValue (text : String) :
    (quoteInventoryValue text).toList = quoted text.toList := by
  unfold quoteInventoryValue quoted escaped
  dsimp only
  split_ifs with h
  · simp
  · simp

def hostText (host : Line) (vs : List (Line × Line)) : Line :=
  [' '].intercalate (host :: vs.map fun v => v.1 ++ '=' :: quoted v.2)

def assignment (v : String × String) : String := v.1 ++ "=" ++ quoteInventoryValue v.2

section Written

variable (str : Value → String) (item : Dict)

theorem variableOf_eq (key name : String) :
    variableOf str item key name = (given str item key name).map assignment := by
  unfold variableOf given
  dsimp only
  split_ifs <;> rfl

theorem portPart_eq :
    (match Value.lookup item "port" with
      | .null => []
      | _ =>
        if stripped (str (Value.lookup item "port")) = "" then []
        else ["ansible_port=" ++ quoteInventoryValue (str (Value.lookup item "port"))]) =
      (givenPort str item).map assignment := by
  unfold givenPort
  generalize Value.lookup item "port" = port
  cases port with
  | null => rfl
  | _ =>
    dsimp only
    split_ifs <;> rfl

theorem winrm_eq :
    (if (Value.lookup item "connection").truthy && connectionWord str item = "winrm" then
      variableOf str item "winrm_scheme" "ansible_winrm_scheme" ++
        variableOf str item "winrm_transport" "ansible_winrm_transport" ++
        (match Value.lookup item "winrm_cert_validation" with
        | .bool false => ["ansible_winrm_server_cert_validation=ignore"]
        | _ => [])
    else []) = (givenWinrm str item).map assignment := by
  have h_ignore : assignment ("ansible_winrm_server_cert_validation", "ignore") =
      "ansible_winrm_server_cert_validation=ignore" := by decide
  unfold givenWinrm
  split_ifs
  · rw [variableOf_eq, variableOf_eq, List.map_append, List.map_append]
    congr 1
    split
    · rw [List.map_singleton, h_ignore]
    · rfl
  · rfl

theorem sshArgs_eq :
    (if (Value.lookup item "password").truthy && connectionWord str item = "ssh" then
      ["ansible_ssh_common_args=" ++ quoteInventoryValue (getPasswordAuthSshCommonArgs str item)]
    else []) = (givenSshArgs str item).map assignment := by
  unfold givenSshArgs
  split_ifs <;> rfl

theorem keyPart_eq (workspace : String) (idx : ℕ) :
    (match keyContent str item with
      | some _ => ["ansible_ssh_private_key_file=" ++
        quoteInventoryValue (workspace ++ "/" ++ keyFileName idx)]
      | none => variableOf str item "private_key_file" "ansible_ssh_private_key_file") =
      (givenKey str workspace idx item).map assignment := by
  unfold givenKey
  cases keyContent str item with
  | some key => rfl
  | none => exact variableOf_eq str item _ _

theorem toList_hostLine (workspace : String) (idx : ℕ) :
    (hostLine str workspace idx item).toList = hostText (hostOf str item)
      ((hostVars str workspace idx item).map fun v => (v.1.toList, v.2.toList)) := by
  have h_line : hostLine str workspace idx item = " ".intercalate
      (stripped (textOf str item "host") ::
        (hostVars str workspace idx item).map assignment) := by
    unfold hostVars
    simp only [List.map_append, ← variableOf_eq, ← portPart_eq, ← winrm_eq, ← sshArgs_eq,
      ← keyPart_eq]
    rfl
  have h_assign (v : String × String) :
      (assignment v).toList = v.1.toList ++ '=' :: quoted v.2.toList := by
    unfold assignment
    rw [String.toList_append, String.toList_append, toList_quoteInventoryValue,
      List.append_assoc]
    rfl
  rw [h_line, String.toList_intercalate]
  unfold hostText hostOf stripped
  simp only [List.map_cons, List.map_map, Function.comp_def, h_assign, String.toList_ofList]
  rfl

end Written

/-! ### Lines are read back -/

section Reading

variable {host : Line} {vs : List (Line × Line)}

theorem isSpace_of_isBlank {c : Char} (h : isBlank c = true) : isSpace c = true := by
  simp only [isBlank, Bool.or_eq_true, decide_eq_true_eq] at h
  obtain ((rfl | rfl) | rfl) | rfl := h <;> decide

def IsName (name : Line) : Prop :=
  ∀ c ∈ name, isPlain c = true ∧ isLineBreak c = false ∧ c ≠ '='

instance : DecidablePred IsName := fun name =>
  decidable_of_iff
    (name.all (fun c => isPlain c = true ∧ isLineBreak c = false ∧ c ≠ '=') = true) (by
      unfold IsName
      rw [List.all_eq_true]
      simp only [decide_eq_true_eq])

theorem reads_assign {name : Line} (h_name : IsName name) (v : Line) :
    Reads (name ++ '=' :: quoted v) (name ++ '=' :: v) := by
  refine ⟨by simp, fun cs => ?_⟩
  have h_plain : ∀ c ∈ name ++ ['='], isPlain c = true := by
    intro c h_c
    obtain h_c | h_c := List.mem_append.mp h_c
    · exact (h_name c h_c).1
    · rw [List.mem_singleton.mp h_c]
      decide
  have h_split (w : Line) : name ++ '=' :: w = (name ++ ['=']) ++ w := by
    rw [List.append_assoc, List.singleton_append]
  rw [h_split (quoted v), h_split v, List.append_assoc, read_plain_append h_plain, List.nil_append]
  unfold quoted
  split_ifs with h
  · refine ⟨true, ?_⟩
    rw [List.append_assoc, List.singleton_append, List.cons_append, Shlex.read, if_neg (by decide),
      if_neg (by decide), if_neg (by decide), if_pos (.inl rfl)]
    exact read_quoted
  · refine ⟨false, read_escaped fun c h_c => ?_⟩
    -- there is no blank, no quote and no comment in it
    rw [Bool.or_eq_true, not_or, List.any_eq_true, List.any_eq_true] at h
    have h_special : c ∉ "#;\"\x27".toList := fun h_mem => h.2 ⟨c, h_c, decide_eq_true h_mem⟩
    have h_blank : isBlank c = false := by
      by_contra h_is
      exact h.1 ⟨c, h_c, isSpace_of_isBlank (Bool.not_eq_false _ ▸ h_is)⟩
    simp at h_special
    exact ⟨h_blank, h_special.1, h_special.2.2.1, h_special.2.2.2⟩

theorem splitAssign_assign {name v : Line} (h_name : IsName name) :
    splitAssign (name ++ '=' :: v) = some (name, v) := by
  have h_take : (name ++ '=' :: v).takeWhile (· ≠ '=') = name := by
    rw [List.takeWhile_append_of_pos fun c h_c => decide_eq_true (h_name c h_c).2.2,
      List.takeWhile_cons_of_neg (by simp), List.append_nil]
  have h_drop : (name ++ '=' :: v).dropWhile (· ≠ '=') = '=' :: v := by
    rw [List.dropWhile_append_of_pos fun c h_c => decide_eq_true (h_name c h_c).2.2,
      List.dropWhile_cons_of_neg (by simp)]
  unfold splitAssign
  rw [if_pos (List.mem_append_right name List.mem_cons_self), h_take, h_drop]
  rfl

theorem mapM_splitAssign (h_names : ∀ v ∈ vs, IsName v.1) :
    (vs.map fun v => v.1 ++ '=' :: v.2).mapM splitAssign = some vs := by
  induction vs with
  | nil => rfl
  | cons v vs ih =>
    rw [List.map_cons, List.mapM_cons, splitAssign_assign (h_names v List.mem_cons_self),
      ih fun v' h_v' => h_names v' (List.mem_cons_of_mem v h_v')]
    rfl

theorem hostText_eq (host : Line) (vs : List (Line × Line)) :
    ∃ cs, hostText host vs = host ++ cs ∧ ∀ c ∈ cs.head?, isSpecial c = false := by
  cases vs with
  | nil => exact ⟨[], by simp [hostText], fun c h_c => nomatch h_c⟩
  | cons v vs =>
    refine ⟨' ' :: [' '].intercalate ((v :: vs).map fun v => v.1 ++ '=' :: quoted v.2), ?_, ?_⟩
    · unfold hostText
      rw [List.map_cons, List.intercalate_cons_cons, List.append_assoc]
      rfl
    · intro c h_c
      cases h_c
      decide

/-- **A line is read back** exactly if its host is a plain word, and not one in brackets alone. -/
theorem readLine_hostText_iff (h_ne : host ≠ []) (h_first : ∀ c ∈ host.head?, isBlank c = false)
    (h_names : ∀ v ∈ vs, IsName v.1) :
    readLine (hostText host vs) = some [.host host vs] ↔
      (∀ c ∈ host, isPlain c = true) ∧ ¬(isSection host = true ∧ vs = []) := by
  refine ⟨fun h => ?_, ?_⟩
  · obtain ⟨ts, h_split, h_entry⟩ := Option.bind_eq_some_iff.mp h
    obtain ⟨tokens, rfl, h_section⟩ : ∃ tokens, ts = host :: tokens ∧
        ¬(isSection host = true ∧ vs = []) := by
      cases ts with
      | nil => cases h_entry
      | cons name tokens =>
        dsimp only [entryOf] at h_entry
        split_ifs at h_entry with h_section
        · cases h_entry
        · obtain ⟨vs', h_vs', h_eq⟩ := Option.map_eq_some_iff.mp h_entry
          cases h_eq
          refine ⟨tokens, rfl, fun h_both => h_section ⟨h_both.1, ?_⟩⟩
          rw [h_both.2] at h_vs'
          exact List.eq_nil_of_mapM h_vs'
    refine ⟨?_, h_section⟩
    by_contra h_not
    obtain ⟨cs, h_line, h_cs⟩ := hostText_eq host vs
    rw [h_line] at h_split
    exact split_head_ne h_not h_first h_cs h_split rfl
  · rintro ⟨h_plain, h_section⟩
    have h_words := @split_joined
      ((host, host) :: vs.map fun v => (v.1 ++ '=' :: quoted v.2, v.1 ++ '=' :: v.2)) (by
        rintro p (_ | ⟨_, h_p⟩)
        · exact .plain h_ne h_plain
        · obtain ⟨v, h_v, rfl⟩ := List.mem_map.mp h_p
          exact reads_assign (h_names v h_v) v.2)
    rw [List.map_cons, List.map_cons, List.map_map, List.map_map] at h_words
    have h_split : split (hostText host vs) = some (host :: vs.map fun v => v.1 ++ '=' :: v.2) :=
      h_words
    unfold readLine
    rw [h_split]
    show entryOf (host :: _) = _
    dsimp only [entryOf]
    rw [if_neg, mapM_splitAssign h_names]
    · rfl
    · exact fun h_both => h_section ⟨h_both.1, List.map_eq_nil_iff.mp h_both.2⟩

/-! ### Inventories are read back -/

theorem readLine_length {line : Line} {es : List Entry} (h : readLine line = some es) :
    es.length ≤ 1 := by
  obtain ⟨ts, -, h_entry⟩ := Option.bind_eq_some_iff.mp h
  cases ts with
  | nil =>
    cases h_entry
    exact Nat.zero_le _
  | cons name tokens =>
    dsimp only [entryOf] at h_entry
    split_ifs at h_entry
    · cases h_entry
      exact le_rfl
    · obtain ⟨vs, -, rfl⟩ := Option.map_eq_some_iff.mp h_entry
      exact le_rfl

def Entry.InLine : Entry → Prop
  | .group _ => True
  | .host name vs => (∀ c ∈ name, isLineBreak c = false) ∧
    ∀ v ∈ vs, ∀ c ∈ v.2, isLineBreak c = false

theorem inLine_of_readInventory {text : List Char} {es : List Entry}
    (h : readInventory text = some es) : ∀ e ∈ es, e.InLine := by
  intro e h_e
  obtain ⟨yss, h_yss, rfl⟩ := Option.map_eq_some_iff.mp h
  obtain ⟨ys, h_ys, h_e⟩ := List.mem_flatten.mp h_e
  obtain ⟨line, h_line, h_read⟩ := List.exists_of_mem_mapM h_yss h_ys
  obtain ⟨ts, h_split, h_entry⟩ := Option.bind_eq_some_iff.mp h_read
  have h_token : ∀ t ∈ ts, ∀ c ∈ t, isLineBreak c = false := by
    intro t h_t c h_c
    obtain h_nil | h_mem | rfl := mem_of_read h_split h_t h_c
    · exact absurd h_nil List.not_mem_nil
    · exact (mem_of_mem_splitlines h_line h_mem).2
    · decide
  cases ts with
  | nil =>
    cases h_entry
    exact absurd h_e List.not_mem_nil
  | cons name tokens =>
    dsimp only [entryOf] at h_entry
    split_ifs at h_entry
    · cases h_entry
      rw [List.mem_singleton.mp h_e]
      exact trivial
    · obtain ⟨vs, h_vs, rfl⟩ := Option.map_eq_some_iff.mp h_entry
      rw [List.mem_singleton.mp h_e]
      refine ⟨h_token name List.mem_cons_self, fun v h_v c h_c => ?_⟩
      obtain ⟨token, h_mem, h_assign⟩ := List.exists_of_mem_mapM h_vs h_v
      unfold splitAssign at h_assign
      split_ifs at h_assign
      cases h_assign
      exact h_token token (List.mem_cons_of_mem name h_mem) c
        ((List.dropWhile_sublist _).subset (List.mem_of_mem_tail h_c))

/-- An item is read back. -/
structure Readable (host : Line) (vs : List (Line × Line)) : Prop where
  plain : ∀ c ∈ host, isPlain c = true ∧ isLineBreak c = false
  no_section : ¬(isSection host = true ∧ vs = [])
  values : ∀ v ∈ vs, ∀ c ∈ v.2, isLineBreak c = false

theorem mem_intercalate {sep c : Char} {ws : List Line} (h : c ∈ [sep].intercalate ws) :
    c = sep ∨ ∃ w ∈ ws, c ∈ w := by
  induction ws with
  | nil => exact absurd h List.not_mem_nil
  | cons w ws ih =>
    cases ws with
    | nil => exact .inr ⟨w, List.mem_cons_self, by simpa using h⟩
    | cons w' ws =>
      rw [List.intercalate_cons_cons, List.mem_append, List.mem_append, List.mem_singleton] at h
      obtain (h_here | rfl) | h_later := h
      · exact .inr ⟨w, List.mem_cons_self, h_here⟩
      · exact .inl rfl
      · exact (ih h_later).imp_right fun ⟨v, h_v, h_c⟩ => ⟨v, List.mem_cons_of_mem w h_v, h_c⟩

theorem hostText_inLine (h_host : ∀ c ∈ host, isLineBreak c = false)
    (h_names : ∀ v ∈ vs, IsName v.1) (h_values : ∀ v ∈ vs, ∀ c ∈ v.2, isLineBreak c = false) :
    ∀ c ∈ hostText host vs, isLineBreak c = false := by
  have h_quoted {v : Line} (h_v : ∀ c ∈ v, isLineBreak c = false) :
      ∀ c ∈ quoted v, isLineBreak c = false := by
    have h_escaped : ∀ c ∈ escaped v, isLineBreak c = false := by
      intro c h_c
      obtain ⟨d, h_d, h_c⟩ := List.mem_flatMap.mp h_c
      split_ifs at h_c
      · obtain rfl : c = '\\' := by simpa using h_c
        decide
      · obtain rfl | rfl : c = '\\' ∨ c = '"' := by simpa using h_c
        · decide
        · decide
      · rw [List.mem_singleton.mp h_c]
        exact h_v d h_d
    intro c h_c
    unfold quoted at h_c
    split_ifs at h_c
    · obtain rfl | h_c | rfl : c = '"' ∨ c ∈ escaped v ∨ c = '"' := by simpa using h_c
      · decide
      · exact h_escaped c h_c
      · decide
    · exact h_escaped c h_c
  have h_word : ∀ w ∈ host :: vs.map fun v => v.1 ++ '=' :: quoted v.2,
      ∀ c ∈ w, isLineBreak c = false := by
    rintro w (_ | ⟨_, h_w⟩)
    · exact h_host
    · obtain ⟨v, h_v, rfl⟩ := List.mem_map.mp h_w
      intro c h_c
      obtain h_c | h_c := List.mem_append.mp h_c
      · exact (h_names v h_v c h_c).2.1
      · obtain rfl | h_c := List.mem_cons.mp h_c
        · decide
        · exact h_quoted (h_values v h_v) c h_c
  intro c h_c
  obtain rfl | ⟨w, h_w, h_c⟩ := mem_intercalate h_c
  · decide
  · exact h_word w h_w c h_c

theorem readInventory_lines_iff {hs : List (Line × List (Line × Line))}
    (h_hs : ∀ h ∈ hs, h.1 ≠ [] ∧ (∀ c ∈ h.1.head?, isBlank c = false) ∧ ∀ v ∈ h.2, IsName v.1) :
    readInventory (("[all]".toList :: hs.map fun h => hostText h.1 h.2).flatMap (· ++ ['\n'])) =
        some (.group "all".toList :: hs.map fun h => .host h.1 h.2) ↔
      ∀ h ∈ hs, Readable h.1 h.2 := by
  -- the lines, if there is no other line boundary in them
  have h_lines (h_inLine : ∀ h ∈ hs, ∀ c ∈ hostText h.1 h.2, isLineBreak c = false) :
      readInventory (("[all]".toList :: hs.map fun h => hostText h.1 h.2).flatMap (· ++ ['\n'])) =
          some (.group "all".toList :: hs.map fun h => .host h.1 h.2) ↔
        ∀ h ∈ hs, readLine (hostText h.1 h.2) = some [.host h.1 h.2] := by
    have h_all : ∀ l ∈ "[all]".toList :: hs.map fun h => hostText h.1 h.2,
        ∀ c ∈ l, isLineBreak c = false := by
      rintro l (_ | ⟨_, h_l⟩)
      · exact List.forall_of_all (by decide)
      · obtain ⟨h, h_h, rfl⟩ := List.mem_map.mp h_l
        exact h_inLine h h_h
    have h_each := @List.mapM_flatten_iff (Line × List (Line × Line)) Line Entry readLine
      (fun h => hostText h.1 h.2) (fun h => .host h.1 h.2) (fun _ _ => readLine_length) hs
    rw [← h_each]
    unfold readInventory
    rw [splitlines_lines h_all, List.mapM_cons,
      show readLine "[all]".toList = some [.group "all".toList] by decide]
    cases (hs.map fun h => hostText h.1 h.2).mapM readLine with
    | none => exact ⟨fun h_eq => (nomatch h_eq), fun h_eq => (nomatch h_eq)⟩
    | some yss =>
      show some (.group "all".toList :: yss.flatten) = some (.group "all".toList :: _) ↔ _
      rw [Option.some.injEq, List.cons.injEq, eq_self, true_and]
      exact (Option.some_inj).symm
  refine ⟨fun h_read => ?_, fun h_readable => ?_⟩
  · have h_inLine : ∀ h ∈ hs, Entry.InLine (.host h.1 h.2) := fun h h_h =>
      inLine_of_readInventory h_read _ (List.mem_cons_of_mem _ (List.mem_map.mpr ⟨h, h_h, rfl⟩))
    have h_each := (h_lines fun h h_h =>
      hostText_inLine (h_inLine h h_h).1 (h_hs h h_h).2.2 (h_inLine h h_h).2).mp h_read
    intro h h_h
    obtain ⟨h_ne, h_first, h_names⟩ := h_hs h h_h
    obtain ⟨h_plain, h_section⟩ := (readLine_hostText_iff h_ne h_first h_names).mp (h_each h h_h)
    exact ⟨fun c h_c => ⟨h_plain c h_c, (h_inLine h h_h).1 c h_c⟩, h_section, (h_inLine h h_h).2⟩
  · refine (h_lines fun h h_h => ?_).mpr fun h h_h => ?_
    · obtain ⟨h_plain, -, h_values⟩ := h_readable h h_h
      exact hostText_inLine (fun c h_c => (h_plain c h_c).2) (h_hs h h_h).2.2 h_values
    · obtain ⟨h_ne, h_first, h_names⟩ := h_hs h h_h
      obtain ⟨h_plain, h_section, -⟩ := h_readable h h_h
      exact (readLine_hostText_iff h_ne h_first h_names).mpr
        ⟨fun c h_c => (h_plain c h_c).1, h_section⟩

end Reading

/-! ### Requests -/

section Requests

variable {str : Value → String} {workspace : String} {items : List Dict}

def varNames : List String :=
  ["ansible_user", "ansible_port", "ansible_connection", "ansible_winrm_scheme",
    "ansible_winrm_transport", "ansible_winrm_server_cert_validation", "ansible_password",
    "ansible_ssh_common_args", "ansible_ssh_private_key_file", "ansible_ssh_passphrase"]

theorem name_of_mem_given {item : Dict} {key name : String} {v : String × String}
    (h : v ∈ given str item key name) : v.1 = name := by
  unfold given at h
  dsimp only at h
  split_ifs at h
  · rw [List.mem_singleton.mp h]
  · exact absurd h List.not_mem_nil

theorem isName_of_mem_hostVars {idx : ℕ} {item : Dict} {v : String × String}
    (h : v ∈ hostVars str workspace idx item) : IsName v.1.toList := by
  have h_name : v.1 ∈ varNames := by
    have h_port (h_v : v ∈ givenPort str item) : v.1 = "ansible_port" := by
      unfold givenPort at h_v
      split at h_v
      · exact absurd h_v List.not_mem_nil
      · split_ifs at h_v
        · exact absurd h_v List.not_mem_nil
        · rw [List.mem_singleton.mp h_v]
    have h_winrm (h_v : v ∈ givenWinrm str item) : v.1 ∈ varNames := by
      unfold givenWinrm at h_v
      split_ifs at h_v
      · rw [List.mem_append, List.mem_append] at h_v
        obtain (h_v | h_v) | h_v := h_v
        · rw [name_of_mem_given h_v]
          decide
        · rw [name_of_mem_given h_v]
          decide
        · split at h_v
          · rw [List.mem_singleton.mp h_v]
            decide
          · exact absurd h_v List.not_mem_nil
      · exact absurd h_v List.not_mem_nil
    have h_ssh (h_v : v ∈ givenSshArgs str item) : v.1 = "ansible_ssh_common_args" := by
      unfold givenSshArgs at h_v
      split_ifs at h_v
      · rw [List.mem_singleton.mp h_v]
      · exact absurd h_v List.not_mem_nil
    have h_key (h_v : v ∈ givenKey str workspace idx item) :
        v.1 = "ansible_ssh_private_key_file" := by
      unfold givenKey at h_v
      split at h_v
      · rw [List.mem_singleton.mp h_v]
      · exact name_of_mem_given h_v
    simp only [hostVars, List.mem_append] at h
    obtain ((((((h | h) | h) | h) | h) | h) | h) | h := h
    · rw [name_of_mem_given h]
      decide
    · rw [h_port h]
      decide
    · rw [name_of_mem_given h]
      decide
    · exact h_winrm h
    · rw [name_of_mem_given h]
      decide
    · rw [h_ssh h]
      decide
    · rw [h_key h]
      decide
    · rw [name_of_mem_given h]
      decide
  have h_all : ∀ name ∈ varNames, IsName name.toList := List.forall_of_all (by decide)
  exact h_all v.1 h_name

theorem toList_hostsText (h_ne : items ≠ []) :
    (hostsText str workspace items).toList =
      ("[all]".toList :: items.mapIdx fun idx item =>
        (hostLine str workspace idx item).toList).flatMap (· ++ ['\n']) := by
  have h_join : ∀ ls : List Line, ls ≠ [] → ['\n'].intercalate ls ++ ['\n'] =
      ls.flatMap (· ++ ['\n']) := by
    intro ls h_ls
    induction ls with
    | nil => exact absurd rfl h_ls
    | cons l ls ih =>
      cases ls with
      | nil => simp
      | cons l' ls =>
        rw [List.intercalate_cons_cons, List.append_assoc, ih (List.cons_ne_nil l' ls)]
        rfl
  have h_lines : (items.mapIdx fun idx item => hostLine str workspace idx item) ≠ [] := by
    simpa using h_ne
  unfold hostsText
  dsimp only
  rw [if_neg (by simpa using h_ne)]
  rw [String.toList_append, String.toList_append, String.toList_intercalate, List.append_assoc,
    List.flatMap_cons]
  have h_map : (items.mapIdx fun idx item => hostLine str workspace idx item).map String.toList =
      items.mapIdx fun idx item => (hostLine str workspace idx item).toList := by
    rw [List.map_mapIdx]
  rw [h_map]
  exact congrArg ("[all]\n".toList ++ ·) (h_join _ (by simpa using h_ne))

theorem isBlank_head_strip (s : Line) : ∀ c ∈ (strip s).head?, isBlank c = false := by
  intro c h_c
  have h_prefix : strip s <+: s.dropWhile isSpace := by
    unfold strip
    have h_suffix := List.dropWhile_suffix (l := (s.dropWhile isSpace).reverse) isSpace
    have h_reverse := List.reverse_prefix.mpr h_suffix
    rwa [List.reverse_reverse] at h_reverse
  obtain ⟨r, h_r⟩ := h_prefix
  have h_head : (s.dropWhile isSpace).head? = some c := by
    rw [← h_r, List.head?_append, Option.mem_def.mp h_c]
    rfl
  have h_not := List.head?_dropWhile_not isSpace s
  rw [h_head] at h_not
  have h_space : isSpace c = false := h_not
  by_contra h_blank
  rw [isSpace_of_isBlank (Bool.not_eq_false _ ▸ h_blank)] at h_space
  cases h_space

theorem readInventory_iff (h_hosts : ∀ item ∈ items, hostOf str item ≠ []) :
    readInventory (hostsText str workspace items).toList = some (entriesFor str workspace items) ↔
      ∀ idx item, items[idx]? = some item → Readable (hostOf str item)
        ((hostVars str workspace idx item).map fun v => (v.1.toList, v.2.toList)) := by
  by_cases h_items : items = []
  · subst h_items
    exact ⟨fun _ idx item h_item => (nomatch h_item), fun _ => rfl⟩
  · -- the items as hosts with their variables
    set hs := items.mapIdx fun idx item => (hostOf str item,
      (hostVars str workspace idx item).map fun v => (v.1.toList, v.2.toList)) with h_hs
    have h_lines : (items.mapIdx fun idx item => (hostLine str workspace idx item).toList) =
        hs.map fun h => hostText h.1 h.2 := by
      rw [h_hs, List.map_mapIdx]
      simp only [toList_hostLine]
    have h_entries : entriesFor str workspace items =
        .group "all".toList :: hs.map fun h => .host h.1 h.2 := by
      unfold entriesFor
      rw [if_neg h_items, h_hs, List.map_mapIdx]
      rfl
    rw [toList_hostsText h_items, h_lines, h_entries, readInventory_lines_iff]
    · refine ⟨fun h idx item h_item => ?_, fun h p h_p => ?_⟩
      · have h_mem : hs[idx]? = some (hostOf str item,
            (hostVars str workspace idx item).map fun v => (v.1.toList, v.2.toList)) := by
          rw [h_hs, List.getElem?_mapIdx, h_item]
          rfl
        exact h _ (List.mem_of_getElem? h_mem)
      · obtain ⟨idx, h_idx, rfl⟩ := List.mem_mapIdx.mp h_p
        exact h idx items[idx] (List.getElem?_eq_getElem h_idx)
    · intro p h_p
      obtain ⟨idx, h_idx, rfl⟩ := List.mem_mapIdx.mp h_p
      refine ⟨h_hosts _ (List.getElem_mem h_idx), isBlank_head_strip _, fun v h_v => ?_⟩
      obtain ⟨v', h_v', rfl⟩ := List.mem_map.mp h_v
      exact isName_of_mem_hostVars h_v'

theorem hostOf_ne_nil {hostCredentials : Value}
    (h : validateHostCredentials str hostCredentials = some items) :
    ∀ item ∈ items, hostOf str item ≠ [] := by
  intro item h_item h_nil
  cases hostCredentials with
  | null =>
    cases h
    exact absurd h_item List.not_mem_nil
  | list xs =>
    obtain ⟨x, -, h_x⟩ := List.exists_of_mem_mapM h h_item
    cases x with
    | dict d =>
      dsimp only at h_x
      split_ifs at h_x with h_host
      cases h_x
      exact h_host (by unfold stripped; rw [show strip _ = [] from h_nil])
    | _ => cases h_x
  | _ => cases h

/-- **Round trip.** Hosts are plain words and values have no line boundary. -/
theorem readInventory_built_iff {hostCredentials : Value} {t t' : FileTree.Folder Bytes}
    {text : String} (h_valid : validateHostCredentials str hostCredentials = some items)
    (h_built : buildHostCredentialsInventory str workspace t items = .ok (t', text)) :
    readInventory text.toList = some (entriesFor str workspace items) ↔
      ∀ idx item, items[idx]? = some item → Readable (hostOf str item)
        ((hostVars str workspace idx item).map fun v => (v.1.toList, v.2.toList)) := by
  obtain ⟨-, rfl⟩ := buildHostCredentialsInventory_spec h_built
  exact readInventory_iff (hostOf_ne_nil h_valid)

section Examples

/-- `str` of a text. -/
private def strOfText : Value → String
  | .str s => s
  | _ => ""

private def withPassword (password : String) : Dict :=
  [("host", .str "10.0.0.1"), ("password", .str password)]

theorem readInventory_password :
    readInventory (hostsText strOfText "/work" [withPassword "a #\"b"]).toList =
      some (entriesFor strOfText "/work" [withPassword "a #\"b"]) := by
  refine (@readInventory_built_iff strOfText "/work" [withPassword "a #\"b"]
    (.list [.dict (withPassword "a #\"b")]) FileTree.empty FileTree.empty _ ?_ rfl).mpr ?_
  · rfl
  · rintro (_ | idx) item h_item
    · cases h_item
      refine ⟨List.forall_of_all (by decide +kernel), by decide +kernel, ?_⟩
      intro v h_v
      have h_value : v.2.all (fun c => isLineBreak c = false) = true := by
        revert v
        exact List.forall_of_all (by decide +kernel)
      exact List.forall_of_all h_value
    · cases h_item

/-- A line break in a password ends the line of its host. -/
theorem not_readInventory_built : ¬∀ (str : Value → String) (workspace : String)
    (hostCredentials : Value) (items : List Dict) (t t' : FileTree.Folder Bytes) (text : String),
    validateHostCredentials str hostCredentials = some items →
      buildHostCredentialsInventory str workspace t items = .ok (t', text) →
        readInventory text.toList = some (entriesFor str workspace items) := by
  intro h
  have h_read := h strOfText "/work" (.list [.dict (withPassword "a\nb")]) [withPassword "a\nb"]
    FileTree.empty FileTree.empty _ rfl rfl
  have h_hosts : ∀ item ∈ [withPassword "a\nb"], hostOf strOfText item ≠ [] := by
    intro item h_item
    rw [List.mem_singleton.mp h_item]
    decide +kernel
  obtain ⟨-, -, h_values⟩ := (readInventory_iff h_hosts).mp h_read 0 (withPassword "a\nb") rfl
  have h_value := h_values ("ansible_password".toList, "a\nb".toList) List.mem_cons_self '\n'
    (List.mem_cons_of_mem _ List.mem_cons_self)
  exact absurd h_value (by decide)

end Examples

end Requests

end Inventory
end Ansible

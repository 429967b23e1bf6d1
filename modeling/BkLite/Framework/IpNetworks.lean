import Mathlib.Data.BitVec

/-!
# Addresses and networks

An address of one of the two versions, a network given by one of its addresses and the length of
its prefix, and the texts both are written as. An address is in no network of the other version:
the form `::ffff:a.b.c.d` in which version 6 carries an address of version 4 (`Address.mapped`) is
in no network that the address it carries is in.
-/

namespace IpNetworks

inductive Address
  | v4 (value : BitVec 32)
  | v6 (value : BitVec 128)
deriving DecidableEq, Repr

/-- A network: the addresses of its version whose first `prefixlen` bits are those of `address`. -/
inductive Network
  | v4 (address : BitVec 32) (prefixlen : ℕ)
  | v6 (address : BitVec 128) (prefixlen : ℕ)
deriving DecidableEq, Repr

/-- `a` and `b` have the same first `n` bits. -/
def SamePart {w : ℕ} (a b : BitVec w) (n : ℕ) : Prop := a >>> (w - n) = b >>> (w - n)

instance {w : ℕ} (a b : BitVec w) (n : ℕ) : Decidable (SamePart a b n) :=
  inferInstanceAs (Decidable (_ = _))

/-- `address in network`. -/
def Network.Has : Network → Address → Prop
  | .v4 b n, .v4 a => SamePart a b n
  | .v6 b n, .v6 a => SamePart a b n
  | .v4 _ _, .v6 _ => False
  | .v6 _ _, .v4 _ => False

instance : (network : Network) → (ip : Address) → Decidable (network.Has ip)
  | .v4 b n, .v4 a => inferInstanceAs (Decidable (SamePart a b n))
  | .v6 b n, .v6 a => inferInstanceAs (Decidable (SamePart a b n))
  | .v4 _ _, .v6 _ => inferInstanceAs (Decidable False)
  | .v6 _ _, .v4 _ => inferInstanceAs (Decidable False)

def Covers (networks : List Network) (ip : Address) : Prop := ∃ network ∈ networks, network.Has ip

instance (networks : List Network) (ip : Address) : Decidable (Covers networks ip) :=
  inferInstanceAs (Decidable (∃ network ∈ networks, _))

def Address.mapped (value : BitVec 32) : Address := .v6 ((0xffff : BitVec 96) ++ value)

/-- `ip` is the address, or carries it. -/
def Address.IsFormOf (ip address : Address) : Prop :=
  ip = address ∨ ∃ value, address = .v4 value ∧ ip = .mapped value

theorem isFormOf_v4 {ip : Address} {value : BitVec 32} :
    ip.IsFormOf (.v4 value) ↔ ip = .v4 value ∨ ip = .mapped value := by
  refine or_congr_right ⟨?_, fun h => ⟨value, rfl, h⟩⟩
  rintro ⟨_, h_eq, rfl⟩
  rw [Address.v4.inj h_eq]

theorem isFormOf_v6 {ip : Address} {value : BitVec 128} :
    ip.IsFormOf (.v6 value) ↔ ip = .v6 value := by
  refine or_iff_left ?_
  rintro ⟨_, h_eq, -⟩
  cases h_eq

/-! ### Addresses from their texts -/

/-- The address written `a.b.c.d`. -/
def dotted (a b c d : BitVec 8) : BitVec 32 := a ++ b ++ c ++ d

/-- The address written `front::back`. -/
def hextets (front back : List ℕ) : BitVec 128 :=
  .ofNat 128 ((front ++ List.replicate (8 - front.length - back.length) 0 ++ back).foldl
    (fun n hextet => n * 65536 + hextet) 0)

/-! ### Texts -/

/-- The parts of `bits` bits of a number, the highest first. -/
def parts (bits : ℕ) : ℕ → ℕ → List ℕ
  | 0, _ => []
  | count + 1, n => parts bits count (n >>> bits) ++ [n % 2 ^ bits]

def zeros : List ℕ → ℕ
  | 0 :: hextets => zeros hextets + 1
  | _ => 0

def longestRun : List ℕ → ℕ × ℕ
  | [] => (0, 0)
  | hextet :: hextets =>
    let (start, length) := longestRun hextets
    let here := zeros (hextet :: hextets)
    if length ≤ here then (0, here) else (start + 1, length)

def hextetText (hextet : ℕ) : String := String.ofList (Nat.toDigits 16 hextet)

/-- `str(address)`. Two zero hextets or more in a row are left out, once. -/
def Address.text : Address → String
  | .v4 value => ".".intercalate ((parts 8 4 value.toNat).map toString)
  | .v6 value =>
    let hextets := parts 16 8 value.toNat
    let (start, length) := longestRun hextets
    if 1 < length then
      ":".intercalate ((hextets.take start).map hextetText) ++ "::" ++
        ":".intercalate ((hextets.drop (start + length)).map hextetText)
    else ":".intercalate (hextets.map hextetText)

/-- `str(network)`. -/
def Network.text : Network → String
  | .v4 address prefixlen =>
    Address.text (.v4 (address >>> (32 - prefixlen) <<< (32 - prefixlen))) ++ "/" ++
      toString prefixlen
  | .v6 address prefixlen =>
    Address.text (.v6 (address >>> (128 - prefixlen) <<< (128 - prefixlen))) ++ "/" ++
      toString prefixlen

end IpNetworks

import GrainDirectory.Text.Numeral
set_option autoImplicit false

/-!
# Endpoints

The network address of a process: an IPv4 address and a port, or an IPv6 address and a port with the
flow and scope it is qualified by.  This module fixes what an endpoint is, the order in which rings
and listings put endpoints, and the text in which an endpoint is printed.
-/

namespace GrainDirectory

/-- A network endpoint.  Addresses are numbers, the first octet or group being the most
significant. -/
inductive Endpoint where
  | v4 (address : BitVec 32) (port : UInt16)
  | v6 (address : BitVec 128) (port : UInt16) (flowInfo scopeId : UInt32)
  deriving DecidableEq, Repr

namespace Endpoint

instance : Inhabited Endpoint := ⟨.v4 0 0⟩

/-! ## The order of endpoints -/

/-- The number by which endpoints are ordered: IPv4 before IPv6, then by address, port, flow
information and scope. -/
def rank : Endpoint → Nat
  | .v4 address port => (address.toNat <<< 16) + port.toNat
  | .v6 address port flowInfo scopeId =>
    (1 <<< 48) + (address.toNat <<< 80) + (port.toNat <<< 64) + (flowInfo.toNat <<< 32)
      + scopeId.toNat

/-- Two endpoints of one rank are the same endpoint, so the order is total. -/
theorem rank_injective {a b : Endpoint} (h : a.rank = b.rank) : a = b := by
  cases a with
  | v4 address port =>
    cases b with
    | v4 address' port' =>
      have := port.toNat_lt
      have := port'.toNat_lt
      simp only [rank] at h
      have ha : address = address' := BitVec.eq_of_toNat_eq (by omega)
      have hp : port = port' := UInt16.toNat_inj.mp (by omega)
      rw [ha, hp]
    | v6 address' port' flowInfo' scopeId' =>
      have := port.toNat_lt
      have := address.isLt
      simp only [rank] at h
      omega
  | v6 address port flowInfo scopeId =>
    cases b with
    | v4 address' port' =>
      have := port'.toNat_lt
      have := address'.isLt
      simp only [rank] at h
      omega
    | v6 address' port' flowInfo' scopeId' =>
      have := port.toNat_lt
      have := port'.toNat_lt
      have := flowInfo.toNat_lt
      have := flowInfo'.toNat_lt
      have := scopeId.toNat_lt
      have := scopeId'.toNat_lt
      simp only [rank] at h
      have ha : address = address' := BitVec.eq_of_toNat_eq (by omega)
      have hp : port = port' := UInt16.toNat_inj.mp (by omega)
      have hf : flowInfo = flowInfo' := UInt32.toNat_inj.mp (by omega)
      have hs : scopeId = scopeId' := UInt32.toNat_inj.mp (by omega)
      rw [ha, hp, hf, hs]

/-! ## What a frame can carry -/

/-- The endpoint without the flow and scope that qualify an IPv6 address. -/
def unscoped : Endpoint → Endpoint
  | .v4 address port => .v4 address port
  | .v6 address port _ _ => .v6 address port 0 0

theorem unscoped_unscoped (e : Endpoint) : e.unscoped.unscoped = e.unscoped := by
  cases e <;> rfl

/-! ## Printing -/

/-- Dotted decimal. -/
def octets (address : BitVec 32) : String :=
  let n := address.toNat
  ".".intercalate
    [toString (n >>> 24), toString ((n >>> 16) % 256), toString ((n >>> 8) % 256),
      toString (n % 256)]

/-- The eight groups of an IPv6 address. -/
def groups (address : BitVec 128) : List Nat :=
  [7, 6, 5, 4, 3, 2, 1, 0].map fun i => (address.toNat >>> (16 * i)) % UInt16.size

/-- The address whose eight groups are given. -/
def ofGroups (gs : List Nat) : BitVec 128 :=
  BitVec.ofNat 128 (gs.foldl (fun n g => (n <<< 16) + g) 0)

/-- Where the longest run of zero groups starts and how long it is; the first of several that are
equally long. -/
def longestZeros (gs : List Nat) : Nat × Nat :=
  (List.range gs.length).foldl
    (fun best i =>
      let n := ((gs.drop i).takeWhile (· == 0)).length
      if best.2 < n then (i, n) else best)
    (0, 0)

/-- Groups in hexadecimal, separated by colons. -/
def colonSeparated (gs : List Nat) : String :=
  ":".intercalate (gs.map fun g => String.ofList (Numeral.hex g))

/-- An IPv6 address in its shortest form: an address that maps an IPv4 address shows it in dotted
decimal, and otherwise the longest run of at least two zero groups becomes a double colon. -/
def compressed (address : BitVec 128) : String :=
  if address.toNat >>> 32 = 0xffff then
    "::ffff:" ++ octets (address.setWidth 32)
  else
    let gs := groups address
    let (start, size) := longestZeros gs
    if size < 2 then colonSeparated gs
    else colonSeparated (gs.take start) ++ "::" ++ colonSeparated (gs.drop (start + size))

/-- The text of an endpoint.  The scope is shown only when it is not zero, the flow information
never. -/
def text : Endpoint → String
  | .v4 address port => octets address ++ ":" ++ toString port.toNat
  | .v6 address port _ scopeId =>
    let scope := if scopeId = 0 then "" else "%" ++ toString scopeId.toNat
    "[" ++ compressed address ++ scope ++ "]:" ++ toString port.toNat

end Endpoint

end GrainDirectory

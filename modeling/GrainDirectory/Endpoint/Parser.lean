import GrainDirectory.Endpoint
set_option autoImplicit false

/-!
# Reading endpoints

The grammar of endpoints: dotted decimal without leading zeros, or a bracketed IPv6 address whose
last two groups may be written in dotted decimal and in which one double colon stands for at least
one zero group, optionally with a numeric scope; then a colon and the port.  A reader takes the
characters it recognises off the front and answers with the rest, or answers nothing.
-/

namespace GrainDirectory.Endpoint

/-- A reader of a value at the front of a text. -/
abbrev Reader (α : Type) := List Char → Option (α × List Char)

/-- Reads one given character. -/
def exactly (c : Char) : Reader Unit
  | [] => none
  | d :: rest => if d = c then some ((), rest) else none

/-- Reads a non-empty run of digits, as long as it goes, that denotes a number below `bound`.  The
run may be limited in length, and may be refused for a leading zero. -/
def number (base bound : Nat) (maxDigits : Option Nat) (leadingZero : Bool) : Reader Nat := fun cs =>
  let ds := cs.takeWhile (Numeral.isDigit base)
  let n := Numeral.ofDigits base ds
  let tooLong := match maxDigits with
    | some m => decide (m < ds.length)
    | none => false
  let zeroLed := !leadingZero && ds.head? == some '0' && decide (1 < ds.length)
  if ds.isEmpty || tooLong || zeroLed || decide (bound ≤ n) then none
  else some (n, cs.drop ds.length)

/-- Reads a dotted decimal address of `remaining` octets; every octet but the first follows a
dot. -/
def dotted : (remaining : Nat) → (first : Bool) → Reader Nat
  | 0, _, cs => some (0, cs)
  | remaining + 1, first, cs =>
    let start := if first then some ((), cs) else exactly '.' cs
    match start with
    | none => none
    | some (_, cs) =>
      match number 10 256 (some 3) false cs with
      | none => none
      | some (octet, cs) =>
        match dotted remaining false cs with
        | none => none
        | some (low, cs) => some ((octet <<< (8 * remaining)) + low, cs)

/-- Reads an IPv4 address. -/
def ipv4 : Reader Nat := dotted 4 true

/-- Reads what follows a colon, which the first item does without. -/
def afterColon {α : Type} (first : Bool) (inner : Reader α) : Reader α := fun cs =>
  if first then inner cs
  else match exactly ':' cs with
    | none => none
    | some (_, cs) => inner cs

/-- Reads up to `remaining` groups, as many as there are, and says whether an embedded IPv4 address
ended them.  Such an address takes the room of two groups. -/
def groupRun : (remaining : Nat) → (first : Bool) → List Char → List Nat × Bool × List Char
  | 0, _, cs => ([], false, cs)
  | remaining + 1, first, cs =>
    let embedded := if remaining = 0 then none else afterColon first ipv4 cs
    match embedded with
    | some (address, cs) => ([address >>> 16, address % UInt16.size], true, cs)
    | none =>
      match afterColon first (number 16 UInt16.size (some 4) true) cs with
      | none => ([], false, cs)
      | some (group, cs) =>
        let (gs, ended, cs) := groupRun remaining false cs
        (group :: gs, ended, cs)

/-- Reads an IPv6 address. -/
def ipv6 : Reader (BitVec 128) := fun cs =>
  let (front, ended, cs) := groupRun 8 true cs
  if front.length = 8 then some (ofGroups front, cs)
  else if ended then none
  else match exactly ':' cs with
    | none => none
    | some (_, cs) =>
      match exactly ':' cs with
      | none => none
      | some (_, cs) =>
        let (back, _, cs) := groupRun (7 - front.length) true cs
        let zeros := List.replicate (8 - front.length - back.length) 0
        some (ofGroups (front ++ zeros ++ back), cs)

/-- Reads a scope, or none. -/
def scope : List Char → Nat × List Char := fun cs =>
  match exactly '%' cs with
  | none => (0, cs)
  | some (_, rest) =>
    match number 10 UInt32.size none true rest with
    | none => (0, cs)
    | some (n, rest) => (n, rest)

/-- Reads a colon and a port. -/
def port : Reader UInt16 := fun cs =>
  match exactly ':' cs with
  | none => none
  | some (_, cs) =>
    match number 10 UInt16.size none true cs with
    | none => none
    | some (n, cs) => some (UInt16.ofNat n, cs)

/-- Reads an IPv4 endpoint. -/
def endpointV4 : Reader Endpoint := fun cs =>
  match ipv4 cs with
  | none => none
  | some (address, cs) =>
    match port cs with
    | none => none
    | some (p, cs) => some (.v4 (BitVec.ofNat 32 address) p, cs)

/-- Reads an IPv6 endpoint, which carries no flow information in its text. -/
def endpointV6 : Reader Endpoint := fun cs =>
  match exactly '[' cs with
  | none => none
  | some (_, cs) =>
    match ipv6 cs with
    | none => none
    | some (address, cs) =>
      let (scopeId, cs) := scope cs
      match exactly ']' cs with
      | none => none
      | some (_, cs) =>
        match port cs with
        | none => none
        | some (p, cs) => some (.v6 address p 0 (UInt32.ofNat scopeId), cs)

/-- The endpoint that a whole text denotes. -/
def parse? (s : String) : Option Endpoint :=
  let cs := s.toList
  let read := match endpointV4 cs with
    | some r => some r
    | none => endpointV6 cs
  match read with
  | some (e, []) => some e
  | _ => none

/-- What is said of a text that denotes no endpoint. -/
def syntaxError : String := "invalid socket address syntax"

end GrainDirectory.Endpoint

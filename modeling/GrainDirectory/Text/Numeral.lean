set_option autoImplicit false

/-!
# Numerals

Digits of a number in bases up to sixteen, as they appear in endpoints, activation ids and frames
written in hexadecimal.  Letters are written in lower case and read in either case.
-/

namespace GrainDirectory.Numeral

/-- The lower-case digit of a value below sixteen. -/
def digit (n : Nat) : Char :=
  if n < 10 then Char.ofNat ('0'.toNat + n) else Char.ofNat ('a'.toNat + (n - 10))

/-- The value of a digit in `base`, if the character is one. -/
def value? (base : Nat) (c : Char) : Option Nat :=
  let n : Option Nat :=
    if '0' ≤ c ∧ c ≤ '9' then some (c.toNat - '0'.toNat)
    else if 'a' ≤ c ∧ c ≤ 'f' then some (c.toNat - 'a'.toNat + 10)
    else if 'A' ≤ c ∧ c ≤ 'F' then some (c.toNat - 'A'.toNat + 10)
    else none
  match n with
  | some v => if v < base then some v else none
  | none => none

/-- Whether the character is a digit in `base`. -/
def isDigit (base : Nat) (c : Char) : Bool := (value? base c).isSome

/-- The number that a run of digits denotes, most significant digit first.  Characters that are no
digits count as zero, so callers cut the run with `isDigit` first. -/
def ofDigits (base : Nat) (cs : List Char) : Nat :=
  cs.foldl (fun n c => n * base + (value? base c).getD 0) 0

/-- Exactly `width` hexadecimal digits of `n`, most significant first. -/
def fixedHex : (width n : Nat) → List Char
  | 0, _ => []
  | width + 1, n => fixedHex width (n / 16) ++ [digit (n % 16)]

/-- The hexadecimal digits of `n` without leading zeros; zero is one digit. -/
def hex (n : Nat) : List Char :=
  match (fixedHex 16 n).dropWhile (· == '0') with
  | [] => ['0']
  | ds => ds

/-- Two hexadecimal digits per byte. -/
def ofBytes (bytes : List UInt8) : String :=
  String.ofList (bytes.flatMap fun b => fixedHex 2 b.toNat)

/-- The bytes that pairs of hexadecimal digits denote, unless a character is no digit or one is left
over. -/
def toBytes? : List Char → Option (List UInt8)
  | [] => some []
  | [_] => none
  | a :: b :: rest =>
    match value? 16 a, value? 16 b, toBytes? rest with
    | some x, some y, some bytes => some (UInt8.ofNat (x * 16 + y) :: bytes)
    | _, _, _ => none

end GrainDirectory.Numeral

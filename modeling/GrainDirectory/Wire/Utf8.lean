import GrainDirectory.Text.Bytes
set_option autoImplicit false

/-!
# Defects of UTF-8

Where a byte string stops being UTF-8, and how.  The valid part ends in front of the first byte that
belongs to no well-formed sequence; what follows is either the beginning of a sequence that the
string cuts off, or one to three bytes that no sequence begins with.
-/

namespace GrainDirectory.Utf8

/-- Why a byte string is not UTF-8.  `validTo` is the length of the valid part. -/
inductive Defect where
  | invalid (size validTo : Nat)
  | incomplete (validTo : Nat)
  deriving DecidableEq, Repr, Inhabited

/-- The wording of a defect. -/
def Defect.message : Defect → String
  | .invalid size validTo =>
    "invalid utf-8 sequence of " ++ toString size ++ " bytes from index " ++ toString validTo
  | .incomplete validTo => "incomplete utf-8 byte sequence from index " ++ toString validTo

/-- How a sequence of several bytes goes on: the number of bytes after the first, and the least and
the greatest second byte. -/
structure Lead where
  more : Nat
  least : UInt8
  greatest : UInt8

/-- What the first byte of a sequence of several bytes says about the rest. -/
def lead? (b : UInt8) : Option Lead :=
  if b < 0xC2 then none
  else if b < 0xE0 then some ⟨1, 0x80, 0xBF⟩
  else if b = 0xE0 then some ⟨2, 0xA0, 0xBF⟩
  else if b = 0xED then some ⟨2, 0x80, 0x9F⟩
  else if b < 0xF0 then some ⟨2, 0x80, 0xBF⟩
  else if b = 0xF0 then some ⟨3, 0x90, 0xBF⟩
  else if b < 0xF4 then some ⟨3, 0x80, 0xBF⟩
  else if b = 0xF4 then some ⟨3, 0x80, 0x8F⟩
  else none

/-- Reads the bytes of a sequence that follow its first; `taken` of the sequence's bytes have been
read and the next lies between `least` and `greatest`.  Answers with what follows the sequence. -/
def tail (validTo : Nat) : (more taken : Nat) → (least greatest : UInt8) → Bytes →
    Except Defect Bytes
  | 0, _, _, _, rest => .ok rest
  | _ + 1, _, _, _, [] => .error (.incomplete validTo)
  | more + 1, taken, least, greatest, b :: rest =>
    if least ≤ b ∧ b ≤ greatest then tail validTo more (taken + 1) 0x80 0xBF rest
    else .error (.invalid taken validTo)

/-- The first defect among the sequences of a byte string; each turn reads one sequence, so as many
turns as there are bytes reach the end. -/
def scan : (turns validTo : Nat) → Bytes → Option Defect
  | 0, _, _ => none
  | _ + 1, _, [] => none
  | turns + 1, validTo, b :: rest =>
    if b < 0x80 then scan turns (validTo + 1) rest
    else match lead? b with
      | none => some (.invalid 1 validTo)
      | some l =>
        match tail validTo l.more 1 l.least l.greatest rest with
        | .error d => some d
        | .ok rest => scan turns (validTo + 1 + l.more) rest

/-- The defect of a byte string that is not UTF-8. -/
def defect (bytes : Bytes) : Defect :=
  (scan bytes.length 0 bytes).getD (.incomplete bytes.length)

/-- The text that a byte string denotes. -/
def decode (bytes : Bytes) : Except Defect String :=
  match String.fromUTF8? ⟨bytes.toArray⟩ with
  | some s => .ok s
  | none => .error (defect bytes)

end GrainDirectory.Utf8

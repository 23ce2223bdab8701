import GrainDirectory.Wire.Utf8
set_option autoImplicit false

/-!
# Formats

A format writes values as bytes and reads them back off the front of a byte string.  Numbers have a
fixed width and come least significant byte first; texts and lists are preceded by their length in
eight bytes, options by a byte that is zero or one, and alternatives by their index in four bytes.
A reader says why it fails; parts are read in order, so the first defect is the one reported.
-/

namespace GrainDirectory

/-- Why a byte string cannot be read. -/
inductive Malformed where
  /-- Fewer bytes than the head of a frame. -/
  | head
  /-- The frame says another length than its body has. -/
  | size (announced actual : Nat)
  /-- The body ends inside a number. -/
  | exhausted
  /-- A text or an activation is announced longer than what is left. -/
  | missing
  /-- There is no alternative of this index. -/
  | alternative (index count : Nat)
  /-- There is no address family of this index. -/
  | family (index : Nat)
  /-- The byte in front of an option is neither zero nor one. -/
  | option (mark : UInt8)
  | text (defect : Utf8.Defect)
  /-- An activation of another width than sixteen bytes. -/
  | activation (width : Nat)
  deriving DecidableEq, Repr, Inhabited

/-- The wording of what is wrong with a byte string. -/
def Malformed.message : Malformed → String
  | .head => "truncated frame header"
  | .size announced actual =>
    "frame length " ++ toString announced ++ " does not match body of " ++ toString actual ++ " bytes"
  | .exhausted => "io error: unexpected end of file"
  | .missing => "io error: "
  | .alternative index count =>
    "invalid value: integer \x60" ++ toString index ++ "\x60, expected variant index 0 <= i < " ++
      toString count
  | .family index =>
    "invalid value: integer \x60" ++ toString index ++ "\x60, expected \x60V4\x60 or \x60V6\x60"
  | .option mark => "tag for enum is not valid, found " ++ toString mark.toNat
  | .text defect => "string is not valid utf8: " ++ defect.message
  | .activation width =>
    "UUID parsing failed: invalid length: expected 16 bytes, found " ++ toString width

/-- What a reader answers: a value and the bytes that follow it. -/
abbrev Reading (α : Type) := Except Malformed (α × Bytes)

/-- How values are written and read. -/
structure Format (α : Type) where
  write : α → Bytes
  read : Bytes → Reading α

namespace Format

variable {α β : Type}

/-- Goes on with what has been read. -/
def andThen (r : Reading α) (k : α → Bytes → Reading β) : Reading β :=
  match r with
  | .error e => .error e
  | .ok (a, rest) => k a rest

/-! ## Numbers -/

/-- A natural number in `width` bytes. -/
def nat (width : Nat) : Format Nat where
  write n := Bytes.littleEndian width n
  read bytes :=
    if bytes.length < width then .error .exhausted
    else .ok (Bytes.ofLittleEndian (bytes.take width), bytes.drop width)

/-- The format of the values that stand one to one for the values of another. -/
def map (f : Format α) (forth : α → β) (back : β → α) : Format β where
  write b := f.write (back b)
  read bytes := andThen (f.read bytes) fun a rest => .ok (forth a, rest)

def u16 : Format UInt16 := (nat 2).map UInt16.ofNat UInt16.toNat
def u32 : Format UInt32 := (nat 4).map UInt32.ofNat UInt32.toNat
def u64 : Format UInt64 := (nat 8).map UInt64.ofNat UInt64.toNat
def i32 : Format Int32 := u32.map UInt32.toInt32 Int32.toUInt32

/-- A bit string in `width` bytes, most significant byte first. -/
def bits (width : Nat) : Format (BitVec (8 * width)) where
  write v := Bytes.bigEndian width v.toNat
  read bytes :=
    if bytes.length < width then .error .exhausted
    else .ok (BitVec.ofNat _ (Bytes.ofBigEndian (bytes.take width)), bytes.drop width)

/-! ## Compounds -/

/-- Two values after each other. -/
def pair (f : Format α) (g : Format β) : Format (α × β) where
  write p := f.write p.1 ++ g.write p.2
  read bytes :=
    andThen (f.read bytes) fun a rest =>
      andThen (g.read rest) fun b rest => .ok ((a, b), rest)

/-- A value or none. -/
def optional (f : Format α) : Format (Option α) where
  write
    | none => [0]
    | some a => 1 :: f.write a
  read
    | [] => .error .exhausted
    | mark :: rest =>
      if mark = 0 then .ok (none, rest)
      else if mark = 1 then andThen (f.read rest) fun a rest => .ok (some a, rest)
      else .error (.option mark)

/-- Reads a number of values after each other. -/
def readMany (f : Format α) : Nat → Bytes → Reading (List α)
  | 0, bytes => .ok ([], bytes)
  | n + 1, bytes =>
    andThen (f.read bytes) fun a rest =>
      andThen (readMany f n rest) fun as rest => .ok (a :: as, rest)

/-- A list and its length. -/
def list (f : Format α) : Format (List α) where
  write as := (nat 8).write as.length ++ as.flatMap f.write
  read bytes := andThen ((nat 8).read bytes) fun n rest => readMany f n rest

/-- Reads a length and that many bytes. -/
def readBlock (bytes : Bytes) : Reading Bytes :=
  andThen ((nat 8).read bytes) fun n rest =>
    if rest.length < n then .error .missing else .ok (rest.take n, rest.drop n)

/-- Writes a length and that many bytes. -/
def writeBlock (block : Bytes) : Bytes := (nat 8).write block.length ++ block

/-- A text in UTF-8. -/
def text : Format String where
  write s := writeBlock (Bytes.ofString s)
  read bytes :=
    andThen (readBlock bytes) fun block rest =>
      match Utf8.decode block with
      | .error defect => .error (.text defect)
      | .ok s => .ok (s, rest)

/-! ## Alternatives -/

/-- Values told apart by an index below `count`: `index` and `body` say how one is written,
`readBody` how the body of an index is read, and `refuse` what is wrong with any other index. -/
def choice (refuse : Nat → Malformed) (count : Nat) (index : α → Nat) (body : α → Bytes)
    (readBody : Nat → Bytes → Reading α) : Format α where
  write a := (nat 4).write (index a) ++ body a
  read bytes :=
    andThen ((nat 4).read bytes) fun i rest =>
      if i < count then readBody i rest else .error (refuse i)

/-- Values told apart by an index below `count`, where any other index is none of theirs. -/
def alternatives (count : Nat) (index : α → Nat) (body : α → Bytes)
    (readBody : Nat → Bytes → Reading α) : Format α :=
  choice (fun i => .alternative i count) count index body readBody

/-- One of some values that stand for themselves, by its index among them. -/
def oneOf [BEq α] [Inhabited α] (values : List α) : Format α :=
  alternatives values.length (fun a => values.idxOf a) (fun _ => [])
    (fun i rest => .ok (values.getD i default, rest))

end Format

end GrainDirectory

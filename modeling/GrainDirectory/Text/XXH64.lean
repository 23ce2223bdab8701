set_option autoImplicit false

/-!
# The 64-bit xxHash

`XXH64.hash seed bytes` is the XXH64 digest: stripes of thirty-two bytes go through four lanes, the
lanes are merged, the remaining bytes are mixed in by eights, by four and singly, and the result is
avalanched.  All arithmetic is modulo 2^64.  `folded` is the 32-bit digest that places silos and
grains on the ring.
-/

namespace GrainDirectory.XXH64

def prime1 : UInt64 := 0x9E3779B185EBCA87
def prime2 : UInt64 := 0xC2B2AE3D27D4EB4F
def prime3 : UInt64 := 0x165667B19E3779F9
def prime4 : UInt64 := 0x85EBCA77C2B2AE63
def prime5 : UInt64 := 0x27D4EB2F165667C5

/-- Rotation to the left by `r` bits, for `0 < r < 64`. -/
def rotate (x r : UInt64) : UInt64 := (x <<< r) ||| (x >>> (64 - r))

/-- The first `n` bytes as a little-endian number. -/
def littleEndian (n : Nat) (bytes : List UInt8) : UInt64 :=
  (bytes.take n).foldr (fun b acc => acc * 256 + b.toUInt64) 0

/-- One round of a lane. -/
def round (lane word : UInt64) : UInt64 := rotate (lane + word * prime2) 31 * prime1

/-- Merges a finished lane into the digest. -/
def mergeLane (digest lane : UInt64) : UInt64 := (digest ^^^ round 0 lane) * prime1 + prime4

/-- The four lanes. -/
structure Lanes where
  a : UInt64
  b : UInt64
  c : UInt64
  d : UInt64

/-- The lanes before the first stripe. -/
def Lanes.start (seed : UInt64) : Lanes :=
  ⟨seed + prime1 + prime2, seed + prime2, seed, seed - prime1⟩

/-- Takes in one stripe of thirty-two bytes. -/
def Lanes.absorb (l : Lanes) (bytes : List UInt8) : Lanes :=
  ⟨round l.a (littleEndian 8 bytes), round l.b (littleEndian 8 (bytes.drop 8)),
    round l.c (littleEndian 8 (bytes.drop 16)), round l.d (littleEndian 8 (bytes.drop 24))⟩

/-- Takes in `n` stripes. -/
def Lanes.absorbMany : Nat → Lanes → List UInt8 → Lanes
  | 0, l, _ => l
  | n + 1, l, bytes => (l.absorb bytes).absorbMany n (bytes.drop 32)

/-- Merges the four lanes. -/
def Lanes.merge (l : Lanes) : UInt64 :=
  [l.a, l.b, l.c, l.d].foldl mergeLane
    (rotate l.a 1 + rotate l.b 7 + rotate l.c 12 + rotate l.d 18)

/-- Mixes in `n` words of eight bytes. -/
def mixWords : Nat → UInt64 → List UInt8 → UInt64
  | 0, h, _ => h
  | n + 1, h, bytes =>
    mixWords n (rotate (h ^^^ round 0 (littleEndian 8 bytes)) 27 * prime1 + prime4) (bytes.drop 8)

/-- Mixes in one half word of four bytes. -/
def mixHalf (h : UInt64) (bytes : List UInt8) : UInt64 :=
  rotate (h ^^^ (littleEndian 4 bytes * prime1)) 23 * prime2 + prime3

/-- Mixes in single bytes. -/
def mixBytes (h : UInt64) (bytes : List UInt8) : UInt64 :=
  bytes.foldl (fun h b => rotate (h ^^^ (b.toUInt64 * prime5)) 11 * prime1) h

/-- The final avalanche. -/
def avalanche (h : UInt64) : UInt64 :=
  let h := (h ^^^ (h >>> 33)) * prime2
  let h := (h ^^^ (h >>> 29)) * prime3
  h ^^^ (h >>> 32)

/-- The digest of `bytes`. -/
def hash (seed : UInt64) (bytes : List UInt8) : UInt64 :=
  let size := bytes.length
  let stripes := size / 32
  let start :=
    if stripes = 0 then seed + prime5
    else ((Lanes.start seed).absorbMany stripes bytes).merge
  let rest := bytes.drop (32 * stripes)
  let words := rest.length / 8
  let h := mixWords words (start + UInt64.ofNat size) rest
  let rest := rest.drop (8 * words)
  let h := if 4 ≤ rest.length then mixHalf h rest else h
  let rest := if 4 ≤ rest.length then rest.drop 4 else rest
  avalanche (mixBytes h rest)

/-- The digest with seed zero, its two halves combined into 32 bits. -/
def folded (bytes : List UInt8) : UInt32 :=
  let h := hash 0 bytes
  (h ^^^ (h >>> 32)).toUInt32

end GrainDirectory.XXH64

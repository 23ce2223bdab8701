import GrainDirectory.Endpoint
import GrainDirectory.Text.Bytes
import GrainDirectory.Text.XXH64
set_option autoImplicit false

/-!
# Silos

A silo is one incarnation of a process at an endpoint.  Its identity is the endpoint and a generation
that grows with every restart; its hash is only the place it takes on the ring, so two silos with
one identity are the same silo whatever their hashes say.  Programs therefore compare `Silo.id`, and
equality of `Silo` itself also compares the place.
-/

namespace GrainDirectory

/-- The identity of a silo: an endpoint and the generation of the process at it. -/
structure SiloId where
  endpoint : Endpoint
  generation : Int32
  deriving DecidableEq, Repr, Inhabited

/-- A silo and its place on the ring. -/
structure Silo where
  id : SiloId
  hash : UInt32
  deriving DecidableEq, Repr, Inhabited

namespace SiloId

/-- The place that an identity gives a silo: the folded digest of the endpoint's text and the
generation in four little-endian bytes. -/
def derivedHash (i : SiloId) : UInt32 :=
  XXH64.folded (Bytes.ofString i.endpoint.text ++
    Bytes.littleEndian 4 i.generation.toUInt32.toNat)

/-- Strict order by endpoint, then generation. -/
def Lt (a b : SiloId) : Prop :=
  a.endpoint.rank < b.endpoint.rank ∨
    (a.endpoint.rank = b.endpoint.rank ∧ a.generation.toInt < b.generation.toInt)

instance (a b : SiloId) : Decidable (a.Lt b) := inferInstanceAs (Decidable (_ ∨ _))

theorem lt_irrefl (a : SiloId) : ¬ a.Lt a := by
  simp only [Lt]; omega

theorem lt_trans {a b c : SiloId} (h1 : a.Lt b) (h2 : b.Lt c) : a.Lt c := by
  simp only [Lt] at *; omega

theorem lt_or_eq_or_gt (a b : SiloId) : a.Lt b ∨ a = b ∨ b.Lt a := by
  by_cases he : a.endpoint.rank = b.endpoint.rank
  · by_cases hg : a.generation.toInt = b.generation.toInt
    · right; left
      cases a; cases b
      simp only [SiloId.mk.injEq]
      exact ⟨Endpoint.rank_injective he, Int32.toInt_inj.mp hg⟩
    · simp only [Lt]; omega
  · simp only [Lt]; omega

/-- The order as a comparison. -/
def compare (a b : SiloId) : Ordering :=
  if a.Lt b then .lt else if a = b then .eq else .gt

end SiloId

namespace Silo

/-- The silo with the place that its identity gives it. -/
def new (endpoint : Endpoint) (generation : Int32) : Silo :=
  let i : SiloId := ⟨endpoint, generation⟩
  ⟨i, i.derivedHash⟩

/-- The silo at a place chosen by the caller. -/
def withHash (endpoint : Endpoint) (generation : Int32) (hash : UInt32) : Silo :=
  ⟨⟨endpoint, generation⟩, hash⟩

/-- The endpoint of a silo. -/
def endpoint (s : Silo) : Endpoint := s.id.endpoint

/-- The generation of a silo. -/
def generation (s : Silo) : Int32 := s.id.generation

/-- The ring position: the hash read as a signed number. -/
def position (s : Silo) : Int32 := s.hash.toInt32

/-- Whether `a` is an earlier incarnation of `b`. -/
def Precedes (a b : Silo) : Prop :=
  a.endpoint = b.endpoint ∧ a.generation.toInt < b.generation.toInt

instance (a b : Silo) : Decidable (a.Precedes b) := inferInstanceAs (Decidable (_ ∧ _))

/-- The text of a silo. -/
def text (s : Silo) : String :=
  "S" ++ s.endpoint.text ++ ":" ++ toString s.generation.toInt

/-- The silo as a frame carries it. -/
def unscoped (s : Silo) : Silo := ⟨⟨s.id.endpoint.unscoped, s.id.generation⟩, s.hash⟩

end Silo

end GrainDirectory

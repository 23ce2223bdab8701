import GrainDirectory.Grain
import GrainDirectory.Silo
set_option autoImplicit false

/-!
# Grain addresses

An address says that an activation, one incarnation of a grain, lives on a silo.  Two addresses
match when they name the same activation of the same grain, and are the same when they also name
the same silo; neither looks at hashes.  A tagged address carries the version that its owner gave
the registration: positive for an insertion, zero for an answer out of a cache, -1 for no entry.
-/

namespace GrainDirectory

/-- The identity of one incarnation of a grain. -/
structure ActivationId where
  value : BitVec 128
  deriving DecidableEq, Repr

namespace ActivationId

/-- The unspecified activation. -/
def nil : ActivationId := ⟨0⟩

instance : Inhabited ActivationId := ⟨nil⟩

/-- Whether this is the unspecified activation. -/
def isNil (a : ActivationId) : Bool := a == nil

/-- The thirty-two hexadecimal digits of an activation. -/
def digits (a : ActivationId) : String := String.ofList (Numeral.fixedHex 32 a.value.toNat)

/-- The text of an activation. -/
def text (a : ActivationId) : String := "@" ++ a.digits

end ActivationId

/-- The location of one activation. -/
structure GrainAddress where
  grain : Grain
  activation : ActivationId
  silo : Silo
  deriving DecidableEq, Repr, Inhabited

namespace GrainAddress

/-- Whether both addresses name the same activation of the same grain. -/
def Matches (a b : GrainAddress) : Prop :=
  a.grain.id = b.grain.id ∧ a.activation = b.activation

instance (a b : GrainAddress) : Decidable (a.Matches b) := inferInstanceAs (Decidable (_ ∧ _))

/-- Whether both addresses put the same activation of the same grain on the same silo. -/
def Same (a b : GrainAddress) : Prop :=
  a.grain.id = b.grain.id ∧ a.activation = b.activation ∧ a.silo.id = b.silo.id

instance (a b : GrainAddress) : Decidable (a.Same b) := inferInstanceAs (Decidable (_ ∧ _))

theorem Matches.refl (a : GrainAddress) : a.Matches a := ⟨rfl, rfl⟩

theorem Same.refl (a : GrainAddress) : a.Same a := ⟨rfl, rfl, rfl⟩

/-- The text of an address. -/
def text (a : GrainAddress) : String :=
  "[" ++ a.silo.text ++ " " ++ a.grain.text ++ " " ++ a.activation.text ++ "]"

/-- The address as a frame carries it. -/
def unscoped (a : GrainAddress) : GrainAddress := { a with silo := a.silo.unscoped }

end GrainAddress

/-- An address, or none, with the version it was read at. -/
structure TaggedAddress where
  address : Option GrainAddress
  tag : Int32
  deriving DecidableEq, Repr, Inhabited

namespace TaggedAddress

/-- The tag of an answer that found nothing. -/
def noTag : Int32 := -1

/-- The tag of an answer out of a cache. -/
def cachedTag : Int32 := 0

/-- An answer that found an address. -/
def found (address : GrainAddress) (tag : Int32) : TaggedAddress := ⟨some address, tag⟩

/-- The answer that found nothing. -/
def none : TaggedAddress := ⟨Option.none, noTag⟩

/-- Whether an address was found. -/
def isFound (t : TaggedAddress) : Bool := t.address.isSome

/-- The answer as a frame carries it. -/
def unscoped (t : TaggedAddress) : TaggedAddress :=
  { t with address := t.address.map GrainAddress.unscoped }

end TaggedAddress

/-- Why an activation is being unregistered. -/
inductive RemovalCause where
  /-- The matching registration goes unconditionally. -/
  | force
  /-- A message reached a silo that no longer hosts the activation; the registration goes only once
  it is old enough. -/
  | nonexistentActivation
  deriving DecidableEq, Repr, Inhabited

/-- The text of a cause. -/
def RemovalCause.text : RemovalCause → String
  | .force => "force"
  | .nonexistentActivation => "nonexistent-activation"

end GrainDirectory

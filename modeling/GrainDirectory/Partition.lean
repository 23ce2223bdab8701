import GrainDirectory.Address
import GrainDirectory.Membership.Oracle
set_option autoImplicit false

/-!
# Partitions

The authoritative registrations of one silo, one per grain.  The first activation registered for a
grain holds it until it is removed; another one takes its place only by naming it, or when its silo
is known to be going away.  Every insertion takes the next version tag, and tags stay at the greatest
number once they have reached it.  A registration remembers when it was inserted, because removals
for want of an activation only take registrations of a certain age.
-/

namespace GrainDirectory

/-- A registered address, its version and the time of its insertion in nanoseconds. -/
structure Registration where
  address : GrainAddress
  tag : Int32
  since : Nat
  deriving DecidableEq, Repr

namespace Registration

/-- The grain that is registered. -/
def grainId (r : Registration) : GrainId := r.address.grain.id

/-- The registration as an answer. -/
def answer (r : Registration) : TaggedAddress := .found r.address r.tag

end Registration

/-- The registrations of a silo. -/
structure Partition where
  entries : Table Registration.grainId := .empty
  nextTag : Int32 := 1
  /-- The age from which a registration without activation may be removed; zero disables it. -/
  lazyDelay : Nat
  /-- Whether registrations on silos that are going away may be taken over. -/
  watchful : Bool := true

namespace Partition

instance : Inhabited Partition := ⟨{ lazyDelay := 0 }⟩

/-- The next tag after `tag`. -/
def tagAfter (tag : Int32) : Int32 := if tag = Int32.maxValue then tag else tag + 1

/-- What is registered for a grain. -/
def registration? (p : Partition) (g : GrainId) : Option Registration := p.entries.find? g

/-- What is registered for a grain, as an answer. -/
def lookup (p : Partition) (g : Grain) : TaggedAddress :=
  match p.registration? g.id with
  | some r => r.answer
  | none => .none

/-- Whether another activation may take the place of a registration. -/
def Replaceable (p : Partition) (o : Oracle) (existing : GrainAddress)
    (previous : Option GrainAddress) : Prop :=
  (∃ a ∈ previous, existing.Matches a) ∨
    (p.watchful = true ∧ (o.status existing.silo).isTerminating = true)

instance (p : Partition) (o : Oracle) (existing : GrainAddress) (previous : Option GrainAddress) :
    Decidable (p.Replaceable o existing previous) :=
  inferInstanceAs (Decidable (_ ∨ _))

/-- Inserts an address under the next tag, in the place of whatever is registered. -/
def insert (p : Partition) (now : Nat) (address : GrainAddress) : TaggedAddress × Partition :=
  (.found address p.nextTag,
    { p with
      entries := p.entries.put ⟨address, p.nextTag, now⟩
      nextTag := tagAfter p.nextTag })

/-- Registers an address, unless another activation holds the grain and may not be replaced.  The
answer is what is registered afterwards. -/
def add (p : Partition) (o : Oracle) (now : Nat) (address : GrainAddress)
    (previous : Option GrainAddress) : TaggedAddress × Partition :=
  match p.registration? address.grain.id with
  | none => p.insert now address
  | some r =>
    if r.address.Matches address then (r.answer, p)
    else if p.Replaceable o r.address previous then p.insert now address
    else (r.answer, p)

/-- Whether the cause lets a registration go. -/
def Removable (p : Partition) (now : Nat) (r : Registration) : RemovalCause → Prop
  | .force => True
  | .nonexistentActivation => p.lazyDelay ≠ 0 ∧ p.lazyDelay ≤ now - r.since

instance (p : Partition) (now : Nat) (r : Registration) (cause : RemovalCause) :
    Decidable (p.Removable now r cause) :=
  match cause with
  | .force => .isTrue trivial
  | .nonexistentActivation => inferInstanceAs (Decidable (_ ∧ _))

/-- Removes the registration of a grain if it is the given activation and the cause allows it, and
says whether it did. -/
def removeActivation (p : Partition) (now : Nat) (g : Grain) (activation : ActivationId)
    (cause : RemovalCause) : Bool × Partition :=
  match p.registration? g.id with
  | none => (false, p)
  | some r =>
    if r.address.activation = activation ∧ p.Removable now r cause then
      (true, { p with entries := p.entries.erase g.id })
    else (false, p)

/-- Removes whatever is registered for a grain, and says whether something was. -/
def removeGrain (p : Partition) (g : Grain) : Bool × Partition :=
  match p.registration? g.id with
  | none => (false, p)
  | some _ => (true, { p with entries := p.entries.erase g.id })

/-- The registered addresses. -/
def items (p : Partition) : List GrainAddress := p.entries.rows.map (·.address)

/-- Removes activations one after the other, and says how many of them were registered. -/
def removeEach (now : Nat) : Partition → List GrainAddress → Nat × Partition
  | p, [] => (0, p)
  | p, a :: rest =>
    let (removed, p) := p.removeActivation now a.grain a.activation .force
    let (others, p) := p.removeEach now rest
    (others + removed.toNat, p)

/-- Removes those of the registered addresses that pass a test, each by its activation, and says how
many. -/
def evict (p : Partition) (now : Nat) (test : GrainAddress → Bool) : Nat × Partition :=
  p.removeEach now (p.items.filter test)

/-- How many grains are registered. -/
def size (p : Partition) : Nat := p.entries.size

/-- Removes all registrations.  Tags go on from where they were. -/
def clear (p : Partition) : Partition := { p with entries := .empty }

end Partition

end GrainDirectory

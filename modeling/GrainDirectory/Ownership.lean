import GrainDirectory.Config
import GrainDirectory.Ring
set_option autoImplicit false

/-!
# Ownership

Which silo a grain's entry belongs to, as one silo sees it: system targets belong to every silo
itself, other grains to the silo that the ring gives their position to.  A silo that is not running
leaves itself out.  `checkForward` turns this into the decision that every request needs: serve it
here, forward it, or give up because it has been forwarded too often.
-/

namespace GrainDirectory

/-- One silo's view of ownership. -/
structure Resolver where
  home : Silo
  seed : Option Silo
  hopLimit : UInt32
  ring : Ring := .empty
  /-- Whether this silo accepts ownership. -/
  running : Bool := false
  deriving DecidableEq, Repr, Inhabited

namespace Resolver

/-- The owner of an ordinary grain.  There is none only while this silo does not run and the ring
has no other silo. -/
def ringOwner? (r : Resolver) (g : Grain) : Option Silo :=
  if r.ring.isEmpty then if r.running then some r.home else none
  else r.ring.owner? g.position (if r.running then none else some r.home)

/-- The owner of a grain. -/
def owner? (r : Resolver) (g : Grain) : Except Error (Option Silo) :=
  if g.isSystemTarget then
    if g.kind.isMembershipTable ∧ r.seed = none then .error (.missingSeed g)
    else .ok (some r.home)
  else .ok (r.ringOwner? g)

/-- Where a request that has been forwarded `hop` times goes: nowhere else, or to the owner. -/
def checkForward (r : Resolver) (g : Grain) (hop : UInt32) (operation : String) :
    Except Error (Option Silo) :=
  match r.owner? g with
  | .error e => .error e
  | .ok none => .ok none
  | .ok (some owner) =>
    if owner.id = r.home.id then .ok none
    else if r.hopLimit ≤ hop then .error (.hopLimitExceeded operation g r.home owner hop)
    else .ok (some owner)

/-- A request is forwarded only below the hop limit. -/
theorem hop_lt_of_checkForward {r : Resolver} {g : Grain} {hop : UInt32} {operation : String}
    {owner : Silo} (h : r.checkForward g hop operation = .ok (some owner)) : hop < r.hopLimit := by
  unfold checkForward at h
  split at h
  · cases h
  · cases h
  · split at h
    · cases h
    · split at h
      · cases h
      · rename_i hlim
        exact UInt32.not_le.mp hlim

/-- Whether a silo is on the ring. -/
def isMember (r : Resolver) (s : Silo) : Bool := r.ring.contains s

/-- How many positions this silo owns: the distance from its predecessor. -/
def ownedRange (r : Resolver) : Nat :=
  match r.ring.predecessor? r.home with
  | some previous => Ring.distance previous r.home
  | none => if r.isMember r.home then ringSize else 0

end Resolver

end GrainDirectory

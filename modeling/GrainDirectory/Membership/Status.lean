import GrainDirectory.Silo
set_option autoImplicit false

/-!
# Silo statuses

The life of a silo as its cluster sees it, and the news that a status changed.
-/

namespace GrainDirectory

/-- The status of a silo. -/
inductive SiloStatus where
  | none
  | created
  | joining
  | active
  | shuttingDown
  | stopping
  | dead
  deriving DecidableEq, Repr, Inhabited

namespace SiloStatus

/-- Whether the silo is leaving or has left. -/
def isTerminating : SiloStatus → Bool
  | .shuttingDown => true
  | .stopping => true
  | .dead => true
  | _ => false

/-- Whether the silo is known and is not leaving. -/
def isFunctional (s : SiloStatus) : Bool := s != .none && !s.isTerminating

theorem isFunctional_iff (s : SiloStatus) :
    s.isFunctional = true ↔ s ≠ .none ∧ s.isTerminating = false := by
  cases s <;> decide

end SiloStatus

/-- The news that a silo has a status. -/
structure StatusEvent where
  silo : Silo
  status : SiloStatus
  deriving DecidableEq, Repr, Inhabited

namespace StatusEvent

/-- Whether the silo belongs on the ring from now on. -/
def isJoin (e : StatusEvent) : Bool := e.status == .active

/-- Whether the silo goes off the ring. -/
def isLeave (e : StatusEvent) : Bool := e.status.isTerminating

end StatusEvent

end GrainDirectory

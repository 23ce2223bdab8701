import GrainDirectory.Error
set_option autoImplicit false

/-!
# Configuration

The settings of a directory service and what makes them unusable.  Durations are nanoseconds.
-/

namespace GrainDirectory

/-- Which cache a service keeps. -/
inductive CacheKind where
  /-- Answers of remote owners are kept. -/
  | bounded
  /-- Nothing is kept; every lookup goes to the owner. -/
  | disabled
  deriving DecidableEq, Repr, Inhabited

/-- The settings of a cache.  Without a time to live, entries stay until they are removed. -/
structure CacheConfig where
  kind : CacheKind := .bounded
  capacity : UInt64 := 1000000
  timeToLive : Option Nat := none
  deriving DecidableEq, Repr, Inhabited

/-- The settings of a directory service. -/
structure Config where
  /-- How often a request may be forwarded. -/
  hopLimit : UInt32 := 6
  /-- How long an already forwarded request waits before its owner is resolved again. -/
  retryDelay : Nat := 200000000
  /-- The age from which a registration may be removed because its activation does not exist; zero
  disables such removals. -/
  lazyDelay : Nat := 60000000000
  /-- The primary silo, which the membership table needs. -/
  seed : Option Silo := none
  cache : CacheConfig := {}
  deriving DecidableEq, Repr, Inhabited

/-- Nanoseconds in a millisecond. -/
def millisecond : Nat := 1000000

/-- The first reason why a service cannot run with the settings, if there is one. -/
def Config.defect? (c : Config) : Option Error :=
  if c.hopLimit = 0 then some (.config "hop_limit must be at least 1")
  else if c.cache.kind = .bounded ∧ c.cache.capacity = 0 then
    some (.config "bounded directory cache needs a non-zero max_capacity")
  else none

end GrainDirectory

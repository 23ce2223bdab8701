import GrainDirectory.Service
set_option autoImplicit false

/-!
# Following membership

A silo that joins or leaves changes the ring of a service, and the change drops what it makes stale:
registrations on a silo that left or on an older incarnation of the silo, and cache entries that
point there or whose grains now belong to the service itself.  All else stays as it was.
-/

namespace GrainDirectory.Service

/-- Whether a change of the ring by `changed` makes addresses on a silo stale: it left, or it is an
older incarnation. -/
def Stale (changed : Silo) (left : Bool) (silo : Silo) : Prop :=
  (left = true ∧ silo.id = changed.id) ∨ silo.Precedes changed

instance (changed : Silo) (left : Bool) (silo : Silo) : Decidable (Stale changed left silo) :=
  inferInstanceAs (Decidable (_ ∨ _))

/-- Drops the registrations that a change makes stale. -/
def adjustPartition (s : Service) (now : Nat) (changed : Silo) (left : Bool) : Service :=
  let (evicted, partition) := s.partition.evict now fun a => Stale changed left a.silo
  { s with partition := partition }.count .partitionEvictions (UInt64.ofNat evicted)

/-- Drops the cache entries that a change makes stale and those of grains owned here. -/
def adjustCache (s : Service) (now : Nat) (changed : Silo) (left : Bool) : Service :=
  let (evicted, cache) := s.cache.evict now fun e =>
    s.Owns e.address.grain ∨ Stale changed left e.address.silo
  { s with cache := cache }.count .cacheEvictions (UInt64.ofNat evicted)

/-- Tells the collaborators, if there are any. -/
def tell (s : Service) (now : Nat) (news : News) : Service :=
  if s.heeded then { s with notices := s.notices ++ [⟨now, news⟩] } else s

/-- Puts a silo on the ring, unless it is there already; says whether it did. -/
def addSilo (s : Service) (now : Nat) (silo : Silo) : Bool × Service :=
  match s.ring.insert? silo with
  | none => (false, s)
  | some ring =>
    let s := { s with ring := ring }.tell now (.joined silo)
    let s := (s.adjustPartition now silo false).adjustCache now silo false
    (true, s.count .silosAdded 1)

/-- Takes a silo off the ring, if it is there; says whether it was.  The catalog hears of it first,
with the ring as it was, and whatever it says the removal goes on. -/
def removeSilo (s : Service) (now : Nat) (silo : Silo) (status : SiloStatus) : Bool × Service :=
  let s := s.tell now (.leaving silo status s.ring (s.catalog s.ring silo status))
  match s.ring.erase? silo with
  | none => (false, s)
  | some ring =>
    let s := { s with ring := ring }
    let s := (s.adjustPartition now silo true).adjustCache now silo true
    (true, s.count .silosRemoved 1)

/-- Follows a status change of another silo. -/
def follow (s : Service) (now : Nat) (e : StatusEvent) : Service :=
  if e.silo.id = s.home.id then s
  else if e.isLeave then (s.removeSilo now e.silo e.status).2
  else if e.isJoin then (s.addSilo now e.silo).2
  else s

/-! ## Starting and stopping -/

/-- Begins to own grains and to follow membership, starting from the silos that the oracle considers
functional.  A service that has started stays as it is. -/
def start (s : Service) (m : Moment) : Service × Oracle :=
  match s.subscription with
  | some _ => (s, m.oracle)
  | none =>
    let (id, oracle) := m.oracle.subscribe
    let s := { s with running := true, subscription := some id }
    let others := oracle.functionalSilos.filter fun silo => silo.id ≠ s.home.id
    (others.foldl (fun s silo => (s.addSilo m.now silo).2) s, oracle)

/-- Stops owning grains and following membership, and drops what the service held. -/
def stop (s : Service) (m : Moment) : Service × Oracle :=
  let oracle := match s.subscription with
    | some id => (m.oracle.unsubscribe id).giveUp id
    | none => m.oracle
  ({ s with
      running := false
      partition := s.partition.clear
      cache := s.cache.clear m.now
      subscription := none }, oracle)

/-- Gives up following membership, as a service does that nobody holds any more. -/
def release (s : Service) (o : Oracle) : Service × Oracle :=
  match s.subscription with
  | some id => ({ s with subscription := none }, o.giveUp id)
  | none => (s, o)

end GrainDirectory.Service

import GrainDirectory.Service
set_option autoImplicit false

/-!
# The steps of a call at one service

What a service does to its own state in the course of a directory call: it counts the call when it
arrives, serves it from its partition or prepares to forward it, and learns from what the owner
answers.  Between these steps other silos act; see `Cluster/Handling`.
-/

namespace GrainDirectory.Service

/-! ## Actions on one grain -/

/-- Takes in a call that arrives after `hop` forwards.  A removal asked for by the own silo drops
the grain's cache entry whatever becomes of the removal. -/
def accept (s : Service) (m : Moment) (action : Action) (hop : UInt32) : Service :=
  let s := { s with metrics := s.metrics.enter action.operation hop }
  match action with
  | .unregister address _ =>
    if hop = 0 then { s with cache := s.cache.remove m.now address.grain.id } else s
  | _ => s

/-- Serves an action from the own partition, and lets the cache say the same. -/
def serve (s : Service) (m : Moment) (action : Action) : Outcome × Service :=
  let s := s.count (.call action.operation .served) 1
  match action with
  | .register address previous =>
    let (answer, partition) := s.partition.add m.oracle m.now address previous
    let cache := match answer.address with
      | some registered => s.cache.add m.now registered answer.tag
      | none => s.cache
    (.located answer, { s with partition := partition, cache := cache })
  | .unregister address cause =>
    let (removed, partition) :=
      s.partition.removeActivation m.now address.grain address.activation cause
    let cache := if removed then s.cache.removeAddress m.now address else s.cache
    (.done, { s with partition := partition, cache := cache })
  | .lookup grain =>
    let answer := s.partition.lookup grain
    (.located answer, if answer.isFound then s.count .localLookupSuccesses 1 else s)
  | .delete grain =>
    let (_, partition) := s.partition.removeGrain grain
    (.done, { s with partition := partition, cache := s.cache.remove m.now grain.id })

/-- Prepares to forward an action to its owner.  A lookup is not sent to an owner that is not
trusted; a deletion drops the grain's cache entry before it is sent. -/
def dispatch (s : Service) (m : Moment) (action : Action) (owner : Silo) : Except Error Service :=
  match action with
  | .lookup grain =>
    if s.Trusts m.oracle owner then .ok (s.count (.call .lookup .sent) 1)
    else .error (.unstableTarget grain s.home owner)
  | .delete grain =>
    let s := s.count (.call .delete .sent) 1
    .ok { s with cache := s.cache.remove m.now grain.id }
  | action => .ok (s.count (.call action.operation .sent) 1)

/-- Learns from the reply to a forwarded action.  A registration that was won is remembered as it was
asked for; a location that was found is remembered as it was answered; neither if it is on a silo
that is not trusted. -/
def learn (s : Service) (m : Moment) (action : Action) (reply : Reply) : Service :=
  match action, reply with
  | .register address _, .ok (.located answer) =>
    if (∃ a ∈ answer.address, a.Same address) ∧ s.Trusts m.oracle address.silo then
      { s with cache := s.cache.add m.now address answer.tag }
    else s
  | .lookup _, .ok (.located answer) =>
    match answer.address with
    | some address =>
      if s.Trusts m.oracle address.silo then
        { s with cache := s.cache.add m.now address answer.tag }
      else s
    | none => s
  | _, _ => s

/-! ## Batches of removals -/

/-- Where each address of a batch goes, or the first reason why one goes nowhere. -/
def resolveBatch (s : Service) (hop : UInt32) :
    List GrainAddress → Except Error (List (GrainAddress × Option Silo))
  | [] => .ok []
  | a :: rest =>
    match s.resolver.checkForward a.grain hop Operation.unregisterMany.name with
    | .error e => .error e
    | .ok target =>
      match s.resolveBatch hop rest with
      | .error e => .error e
      | .ok targets => .ok ((a, target) :: targets)

/-- A batch split by owner: what is removed here, and what goes to each other owner. -/
structure Split where
  here : List GrainAddress
  away : List (Silo × List GrainAddress)

/-- The silos of a list, each at its first occurrence. -/
def distinct : List Silo → List Silo
  | [] => []
  | s :: rest => s :: (distinct rest).filter fun t => t.id ≠ s.id

/-- Splits a batch whose addresses have been resolved. -/
def Split.ofTargets (targets : List (GrainAddress × Option Silo)) : Split where
  here := (targets.filter fun t => t.2.isNone).map (·.1)
  away :=
    (distinct (targets.filterMap (·.2))).map fun owner =>
      (owner, (targets.filter fun t => t.2.any fun o => o.id = owner.id).map (·.1))

/-- What a split sends away. -/
def Split.pending (split : Split) : List GrainAddress := split.away.flatMap (·.2)

/-- Splits a batch by owner. -/
def split (s : Service) (hop : UInt32) (addresses : List GrainAddress) : Except Error Split :=
  match s.resolveBatch hop addresses with
  | .error e => .error e
  | .ok targets => .ok (.ofTargets targets)

/-- Removes an address of a batch from the own partition. -/
def removeHere (s : Service) (m : Moment) (cause : RemovalCause) (address : GrainAddress) :
    Service :=
  let s := s.count (.call .unregisterMany .served) 1
  let (removed, partition) :=
    s.partition.removeActivation m.now address.grain address.activation cause
  let cache := if removed then s.cache.removeAddress m.now address else s.cache
  { s with partition := partition, cache := cache }

/-- Removes addresses of a batch from the own partition. -/
def removeAllHere (s : Service) (m : Moment) (cause : RemovalCause)
    (addresses : List GrainAddress) : Service :=
  addresses.foldl (fun s a => s.removeHere m cause a) s

end GrainDirectory.Service

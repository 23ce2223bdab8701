import GrainDirectory.Operation
set_option autoImplicit false

/-!
# Metrics

What a directory service counts.  Each operation is counted four ways: calls issued, calls served
by the own partition, calls forwarded to an owner, and calls that arrived already forwarded; cache
lookups and membership changes have meters of their own.  Counts are modulo 2^64.

`Meter` names every count, `Metrics.get` reads one and `Metrics.add` raises one and leaves the others
alone.
-/

namespace GrainDirectory

/-! ## One counter -/

/-- A named count. -/
structure Counter where
  name : String
  help : String
  value : UInt64 := 0
  deriving DecidableEq, Repr, Inhabited

namespace Counter

/-- Raises a counter. -/
def add (c : Counter) (n : UInt64) : Counter := { c with value := c.value + n }

/-- Sets a counter to zero. -/
def reset (c : Counter) : Counter := { c with value := 0 }

end Counter

/-! ## The four counts of an operation -/

/-- What happened to a call. -/
inductive Role where
  | issued
  | served
  | sent
  | received
  deriving DecidableEq, Repr, Inhabited

namespace Role

/-- All roles. -/
def all : List Role := [.issued, .served, .sent, .received]

/-- What the count of a role means. -/
def help : Role → String
  | .issued => "Directory calls issued"
  | .served => "Directory calls served locally"
  | .sent => "Directory calls forwarded to the owner"
  | .received => "Forwarded directory calls received"

/-- The ending that names the count of a role. -/
def ending : Role → String
  | .issued => "issued"
  | .served => "local"
  | .sent => "remote_sent"
  | .received => "remote_received"

end Role

/-- The four counts of one operation. -/
structure OperationCounts where
  issued : UInt64 := 0
  served : UInt64 := 0
  sent : UInt64 := 0
  received : UInt64 := 0
  deriving DecidableEq, Repr, Inhabited

namespace OperationCounts

/-- The count of a role. -/
def get (c : OperationCounts) : Role → UInt64
  | .issued => c.issued
  | .served => c.served
  | .sent => c.sent
  | .received => c.received

/-- Raises the count of a role. -/
def add (c : OperationCounts) (role : Role) (n : UInt64) : OperationCounts :=
  match role with
  | .issued => { c with issued := c.issued + n }
  | .served => { c with served := c.served + n }
  | .sent => { c with sent := c.sent + n }
  | .received => { c with received := c.received + n }

/-- Counts a call that enters the directory after `hop` forwards. -/
def enter (c : OperationCounts) (hop : UInt32) : OperationCounts :=
  let c := c.add .issued 1
  if hop = 0 then c else c.add .received 1

/-- The counts under four given names. -/
def counters (c : OperationCounts) (nameOf : Role → String) : List Counter :=
  Role.all.map fun role => ⟨nameOf role, role.help, c.get role⟩

theorem get_add (c : OperationCounts) (role role' : Role) (n : UInt64) :
    (c.add role n).get role' = if role' = role then c.get role + n else c.get role' := by
  cases role <;> cases role' <;> simp [add, get]

end OperationCounts

/-! ## All counts of a service -/

/-- Everything that is counted. -/
inductive Meter where
  | call (operation : Operation) (role : Role)
  | localLookupSuccesses
  | cacheLookups
  | cacheHits
  | silosAdded
  | silosRemoved
  | partitionEvictions
  | cacheEvictions
  deriving DecidableEq, Repr, Inhabited

namespace Meter

/-- How the names of an operation's counts begin. -/
def stem : Operation → String
  | .register => "directory_registrations_"
  | .unregister => "directory_unregistrations_"
  | .unregisterMany => "directory_unregistrations_many_"
  | .lookup => "directory_lookups_"
  | .delete => "directory_deletes_"

/-- The name of a count. -/
def name : Meter → String
  | .call operation role => stem operation ++ role.ending
  | .localLookupSuccesses => "directory_lookups_local_successes"
  | .cacheLookups => "directory_cache_lookups"
  | .cacheHits => "directory_cache_hits"
  | .silosAdded => "directory_silos_added"
  | .silosRemoved => "directory_silos_removed"
  | .partitionEvictions => "directory_partition_evictions"
  | .cacheEvictions => "directory_cache_evictions"

/-- What a count means. -/
def help : Meter → String
  | .call _ role => role.help
  | .localLookupSuccesses => "Local lookups that found an entry"
  | .cacheLookups => "Cache lookups attempted"
  | .cacheHits => "Cache lookups that hit"
  | .silosAdded => "Silos added to the ring"
  | .silosRemoved => "Silos removed from the ring"
  | .partitionEvictions => "Partition entries evicted on membership change"
  | .cacheEvictions => "Cache entries evicted on membership change"

/-- All meters, operation by operation and then the single ones. -/
def all : List Meter :=
  (Operation.all.flatMap fun operation => Role.all.map (Meter.call operation)) ++
    [.localLookupSuccesses, .cacheLookups, .cacheHits, .silosAdded, .silosRemoved,
      .partitionEvictions, .cacheEvictions]

/-- The meter of a name. -/
def ofName? (s : String) : Option Meter := all.find? fun m => m.name == s

end Meter

/-- The counts of a service. -/
structure Metrics where
  register : OperationCounts := {}
  unregister : OperationCounts := {}
  unregisterMany : OperationCounts := {}
  lookup : OperationCounts := {}
  delete : OperationCounts := {}
  localLookupSuccesses : UInt64 := 0
  cacheLookups : UInt64 := 0
  cacheHits : UInt64 := 0
  silosAdded : UInt64 := 0
  silosRemoved : UInt64 := 0
  partitionEvictions : UInt64 := 0
  cacheEvictions : UInt64 := 0
  deriving DecidableEq, Repr, Inhabited

namespace Metrics

/-- The counts of an operation. -/
def counts (m : Metrics) : Operation → OperationCounts
  | .register => m.register
  | .unregister => m.unregister
  | .unregisterMany => m.unregisterMany
  | .lookup => m.lookup
  | .delete => m.delete

/-- The metrics with the counts of an operation replaced. -/
def withCounts (m : Metrics) (operation : Operation) (c : OperationCounts) : Metrics :=
  match operation with
  | .register => { m with register := c }
  | .unregister => { m with unregister := c }
  | .unregisterMany => { m with unregisterMany := c }
  | .lookup => { m with lookup := c }
  | .delete => { m with delete := c }

/-- One count. -/
def get (m : Metrics) : Meter → UInt64
  | .call operation role => (m.counts operation).get role
  | .localLookupSuccesses => m.localLookupSuccesses
  | .cacheLookups => m.cacheLookups
  | .cacheHits => m.cacheHits
  | .silosAdded => m.silosAdded
  | .silosRemoved => m.silosRemoved
  | .partitionEvictions => m.partitionEvictions
  | .cacheEvictions => m.cacheEvictions

/-- Raises one count. -/
def add (m : Metrics) (meter : Meter) (n : UInt64) : Metrics :=
  match meter with
  | .call operation role => m.withCounts operation ((m.counts operation).add role n)
  | .localLookupSuccesses => { m with localLookupSuccesses := m.localLookupSuccesses + n }
  | .cacheLookups => { m with cacheLookups := m.cacheLookups + n }
  | .cacheHits => { m with cacheHits := m.cacheHits + n }
  | .silosAdded => { m with silosAdded := m.silosAdded + n }
  | .silosRemoved => { m with silosRemoved := m.silosRemoved + n }
  | .partitionEvictions => { m with partitionEvictions := m.partitionEvictions + n }
  | .cacheEvictions => { m with cacheEvictions := m.cacheEvictions + n }

/-- Counts a call of an operation that arrives after `hop` forwards. -/
def enter (m : Metrics) (operation : Operation) (hop : UInt32) : Metrics :=
  let m := m.add (.call operation .issued) 1
  if hop = 0 then m else m.add (.call operation .received) 1

/-- Counts a cache lookup. -/
def cacheLookup (m : Metrics) (hit : Bool) : Metrics :=
  let m := m.add .cacheLookups 1
  if hit then m.add .cacheHits 1 else m

/-- The share of cache lookups that hit; zero when there were none. -/
def hitRate (m : Metrics) : Float :=
  if m.cacheLookups = 0 then 0.0 else m.cacheHits.toFloat / m.cacheLookups.toFloat

/-- Raising a count raises that count and no other. -/
theorem get_add (m : Metrics) (meter meter' : Meter) (n : UInt64) :
    (m.add meter n).get meter' = if meter' = meter then m.get meter + n else m.get meter' := by
  cases meter with
  | call operation role =>
    cases meter' with
    | call operation' role' =>
      cases operation <;> cases operation' <;>
        simp [add, get, counts, withCounts, OperationCounts.get_add]
    | _ => cases operation <;> simp [add, get, withCounts]
  | _ =>
    cases meter' with
    | call operation' role' => cases operation' <;> simp [add, get, counts]
    | _ => simp [add, get]

end Metrics

end GrainDirectory

import GrainDirectory.Activity.Schedule
import GrainDirectory.Cluster.Calls
set_option autoImplicit false

/-!
# Testbeds

Clusters made from places on the ring alone, and several clients at once.  The silos of a testbed
live side by side at the loopback address, its calls are logged, and it holds its services for
good.
-/

namespace GrainDirectory

/-- The first generation of a silo at the loopback address, at a chosen place on the ring. -/
def Silo.loopback (port : UInt16) (hash : UInt32) : Silo := .withHash (.v4 0x7f000001 port) 1 hash

/-- An ordinary grain at a chosen place on the ring. -/
def Grain.sample (hash : UInt32) : Grain :=
  .withHash ⟨"test.grain"⟩ ("g" ++ toString hash.toNat) hash

namespace Cluster

/-- Where the first silo of a testbed listens; the others follow it. -/
def firstPort : UInt16 := 11110

/-- The silos of a testbed, the first of which listens at `port`. -/
def siloRow (port : UInt16) : List UInt32 → List Silo
  | [] => []
  | hash :: rest => .loopback port hash :: siloRow (port + 1) rest

/-- Installs a service, makes it reachable and starts it; a blueprint that cannot be built is passed
over. -/
def enrol (c : Cluster) (b : Blueprint) : Cluster :=
  match c.install b with
  | .error _ => c
  | .ok c =>
    let i := c.services.length - 1
    (c.attach i).start i

/-- Installs, attaches and starts a service for each silo, under the labels that follow `index`. -/
def enrolAll (config : Config) (c : Cluster) : (index : Nat) → List Silo → Cluster
  | _, [] => c
  | index, silo :: rest =>
    enrolAll config
      (c.enrol
        { label := "s" ++ toString index, home := silo, config := config, heeded := false,
          kept := true })
      (index + 1) rest

/-- The testbed with a silo at each of some places.  The oracle knows all of them to be active. -/
def testbed (hashes : List UInt32) (config : Config) : Cluster :=
  let silos := siloRow firstPort hashes
  enrolAll config { oracle := .ofActive silos } 0 silos

/-- Takes a silo off the ring of every service of the testbed but one. -/
def removeElsewhere (c : Cluster) (i : ServiceId) (silo : Silo) (status : SiloStatus) : Cluster :=
  (c.kept.filter (· ≠ i)).foldl
    (fun c j => c.adjust j fun s => (s.removeSilo c.clock silo status).2) c

/-- Declares the silo of a service dead and takes it out of the sight of the testbed. -/
def kill (c : Cluster) (i : ServiceId) : Cluster :=
  let silo := (c.service i).home
  ((c.report silo .dead).detach silo).2.removeElsewhere i silo .dead

/-! ## Several clients -/

/-- How often clients may come to act before they are left waiting. -/
def maxTurns : Nat := UInt64.size

/-- Has clients act side by side, each from a millisecond on.  What they report is followed at once by
all services, and each time somebody acts the clock goes on a little. -/
def together {α : Type} (c : Cluster) (clients : List (Nat × Activity Cluster α)) :
    List (Option α) × Cluster :=
  Schedule.run (fun c => c.settle.elapse 1) maxTurns clients c

end Cluster

end GrainDirectory

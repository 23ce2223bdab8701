import GrainDirectory.Cluster.Testbed
set_option autoImplicit false

/-!
# Commands

Everything that can be done to a cluster from outside: calls of clients, the helpers with which a
runtime keeps its own caches in order, and the changes of membership, services and ways that happen
around them.  A run of a cluster is a list of commands.
-/

namespace GrainDirectory

/-- Something that is done to a cluster. -/
inductive Command where
  /-- A client calls a service. -/
  | call (i : ServiceId) (request : Request)
  /-- A frame reaches a service. -/
  | serve (i : ServiceId) (frame : Bytes)
  /-- A registration turned out to name an activation that does not exist. -/
  | unregisterNonexistent (i : ServiceId) (address : GrainAddress) (origin : Option Silo)
  /-- A grain is looked up without asking its owner. -/
  | localLookup (i : ServiceId) (grain : Grain)
  /-- The cache is asked for a trusted location. -/
  | cachedAddress (i : ServiceId) (grain : Grain)
  | suggest (i : ServiceId) (grain : Grain) (silo : Silo)
  | forget (i : ServiceId) (grain : Grain)
  | forgetAddress (i : ServiceId) (address : GrainAddress)
  /-- A client waits for a silo to be on the ring of a service, with some milliseconds of patience.
  It looks every so many nanoseconds, and how many looks it takes until its patience is gone is up to
  the machine: patience is spent in real time, the pauses between looks in that of a schedule.  If
  nothing else is said it looks every millisecond, and a look takes five microseconds. -/
  | awaitMember (i : ServiceId) (silo : Silo) (patience : Nat) (looks : Nat := patience * 200)
    (interval : Nat := millisecond)
  | follow (i : ServiceId) (event : StatusEvent)
  | addSilo (i : ServiceId) (silo : Silo)
  | removeSilo (i : ServiceId) (silo : Silo) (status : SiloStatus)
  /-- The oldest event in the inbox of a service is delivered. -/
  | deliver (i : ServiceId)
  | install (blueprint : Blueprint)
  | start (i : ServiceId)
  | stop (i : ServiceId)
  /-- The service of a label is taken off the list. -/
  | dismiss (label : String)
  | attach (i : ServiceId)
  | detach (silo : Silo)
  | script (silo : Silo) (answer : Except Error Bytes)
  | unscript (silo : Silo)
  | report (silo : Silo) (status : SiloStatus)
  | kill (i : ServiceId)
  | elapse (time : Nat)

/-- What a command answers. -/
inductive Answer where
  | nothing
  /-- Whether something was there, or changed. -/
  | flag (b : Bool)
  | outcome (o : Outcome)
  | located (t : Option TaggedAddress)
  | believed (a : Option GrainAddress)
  | frame (bytes : Bytes)
  /-- Whether there was a way to the silo, and how many ways are left. -/
  | detached (was : Bool) (left : Nat)

namespace Command

/-- Changes the cluster and answers nothing. -/
def quietly (f : Cluster → Cluster) : Activity Cluster (Except Error Answer) :=
  .act fun c => (.ok .nothing, f c)

/-- Changes a service and answers whether something was there, or changed. -/
def flagged (i : ServiceId) (f : Service → Moment → Bool × Service) :
    Activity Cluster (Except Error Answer) := do
  let b ← Cluster.change i f
  return .ok (.flag b)

/-- Answers how a call ended. -/
def replied (p : Activity Cluster Reply) : Activity Cluster (Except Error Answer) := do
  let reply ← p
  return reply.map .outcome

/-- Carries a command out. -/
def perform : Command → Activity Cluster (Except Error Answer)
  | .call i request => replied (Cluster.call i request)
  | .serve i frame => do
    let answer ← Cluster.serve i frame
    return answer.map .frame
  | .unregisterNonexistent i address origin =>
    replied (Cluster.unregisterNonexistent i address origin)
  | .localLookup i grain => do
    let answer ← Cluster.change i fun s m => s.localLookup m grain
    return answer.map .located
  | .cachedAddress i grain => do
    let answer ← Cluster.change i fun s m => s.cachedAddress m grain
    return .ok (.believed answer)
  | .suggest i grain silo =>
    quietly fun c => c.adjust i fun s => s.suggest c.moment grain silo
  | .forget i grain => flagged i fun s m => s.forget m grain
  | .forgetAddress i address => flagged i fun s m => s.forgetAddress m address
  | .awaitMember i silo patience looks interval => do
    let seen ← Cluster.awaitMember i silo patience looks interval
    return .ok (.flag seen)
  | .follow i event => quietly fun c => c.adjust i fun s => s.follow c.clock event
  | .addSilo i silo => flagged i fun s m => s.addSilo m.now silo
  | .removeSilo i silo status => flagged i fun s m => s.removeSilo m.now silo status
  | .deliver i => quietly fun c => c.deliver i
  | .install blueprint => .act fun c =>
    match c.install blueprint with
    | .error e => (.error e, c)
    | .ok c => (.ok .nothing, c)
  | .start i => quietly fun c => c.start i
  | .stop i => quietly fun c => c.stop i
  | .dismiss label => .act fun c => (.ok (.flag (c.find? label).isSome), c.dismiss label)
  | .attach i => quietly fun c => c.attach i
  | .detach silo => .act fun c =>
    let (was, c) := c.detach silo
    (.ok (.detached was c.routes.size), c)
  | .script silo answer => quietly fun c => c.script silo answer
  | .unscript silo => quietly fun c => c.unscript silo
  | .report silo status => quietly fun c => c.report silo status
  | .kill i => quietly fun c => c.kill i
  | .elapse time => quietly fun c => c.elapse time

end Command

namespace Cluster

/-- The cluster after some commands, one after the other. -/
def afterAll (c : Cluster) : List Command → Cluster
  | [] => c
  | command :: rest => (command.perform.run c).2.afterAll rest

end Cluster

end GrainDirectory

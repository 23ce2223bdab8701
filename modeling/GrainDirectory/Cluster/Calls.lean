import GrainDirectory.Cluster.Handling
import GrainDirectory.Wire.Frame
set_option autoImplicit false

/-!
# Calls between services

The ways between the services of a cluster, and what clients may ask of a service.  A call over
frames is encoded, served at its target and decoded again; a call that is wired directly is the
target's own handling.  Either way the target is held as long as the call is under way.

A forwarded call carries one hop more than the call it comes from, and no service forwards a call
whose hops have reached its limit.  So no call is forwarded more than 2^32 times, and that many
forwards is what a call starts with; nothing is ever refused for want of them.
-/

namespace GrainDirectory.Cluster

/-! ## Frames -/

/-- Serves a frame at a service and answers the frame of the reply; a frame that cannot be read is
an error of the exchange. -/
def serveFrame (peer : ServiceId → Peer) (i : ServiceId) (frame : Bytes) :
    Activity Cluster (Except Error Bytes) :=
  match Frame.decode Format.request frame with
  | .error e => pure (.error e)
  | .ok request => do
    let reply ← peer i request
    pure (Frame.encode Format.reply reply)

/-- Carries the frame of a request to a silo and brings back what answers it. -/
def exchange (peer : ServiceId → Peer) (target : Silo) (request : Request) (frame : Bytes) :
    Activity Cluster (Except Error Bytes) := do
  let c ← .look
  match c.scripts.find? target.id with
  | some script => do
    .update fun c => c.log target request
    pure script.answer
  | none =>
    match c.reach? target with
    | none => pure (.error (.unreachable target))
    | some i => do
      .update fun c => c.log target request
      serveFrame peer i frame

/-- Calls a silo over frames. -/
def callFramed (peer : ServiceId → Peer) (target : Silo) : Peer := fun request =>
  match Frame.encode Format.request request with
  | .error e => pure (.error e)
  | .ok frame => do
    let answer ← exchange peer target request frame
    pure (Frame.interpret request.operation answer)

/-- Calls a silo directly and logs the call. -/
def callLogged (peer : Peer) (target : Silo) : Peer := fun request => do
  .update fun c => c.log target request
  peer request

/-! ## Ways -/

/-- The ways that the wiring of a cluster offers, where `peer` are its services. -/
def ways (peer : ServiceId → Peer) : Ways := fun c target =>
  match c.wiring with
  | .framed => .ok (callFramed peer target)
  | .logged =>
    match c.reach? target with
    | some i => .ok (callLogged (peer i) target)
    | none => .error (.unreachable target)
  | .direct =>
    match c.reach? target with
    | some i => .ok (peer i)
    | none => .error (.unreachable target)

/-- The ways of services that are alone. -/
def noWays : Ways := fun _ target => .error (.unreachable target)

variable {α : Type}

/-- Carries something out at a service and holds the service meanwhile. -/
def attended (i : ServiceId) (p : Activity Cluster α) : Activity Cluster α := do
  .update fun c => c.engage i
  let a ← p
  .update fun c => c.disengage i
  pure a

@[simp] theorem run_attended (i : ServiceId) (p : Activity Cluster α) (c : Cluster) :
    (attended i p).run c =
      ((p.run (c.engage i)).1, (p.run (c.engage i)).2.disengage i) := by
  simp [attended]

/-- Calls a service; the call may be forwarded so many times. -/
def perform : (forwards : Nat) → ServiceId → Peer
  | 0, i => fun request => attended i (handle noWays i request)
  | forwards + 1, i => fun request => attended i (handle (ways (perform forwards)) i request)

/-- How many forwards a call starts with. -/
def maxForwards : Nat := UInt32.size

/-- Calls a service. -/
def call (i : ServiceId) : Peer := perform maxForwards i

/-- Serves a frame at a service. -/
def serve (i : ServiceId) (frame : Bytes) : Activity Cluster (Except Error Bytes) :=
  serveFrame call i frame

/-! ## Further requests of clients -/

/-- Removes a registration whose activation turned out not to exist.  A request that came from a silo
outside the ring goes back to that silo, all others are the own silo's. -/
def unregisterNonexistent (i : ServiceId) (address : GrainAddress) (origin : Option Silo) :
    Activity Cluster Reply := attended i do
  let request : Request := .single (.unregister address .nonexistentActivation) 0
  let c ← .look
  match origin with
  | none => call i request
  | some origin =>
    if (c.service i).resolver.isMember origin then call i request
    else
      match ways call c origin with
      | .error e => pure (.error e)
      | .ok peer => peer request

/-- Looks so many times, an interval of nanoseconds apart, whether a silo is on the ring of a
service. -/
def lookForMember (i : ServiceId) (silo : Silo) (interval : Nat) : (looks : Nat) → Activity Cluster Bool
  | 0 => .done false
  | looks + 1 => .read fun c =>
    if (c.service i).resolver.isMember silo then .done true
    else .pause interval (lookForMember i silo interval looks)

/-- Waits for a silo to be on the ring of a service with some milliseconds of patience, which are gone
after so many looks.  Whoever waits in vain has spent them all. -/
def awaitMember (i : ServiceId) (silo : Silo) (patience looks interval : Nat) :
    Activity Cluster Bool :=
  attended i do
    let seen ← lookForMember i silo interval looks
    if seen then pure true
    else do
      .update fun c => c.elapse (patience * millisecond)
      pure false

end GrainDirectory.Cluster

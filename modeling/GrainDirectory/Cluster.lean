import GrainDirectory.Membership.Oracle
import GrainDirectory.Mishap
import GrainDirectory.Service.RingChange
import GrainDirectory.Service.Steps
set_option autoImplicit false

/-!
# Clusters

Several services that share one oracle and can reach each other.  Services are numbered in the order
they were installed and keep their numbers.  Clients find a service under its label as long as it is
listed.  A service lives as long as somebody holds it: the list, whoever had it built, or a call that
is under way at it; until then it can be reached and follows membership, listed or not.  Changes of
membership wait in the inboxes of the services until they are delivered.

A cluster keeps a log of the calls that its services sent each other, which `forgetLogs` empties
together with what the services told their collaborators.
-/

namespace GrainDirectory

/-- How services reach each other. -/
inductive Wiring where
  /-- One service calls another directly. -/
  | direct
  /-- One service calls another directly, and the call is logged. -/
  | logged
  /-- Calls travel as frames and are logged. -/
  | framed
  deriving DecidableEq, Repr, Inhabited

/-- Which service is reached as a silo. -/
structure Route where
  silo : Silo
  target : ServiceId
  deriving DecidableEq, Repr

/-- What answers frames sent to a silo, in the place of a service. -/
structure Script where
  silo : Silo
  answer : Except Error Bytes

/-- A call that one silo sent another. -/
structure Call where
  target : Silo
  operation : Operation
  hop : UInt32
  deriving DecidableEq, Repr

/-- Services that share an oracle, and the ways between them. -/
structure Cluster where
  wiring : Wiring := .logged
  oracle : Oracle := {}
  services : List Service := []
  routes : Table (fun r : Route => r.silo.id) := .empty
  scripts : Table (fun s : Script => s.silo.id) := .empty
  /-- The services that calls are under way at, each once for every call. -/
  engaged : List ServiceId := []
  /-- The calls since the log was last emptied, oldest first. -/
  calls : List Call := []
  /-- The time in nanoseconds. -/
  clock : Nat := 0
  deriving Inhabited

namespace Cluster

/-! ## Single services -/

/-- A service by its number. -/
def service (c : Cluster) (i : ServiceId) : Service := c.services.getD i default

/-- Changes one service. -/
def adjust (c : Cluster) (i : ServiceId) (f : Service → Service) : Cluster :=
  { c with services := c.services.modify i f }

/-- What services see of the world now. -/
def moment (c : Cluster) : Moment := ⟨c.oracle, c.clock⟩

@[simp] theorem length_adjust (c : Cluster) (i : ServiceId) (f : Service → Service) :
    (c.adjust i f).services.length = c.services.length := by
  simp [adjust]

theorem service_adjust_self {c : Cluster} {i : ServiceId} (h : i < c.services.length)
    (f : Service → Service) : (c.adjust i f).service i = f (c.service i) := by
  simp [adjust, service, h]

theorem service_adjust_of_ne (c : Cluster) {i j : ServiceId} (h : i ≠ j)
    (f : Service → Service) : (c.adjust i f).service j = c.service j := by
  simp [adjust, service, h]

/-- The numbers of the services. -/
def numbers (c : Cluster) : List ServiceId := List.range c.services.length

/-- The services that clients find under their labels. -/
def listed (c : Cluster) : List ServiceId := c.numbers.filter fun i => (c.service i).listed

/-- The listed service of a label. -/
def find? (c : Cluster) (label : String) : Option ServiceId :=
  c.listed.find? fun i => (c.service i).label = label

/-- The services that whoever had them built holds. -/
def kept (c : Cluster) : List ServiceId := c.numbers.filter fun i => (c.service i).kept

/-! ## Who holds a service -/

/-- Whether a service of this number is there and somebody holds it. -/
def Live (c : Cluster) (i : ServiceId) : Prop :=
  i < c.services.length ∧
    ((c.service i).listed = true ∨ (c.service i).kept = true ∨ i ∈ c.engaged)

instance (c : Cluster) (i : ServiceId) : Decidable (c.Live i) :=
  inferInstanceAs (Decidable (_ ∧ (_ ∨ _ ∨ _)))

/-- The cluster while one more call is under way at a service. -/
def engage (c : Cluster) (i : ServiceId) : Cluster := { c with engaged := i :: c.engaged }

/-- The cluster after a call at a service has ended. -/
def disengage (c : Cluster) (i : ServiceId) : Cluster :=
  { c with engaged := c.engaged.erase i }

@[simp] theorem disengage_engage (c : Cluster) (i : ServiceId) :
    (c.engage i).disengage i = c := by
  simp [engage, disengage]

theorem live_engage_iff {c : Cluster} {i j : ServiceId} :
    (c.engage i).Live j ↔ c.Live j ∨ (j < c.services.length ∧ j = i) := by
  simp only [Live, engage, List.mem_cons, service]
  constructor
  · rintro ⟨h, h' | h' | h' | h'⟩
    · exact .inl ⟨h, .inl h'⟩
    · exact .inl ⟨h, .inr (.inl h')⟩
    · exact .inr ⟨h, h'⟩
    · exact .inl ⟨h, .inr (.inr h')⟩
  · rintro (⟨h, h' | h' | h'⟩ | ⟨h, h'⟩)
    · exact ⟨h, .inl h'⟩
    · exact ⟨h, .inr (.inl h')⟩
    · exact ⟨h, .inr (.inr (.inr h'))⟩
    · exact ⟨h, .inr (.inr (.inl h'))⟩

/-- Has a service give up following membership. -/
def release (c : Cluster) (i : ServiceId) : Cluster :=
  let r := (c.service i).release c.oracle
  { c with oracle := r.2 }.adjust i fun _ => r.1

/-- Has the services that nobody holds give up following membership. -/
def releaseUnheld (c : Cluster) : Cluster :=
  c.numbers.foldl (fun c i => if c.Live i then c else c.release i) c

/-- Takes the service of a label off the list, if there is one. -/
def dismiss (c : Cluster) (label : String) : Cluster :=
  match c.find? label with
  | some i => (c.adjust i fun s => { s with listed := false }).releaseUnheld
  | none => c

/-! ## Ways between services -/

/-- The service that is reached as a silo. -/
def reach? (c : Cluster) (silo : Silo) : Option ServiceId :=
  match c.routes.find? silo.id with
  | some r => if c.Live r.target then some r.target else none
  | none => none

/-- Makes a service reachable as its own silo. -/
def attach (c : Cluster) (i : ServiceId) : Cluster :=
  { c with routes := c.routes.put ⟨(c.service i).home, i⟩ }

/-- Makes a silo unreachable, and says whether there was a way to it. -/
def detach (c : Cluster) (silo : Silo) : Bool × Cluster :=
  (c.routes.contains silo.id, { c with routes := c.routes.erase silo.id })

/-- Has frames that are sent to a silo answered by a script. -/
def script (c : Cluster) (silo : Silo) (answer : Except Error Bytes) : Cluster :=
  { c with scripts := c.scripts.put ⟨silo, answer⟩ }

/-- Has frames that are sent to a silo answered by its service again. -/
def unscript (c : Cluster) (silo : Silo) : Cluster :=
  { c with scripts := c.scripts.erase silo.id }

/-- Logs a call. -/
def log (c : Cluster) (target : Silo) (request : Request) : Cluster :=
  { c with calls := c.calls ++ [⟨target, request.operation, request.hop⟩] }

/-- The logged calls to a silo. -/
def callsTo (c : Cluster) (silo : Silo) : List Call :=
  c.calls.filter fun call => call.target.id = silo.id

/-- Empties the log of calls and what the services told their collaborators. -/
def forgetLogs (c : Cluster) : Cluster :=
  { c with
    calls := []
    services := c.services.map fun s => { s with notices := [] } }

/-! ## Time and membership -/

/-- Lets time pass. -/
def elapse (c : Cluster) (time : Nat) : Cluster := { c with clock := c.clock + time }

/-- Reports the status of a silo. -/
def report (c : Cluster) (silo : Silo) (status : SiloStatus) : Cluster :=
  { c with oracle := c.oracle.setStatus silo status }

/-- Has a service follow the oldest event in its inbox. -/
def deliver (c : Cluster) (i : ServiceId) : Cluster :=
  match (c.service i).subscription with
  | none => c
  | some inbox =>
    match c.oracle.take inbox with
    | none => c
    | some (event, oracle) =>
      { c with oracle := oracle }.adjust i fun s => s.follow c.clock event

/-- How many events wait for a service. -/
def pending (c : Cluster) (i : ServiceId) : Nat :=
  match (c.service i).subscription with
  | none => 0
  | some inbox => (c.oracle.waiting inbox).length

/-- Has every service that somebody holds follow all events in its inbox. -/
def settle (c : Cluster) : Cluster :=
  c.numbers.foldl (fun c i => (c.pending i).repeat (deliver · i) c) c.releaseUnheld

/-! ## The life of a service -/

/-- Starts a service. -/
def start (c : Cluster) (i : ServiceId) : Cluster :=
  let r := (c.service i).start c.moment
  { c with oracle := r.2 }.adjust i fun _ => r.1

/-- Stops a service. -/
def stop (c : Cluster) (i : ServiceId) : Cluster :=
  let r := (c.service i).stop c.moment
  { c with oracle := r.2 }.adjust i fun _ => r.1

/-- Builds a service and lists it in the place of the one that has its label. -/
def install (c : Cluster) (b : Blueprint) : Except Error Cluster :=
  match b.build c.clock with
  | .error e => .error e
  | .ok s => .ok { c.dismiss b.label with services := (c.dismiss b.label).services ++ [s] }

end Cluster

end GrainDirectory

import GrainDirectory.Membership.Status
import GrainDirectory.Table
set_option autoImplicit false

/-!
# The membership oracle

The oracle remembers the last status reported of every silo and puts each change into the inbox of
every subscriber.  A repeated report changes nothing and is no news; a first report always is.  An
inbox outlives its subscription as long as its holder keeps it, and a subscription whose inbox has
been given up ends with the next piece of news.
-/

namespace GrainDirectory

/-- The last report about a silo, under the place it was first reported with. -/
structure Report where
  silo : Silo
  status : SiloStatus
  deriving DecidableEq, Repr

/-- The events that wait for one subscriber. -/
structure Inbox where
  id : Nat
  queue : List StatusEvent := []
  /-- Whether events still go into it. -/
  subscribed : Bool := true
  /-- Whether its holder still keeps it. -/
  held : Bool := true
  deriving DecidableEq, Repr

/-- What is known of the silos, and who wants to know. -/
structure Oracle where
  reports : Table (fun r : Report => r.silo.id) := .empty
  inboxes : Table Inbox.id := .empty
  nextId : Nat := 1

namespace Oracle

instance : Inhabited Oracle := ⟨{}⟩

/-! ## Statuses -/

/-- The last known status of a silo. -/
def status (o : Oracle) (s : Silo) : SiloStatus :=
  match o.reports.find? s.id with
  | some r => r.status
  | none => .none

/-- Whether a silo is considered alive and reachable. -/
def isFunctional (o : Oracle) (s : Silo) : Bool := (o.status s).isFunctional

/-- Every silo that is considered functional, in the order of their first reports. -/
def functionalSilos (o : Oracle) : List Silo :=
  (o.reports.rows.filter fun r => r.status.isFunctional).map (·.silo)

/-- Writes a status down.  The silo keeps the place it was first reported with. -/
def record (o : Oracle) (s : Silo) (status : SiloStatus) : Oracle :=
  let silo := match o.reports.find? s.id with
    | some r => r.silo
    | none => s
  { o with reports := o.reports.put ⟨silo, status⟩ }

/-- The oracle that knows some silos to be active and has told nobody. -/
def ofActive (silos : List Silo) : Oracle := silos.foldl (fun o s => o.record s .active) {}

/-! ## News -/

/-- Puts an event into an inbox that takes events. -/
def Inbox.receive (e : StatusEvent) (b : Inbox) : Inbox :=
  if b.subscribed then { b with queue := b.queue ++ [e] } else b

theorem Inbox.id_receive (e : StatusEvent) (b : Inbox) : (Inbox.receive e b).id = b.id := by
  unfold Inbox.receive
  split <;> rfl

/-- Tells every subscriber of an event, and forgets those whose inbox has been given up. -/
def notify (o : Oracle) (e : StatusEvent) : Oracle :=
  { o with
    inboxes := (o.inboxes.filter (·.held)).change (Inbox.receive e) (Inbox.id_receive e) }

/-- Reports the status of a silo. -/
def setStatus (o : Oracle) (s : Silo) (status : SiloStatus) : Oracle :=
  match o.reports.find? s.id with
  | some r => if r.status = status then o else (o.record s status).notify ⟨s, status⟩
  | none => (o.record s status).notify ⟨s, status⟩

/-! ## Subscriptions -/

/-- Opens an inbox. -/
def subscribe (o : Oracle) : Nat × Oracle :=
  (o.nextId, { o with inboxes := o.inboxes.put { id := o.nextId }, nextId := o.nextId + 1 })

/-- Lets an inbox go on only as far as its holder or its subscription needs it. -/
def settle (o : Oracle) (b : Inbox) : Oracle :=
  { o with inboxes := if b.subscribed || b.held then o.inboxes.put b else o.inboxes.erase b.id }

/-- Ends a subscription; what is in the inbox stays there. -/
def unsubscribe (o : Oracle) (id : Nat) : Oracle :=
  match o.inboxes.find? id with
  | some b => o.settle { b with subscribed := false }
  | none => o

/-- Gives an inbox up. -/
def giveUp (o : Oracle) (id : Nat) : Oracle :=
  match o.inboxes.find? id with
  | some b => o.settle { b with held := false }
  | none => o

/-- Whether an inbox is kept by its holder. -/
def holds (o : Oracle) (id : Nat) : Bool :=
  match o.inboxes.find? id with
  | some b => b.held
  | none => false

/-- How many subscriptions there are. -/
def subscriberCount (o : Oracle) : Nat := (o.inboxes.rows.filter (·.subscribed)).length

/-- The events that wait in an inbox. -/
def waiting (o : Oracle) (id : Nat) : List StatusEvent :=
  match o.inboxes.find? id with
  | some b => b.queue
  | none => []

/-- Takes the oldest event out of an inbox. -/
def take (o : Oracle) (id : Nat) : Option (StatusEvent × Oracle) :=
  match o.inboxes.find? id with
  | none => none
  | some b =>
    match b.queue with
    | [] => none
    | e :: rest => some (e, { o with inboxes := o.inboxes.put { b with queue := rest } })

/-- Takes all events out of a kept inbox, and says whether its subscription has ended. -/
def drain (o : Oracle) (id : Nat) : Option ((List StatusEvent × Bool) × Oracle) :=
  match o.inboxes.find? id with
  | none => none
  | some b =>
    if b.held then
      some ((b.queue, !b.subscribed), { o with inboxes := o.inboxes.put { b with queue := [] } })
    else none

end Oracle

end GrainDirectory

import GrainDirectory.Activity
import GrainDirectory.Cluster
set_option autoImplicit false

/-!
# How a service handles a call

The owner of a grain applies an action to its own partition; everybody else forwards it with one more
hop.  A service that gets a call which has been forwarded already, and is not the owner either, first
waits for membership to settle and then resolves the owner once more.  That no owner can be resolved, or
that there is no way to it, is remarked upon.

The ways to other silos are a parameter here, so that what one service does is defined whatever the
others do; `Cluster/Calls` closes the circle.
-/

namespace GrainDirectory.Cluster

/-- A silo as its callers see it. -/
abbrev Peer := Request → Activity Cluster Reply

/-- The ways that lead from a cluster's services to silos. -/
abbrev Ways := Cluster → Silo → Except Error Peer

variable {α : Type}

/-- Reads something off a service. -/
def inspect (i : ServiceId) (f : Service → Moment → α) : Activity Cluster α :=
  .read fun c => .done (f (c.service i) c.moment)

/-- Changes a service and answers something about it. -/
def change (i : ServiceId) (f : Service → Moment → α × Service) : Activity Cluster α :=
  .act fun c =>
    let r := f (c.service i) c.moment
    (r.1, c.adjust i fun _ => r.2)

/-- Changes a service. -/
def revise (i : ServiceId) (f : Service → Moment → Service) : Activity Cluster Unit :=
  .update fun c => c.adjust i fun s => f s c.moment

@[simp] theorem run_inspect (i : ServiceId) (f : Service → Moment → α) (c : Cluster) :
    (inspect i f).run c = (f (c.service i) c.moment, c) := rfl

@[simp] theorem run_change (i : ServiceId) (f : Service → Moment → α × Service) (c : Cluster) :
    (change i f).run c =
      ((f (c.service i) c.moment).1, c.adjust i fun _ => (f (c.service i) c.moment).2) := rfl

@[simp] theorem run_revise (i : ServiceId) (f : Service → Moment → Service) (c : Cluster) :
    (revise i f).run c = ((), c.adjust i fun s => f s c.moment) := rfl

/-- Waits as long as a service waits before it resolves an owner again. -/
def waitToRetry (i : ServiceId) : Activity Cluster Unit := do
  let delay ← inspect i fun s _ => s.config.retryDelay
  .wait delay

@[simp] theorem run_waitToRetry (i : ServiceId) (c : Cluster) :
    (waitToRetry i).run c = ((), c) := rfl

/-! ## Actions on one grain -/

/-- Resolves where an action goes: nowhere else, or to another silo. -/
def resolve (i : ServiceId) (action : Action) (hop : UInt32) :
    Activity Cluster (Except Error (Option Silo)) := do
  let view := inspect i fun s _ =>
    s.resolver.checkForward action.grain hop action.operation.name
  let first ← view
  match first with
  | .ok (some _) =>
    if hop = 0 then pure first
    else do
      waitToRetry i
      view
  | _ => pure first

/-- Forwards an action to its owner and learns from the reply. -/
def forward (ways : Ways) (i : ServiceId) (action : Action) (hop : UInt32) (owner : Silo) :
    Activity Cluster Reply := do
  let dispatched ← change i fun s m =>
    match s.dispatch m action owner with
    | .error e => (some e, s)
    | .ok s => (none, s)
  match dispatched with
  | some e => pure (.error e)
  | none =>
    let c ← .look
    match ways c owner with
    | .error e => .remark (.refused action.operation) (pure (.error e))
    | .ok peer =>
      let reply ← peer (.single action (hop + 1))
      revise i fun s m => s.learn m action reply
      pure reply

/-- Handles an action on one grain. -/
def handleAction (ways : Ways) (i : ServiceId) (action : Action) (hop : UInt32) :
    Activity Cluster Reply := do
  revise i fun s m => s.accept m action hop
  match ← resolve i action hop with
  | .error e => .remark (.lost i action.operation) (pure (.error e))
  | .ok none =>
    let outcome ← change i fun s m => s.serve m action
    pure (.ok outcome)
  | .ok (some owner) => forward ways i action hop owner

/-! ## Batches of removals -/

/-- How several removals end together: as the first that failed, if one did. -/
def joinReplies : List Reply → Reply
  | [] => .ok .done
  | .error e :: _ => .error e
  | .ok _ :: rest => joinReplies rest

/-- The call that delivers the addresses of one owner. -/
def deliverTo (ways : Ways) (c : Cluster) (cause : RemovalCause) (hop : UInt32)
    (owner : Silo) (addresses : List GrainAddress) : Activity Cluster Reply :=
  match ways c owner with
  | .error e => .remark (.refused .unregisterMany) (pure (.error e))
  | .ok peer => peer (.batch addresses cause (hop + 1))

/-- Sends every other owner its addresses, all side by side; every owner gets its own whatever
happens to the others. -/
def deliverAway (ways : Ways) (i : ServiceId) (cause : RemovalCause) (hop : UInt32)
    (away : List (Silo × List GrainAddress)) : Activity Cluster Reply := do
  revise i fun s _ => s.count (.call .unregisterMany .sent) (UInt64.ofNat away.length)
  let c ← .look
  let replies ← .all (away.map fun a => deliverTo ways c cause hop a.1 a.2)
  pure (joinReplies replies)

/-- Handles a batch of removals. -/
def handleBatch (ways : Ways) (i : ServiceId) (addresses : List GrainAddress)
    (cause : RemovalCause) (hop : UInt32) : Activity Cluster Reply := do
  revise i fun s _ => { s with metrics := s.metrics.enter .unregisterMany hop }
  match ← inspect i fun s _ => s.split hop addresses with
  | .error e => .remark (.lost i .unregisterMany) (pure (.error e))
  | .ok split =>
    revise i fun s m => s.removeAllHere m cause split.here
    if hop = 0 ∨ split.away = [] then deliverAway ways i cause hop split.away
    else do
      waitToRetry i
      match ← inspect i fun s _ => s.split hop split.pending with
      | .error e => .remark (.lost i .unregisterMany) (pure (.error e))
      | .ok again =>
        revise i fun s m => s.removeAllHere m cause again.here
        deliverAway ways i cause hop again.away

/-- Handles a call. -/
def handle (ways : Ways) (i : ServiceId) : Request → Activity Cluster Reply
  | .single action hop => handleAction ways i action hop
  | .batch addresses cause hop => handleBatch ways i addresses cause hop

end GrainDirectory.Cluster

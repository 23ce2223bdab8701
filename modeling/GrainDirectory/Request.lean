import GrainDirectory.Error
import GrainDirectory.Operation
set_option autoImplicit false

/-!
# Requests and replies

What one directory asks another: an action on one grain, or the removal of a batch of activations.
A request carries how often it has been forwarded; calls of the own silo carry zero.  A reply is an
error or an outcome, and which outcome belongs to a request depends on its operation alone.
-/

namespace GrainDirectory

/-- What is asked about one grain. -/
inductive Action where
  /-- Register an activation, in the place of `previous` if that one is registered. -/
  | register (address : GrainAddress) (previous : Option GrainAddress)
  /-- Remove an activation if it is still the registered one. -/
  | unregister (address : GrainAddress) (cause : RemovalCause)
  /-- Find the registered activation. -/
  | lookup (grain : Grain)
  /-- Remove whatever is registered. -/
  | delete (grain : Grain)
  deriving DecidableEq, Repr, Inhabited

namespace Action

/-- The grain that an action is about. -/
def grain : Action → Grain
  | .register address _ => address.grain
  | .unregister address _ => address.grain
  | .lookup grain => grain
  | .delete grain => grain

/-- The operation of an action. -/
def operation : Action → Operation
  | .register .. => .register
  | .unregister .. => .unregister
  | .lookup _ => .lookup
  | .delete _ => .delete

/-- The action as a frame carries it. -/
def unscoped : Action → Action
  | .register address previous => .register address.unscoped (previous.map GrainAddress.unscoped)
  | .unregister address cause => .unregister address.unscoped cause
  | .lookup grain => .lookup grain
  | .delete grain => .delete grain

end Action

/-- A call of a directory. -/
inductive Request where
  | single (action : Action) (hop : UInt32)
  | batch (addresses : List GrainAddress) (cause : RemovalCause) (hop : UInt32)
  deriving DecidableEq, Repr, Inhabited

namespace Request

/-- How often a request has been forwarded. -/
def hop : Request → UInt32
  | .single _ hop => hop
  | .batch _ _ hop => hop

/-- The operation of a request. -/
def operation : Request → Operation
  | .single action _ => action.operation
  | .batch .. => .unregisterMany

/-- The request as a frame carries it. -/
def unscoped : Request → Request
  | .single action hop => .single action.unscoped hop
  | .batch addresses cause hop => .batch (addresses.map GrainAddress.unscoped) cause hop

end Request

/-- What a successful call answers. -/
inductive Outcome where
  /-- A registration or a lookup is answered by an address. -/
  | located (answer : TaggedAddress)
  /-- A removal is acknowledged. -/
  | done
  deriving DecidableEq, Repr, Inhabited

/-- How a call ends. -/
abbrev Reply := Except Error Outcome

namespace Outcome

/-- The outcome as a frame carries it. -/
def unscoped : Outcome → Outcome
  | .located answer => .located answer.unscoped
  | .done => .done

/-- Whether the outcome is of the kind that answers an operation. -/
def Fits : Operation → Outcome → Prop
  | .register, .located _ => True
  | .lookup, .located _ => True
  | .unregister, .done => True
  | .unregisterMany, .done => True
  | .delete, .done => True
  | _, _ => False

instance (op : Operation) (o : Outcome) : Decidable (o.Fits op) := by
  cases op <;> cases o <;> simp only [Fits] <;> infer_instance

/-- What the kind of an outcome is called. -/
def kindName : Outcome → String
  | .located _ => "address"
  | .done => "ack"

end Outcome

/-- What the kind of outcome that answers an operation is called. -/
def Operation.outcomeName : Operation → String
  | .register => "address"
  | .lookup => "address"
  | _ => "ack"

/-- A reply read off the wire, refused if it is of the wrong kind for the operation. -/
def Reply.checked (op : Operation) : Reply → Reply
  | .error e => .error e
  | .ok o =>
    if o.Fits op then .ok o
    else .error (.remote ("expected " ++ op.outcomeName ++ " response, got " ++ o.kindName))

/-- The error that an error is in a frame. -/
def Error.unscoped : Error → Error
  | .hopLimitExceeded operation grain here owner hop =>
    .hopLimitExceeded operation grain here.unscoped owner.unscoped hop
  | .unstableTarget grain here owner => .unstableTarget grain here.unscoped owner.unscoped
  | .network (.unreachable silo) => .network (.unreachable silo.unscoped)
  | e => e

/-- The reply as a frame carries it. -/
def Reply.unscoped : Reply → Reply
  | .error e => .error e.unscoped
  | .ok o => .ok o.unscoped

end GrainDirectory

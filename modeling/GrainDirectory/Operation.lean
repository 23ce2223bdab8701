set_option autoImplicit false

/-!
# Operations

The five things that a directory can be asked for, and their names in messages and logs.
-/

namespace GrainDirectory

/-- What a directory can be asked for. -/
inductive Operation where
  | register
  | unregister
  | unregisterMany
  | lookup
  | delete
  deriving DecidableEq, Repr, Inhabited

namespace Operation

/-- The name of an operation. -/
def name : Operation → String
  | .register => "register"
  | .unregister => "unregister"
  | .unregisterMany => "unregister_many"
  | .lookup => "lookup"
  | .delete => "delete"

/-- All operations. -/
def all : List Operation := [.register, .unregister, .unregisterMany, .lookup, .delete]

end Operation

end GrainDirectory

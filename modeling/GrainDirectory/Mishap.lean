import GrainDirectory.Operation
set_option autoImplicit false

/-!
# What befalls calls

Most of what happens to a call can be seen in a cluster afterwards, in what its services have counted
or in the log of calls.  Two things that end a call on its way leave nothing behind there.
-/

namespace GrainDirectory

/-- The number of a service in its cluster. -/
abbrev ServiceId := Nat

/-- What befalls a call and leaves no trace in a cluster. -/
inductive Mishap where
  /-- The service could not resolve an owner. -/
  | lost (i : ServiceId) (operation : Operation)
  /-- There was no way to an owner. -/
  | refused (operation : Operation)
  deriving DecidableEq, Repr

end GrainDirectory

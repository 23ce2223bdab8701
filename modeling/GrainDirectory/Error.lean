import GrainDirectory.Address
set_option autoImplicit false

/-!
# Errors

Why a directory call fails.  Errors travel between silos as values, so texts and operation names are
whatever the sender wrote; `message` is the wording shown to a person, and `isRetryable` says whether
the same call may succeed once membership has settled.
-/

namespace GrainDirectory

/-- Failures of the network between directories. -/
inductive NetworkError where
  | serialization (text : String)
  | deserialization (text : String)
  /-- There is no way to reach the silo. -/
  | unreachable (silo : Silo)
  deriving DecidableEq, Repr, Inhabited

/-- Failures of directory calls. -/
inductive Error where
  | config (text : String)
  /-- A request went from silo to silo without reaching its owner. -/
  | hopLimitExceeded (operation : String) (grain : Grain) (here owner : Silo) (hop : UInt32)
  /-- The owner is no functional member at the moment. -/
  | unstableTarget (grain : Grain) (here owner : Silo)
  | network (cause : NetworkError)
  /-- A failure elsewhere that has no counterpart here. -/
  | remote (text : String)
  | internal (text : String)
  deriving DecidableEq, Repr, Inhabited

/-- The wording of a network failure. -/
def NetworkError.message : NetworkError → String
  | .serialization text => "serialization error: " ++ text
  | .deserialization text => "deserialization error: " ++ text
  | .unreachable silo => "silo unreachable: " ++ silo.text

namespace Error

/-- The wording of a failure. -/
def message : Error → String
  | .config text => "config error: " ++ text
  | .hopLimitExceeded operation grain here owner hop =>
    "silo " ++ here.text ++ " is not owner of " ++ grain.text ++ ", cannot forward " ++ operation ++
      " to owner " ++ owner.text ++ " because hop limit is reached (hop count " ++
      toString hop.toNat ++ ")"
  | .unstableTarget grain here owner =>
    "directory at " ++ here.text ++ " is not stable to perform the lookup for " ++ grain.text ++
      " (it maps to " ++ owner.text ++ ", which is not a functional silo), retry later"
  | .network cause => "network error: " ++ cause.message
  | .remote text => "remote error: " ++ text
  | .internal text => "internal error: " ++ text

/-- Whether the call may be repeated once membership has settled. -/
def isRetryable : Error → Bool
  | .unstableTarget .. => true
  | .network _ => true
  | _ => false

/-- There is no way to reach the silo. -/
def unreachable (silo : Silo) : Error := .network (.unreachable silo)

/-- A frame that cannot be read. -/
def unreadable (text : String) : Error := .network (.deserialization text)

/-- The membership table is addressed, but no primary silo is configured. -/
def missingSeed (grain : Grain) : Error :=
  .config ("development clustering cannot run without a primary silo; " ++
    "configure a seed address to address " ++ grain.text)

end Error

end GrainDirectory

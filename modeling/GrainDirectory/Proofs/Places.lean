import GrainDirectory.Grain
import GrainDirectory.Silo
set_option autoImplicit false

/-!
# Places that go by identities

A silo has an identity and a place on the ring, and so has a grain.  Nothing keeps two of them with one
identity from having different places; where all are at the places that their identities are given, they
are told apart by their identities.
-/

namespace GrainDirectory

/-- What consists of an identity and a place. -/
class Placeable (τ : Type) (κ : outParam Type) where
  identity : τ → κ
  hash : τ → UInt32
  ext {x y : τ} (hidentity : identity x = identity y) (hhash : hash x = hash y) : x = y

instance : Placeable Silo SiloId where
  identity := Silo.id
  hash := Silo.hash
  ext {s _} hidentity hhash := by
    obtain ⟨id, hash⟩ := s
    cases hidentity
    cases hhash
    rfl

instance : Placeable Grain GrainId where
  identity := Grain.id
  hash := Grain.hash
  ext {g _} hidentity hhash := by
    obtain ⟨id, hash⟩ := g
    cases hidentity
    cases hhash
    rfl

section Placed

variable {τ κ : Type} [Placeable τ κ] {place : κ → UInt32} {x y : τ}

/-- Whether something is at the place that its identity is given. -/
def Placed (place : κ → UInt32) (x : τ) : Prop :=
  Placeable.hash x = place (Placeable.identity x)

instance : Decidable (Placed place x) := inferInstanceAs (Decidable (_ = _))

theorem Placed.eq_of_identity (h : Placed place x) (h' : Placed place y)
    (hidentity : Placeable.identity x = Placeable.identity y) : x = y := by
  refine Placeable.ext hidentity ?_
  rw [h, h', hidentity]

end Placed

/-- Whether a silo is at the place that its identity has. -/
abbrev Silo.Placed (place : SiloId → UInt32) (s : Silo) : Prop := GrainDirectory.Placed place s

/-- Whether a grain stands at the place that its name has. -/
abbrev Grain.Placed (place : GrainId → UInt32) (g : Grain) : Prop := GrainDirectory.Placed place g

end GrainDirectory

import GrainDirectory.Silo
set_option autoImplicit false

/-!
# The ring

The silos of a cluster, in the order of their signed ring positions and, where positions are equal,
of their identities.  A position belongs to the first silo at or after it, and past the last silo
to the first of all; a silo that is draining may be left out of the choice.  A ring is never
changed: adding and removing make a new one, or refuse.
-/

namespace GrainDirectory

/-- How many positions the ring has. -/
def ringSize : Nat := UInt32.size

/-- The order of silos on the ring. -/
def Silo.Before (a b : Silo) : Prop :=
  a.position.toInt < b.position.toInt ∨
    (a.position.toInt = b.position.toInt ∧ a.id.Lt b.id)

instance (a b : Silo) : Decidable (a.Before b) := inferInstanceAs (Decidable (_ ∨ _))

theorem Silo.before_irrefl (a : Silo) : ¬ a.Before a := by
  intro h
  rcases h with h | h
  · omega
  · exact SiloId.lt_irrefl _ h.2

theorem Silo.before_trans {a b c : Silo} (h1 : a.Before b) (h2 : b.Before c) : a.Before c := by
  rcases h1 with h1 | ⟨e1, h1⟩ <;> rcases h2 with h2 | ⟨e2, h2⟩
  · exact Or.inl (by omega)
  · exact Or.inl (by omega)
  · exact Or.inl (by omega)
  · exact Or.inr ⟨by omega, SiloId.lt_trans h1 h2⟩

/-- The silos of a cluster in ring order. -/
structure Ring where
  silos : List Silo
  deriving DecidableEq, Repr, Inhabited

namespace Ring

/-- The ring without silos. -/
def empty : Ring := ⟨[]⟩

/-- How many silos the ring has. -/
def size (r : Ring) : Nat := r.silos.length

/-- Whether the ring has no silos. -/
def isEmpty (r : Ring) : Bool := r.silos.isEmpty

/-- Whether a silo is on the ring, wherever the ring has it. -/
def contains (r : Ring) (s : Silo) : Bool := r.silos.any fun m => m.id = s.id

/-- The ring with a silo at its place, unless the silo is on it already. -/
def insert? (r : Ring) (s : Silo) : Option Ring :=
  if r.contains s then none
  else some ⟨r.silos.takeWhile (fun m => m.Before s) ++
    s :: r.silos.dropWhile (fun m => m.Before s)⟩

/-- The ring without a silo, unless the silo is not on it. -/
def erase? (r : Ring) (s : Silo) : Option Ring :=
  if r.contains s then some ⟨r.silos.filter fun m => m.id ≠ s.id⟩ else none

/-- The ring with a silo on it. -/
def insert (r : Ring) (s : Silo) : Ring := (r.insert? s).getD r

/-- The ring of some silos.  The first of several with one identity counts. -/
def ofList (silos : List Silo) : Ring := silos.foldl insert empty

/-- Whether a silo may be chosen when `excluded` is left out. -/
def Eligible (excluded : Option Silo) (s : Silo) : Prop := ∀ e ∈ excluded, s.id ≠ e.id

instance (excluded : Option Silo) (s : Silo) : Decidable (Eligible excluded s) :=
  match excluded with
  | none => .isTrue (by simp [Eligible])
  | some e =>
    if h : s.id = e.id then .isFalse (by simp [Eligible, h]) else .isTrue (by simpa [Eligible])

/-- The silo that a position belongs to: the first eligible one at or after it, or else the first
eligible one of all. -/
def owner? (r : Ring) (position : Int32) (excluded : Option Silo) : Option Silo :=
  match r.silos.find? fun s => position.toInt ≤ s.position.toInt ∧ Eligible excluded s with
  | some s => some s
  | none => r.silos.find? fun s => Eligible excluded s

/-- Where on the ring a silo is. -/
def index? (r : Ring) (s : Silo) : Option Nat := r.silos.findIdx? fun m => m.id = s.id

/-- The neighbour before a silo, if the silo has one. -/
def predecessor? (r : Ring) (s : Silo) : Option Silo :=
  match r.index? s with
  | none => none
  | some i =>
    if r.size < 2 then none
    else r.silos[if i = 0 then r.size - 1 else i - 1]?

/-- The neighbour after a silo, if the silo has one. -/
def successor? (r : Ring) (s : Silo) : Option Silo :=
  match r.index? s with
  | none => none
  | some i => if r.size < 2 then none else r.silos[(i + 1) % r.size]?

/-- The clockwise distance between the places of two silos. -/
def distance (a b : Silo) : Nat :=
  if a.hash.toNat ≤ b.hash.toNat then b.hash.toNat - a.hash.toNat
  else ringSize - (a.hash.toNat - b.hash.toNat)

end Ring

end GrainDirectory

import GrainDirectory.Text.Bytes
import GrainDirectory.Text.XXH64
set_option autoImplicit false

/-!
# Grains

A grain is named by its type and a key; its hash is the place of its directory entry on the ring.
As with silos, the identity is the name alone.  Types whose name starts with `sys.svc.` denote
system targets, which every silo serves by itself; one of them is the membership table.
-/

namespace GrainDirectory

/-- The type of a grain. -/
structure GrainType where
  name : String
  deriving DecidableEq, Repr, Inhabited

namespace GrainType

/-- What the names of all system targets start with. -/
def systemTargetStem : String := "sys.svc."

/-- Whether grains of this type are system targets. -/
def isSystemTarget (t : GrainType) : Bool := systemTargetStem.toList.isPrefixOf t.name.toList

/-- The system target type of a name, which may already carry the stem. -/
def systemTarget (name : String) : GrainType :=
  if (GrainType.mk name).isSystemTarget then ⟨name⟩ else ⟨systemTargetStem ++ name⟩

/-- The type of the membership table. -/
def membershipTable : GrainType := ⟨"sys.svc.membership-table"⟩

/-- Whether this is the type of the membership table. -/
def isMembershipTable (t : GrainType) : Bool := t.name == membershipTable.name

end GrainType

/-- The identity of a grain. -/
structure GrainId where
  kind : GrainType
  key : String
  deriving DecidableEq, Repr, Inhabited

/-- A grain and the place of its entry on the ring. -/
structure Grain where
  id : GrainId
  hash : UInt32
  deriving DecidableEq, Repr, Inhabited

namespace GrainId

/-- The place that a name gives a grain: the folded digest of the type, a slash and the key. -/
def derivedHash (i : GrainId) : UInt32 :=
  XXH64.folded (Bytes.ofString i.kind.name ++ Bytes.ofString "/" ++ Bytes.ofString i.key)

end GrainId

namespace Grain

/-- The grain with the place that its name gives it. -/
def new (kind : GrainType) (key : String) : Grain :=
  let i : GrainId := ⟨kind, key⟩
  ⟨i, i.derivedHash⟩

/-- The grain at a place chosen by the caller. -/
def withHash (kind : GrainType) (key : String) (hash : UInt32) : Grain := ⟨⟨kind, key⟩, hash⟩

/-- The type of a grain. -/
def kind (g : Grain) : GrainType := g.id.kind

/-- The key of a grain. -/
def key (g : Grain) : String := g.id.key

/-- The ring position: the hash read as a signed number. -/
def position (g : Grain) : Int32 := g.hash.toInt32

/-- Whether the grain is a system target. -/
def isSystemTarget (g : Grain) : Bool := g.kind.isSystemTarget

/-- The text of a grain. -/
def text (g : Grain) : String := g.kind.name ++ "/" ++ g.key

end Grain

end GrainDirectory

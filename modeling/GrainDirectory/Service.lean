import GrainDirectory.Cache
import GrainDirectory.Metrics
import GrainDirectory.Ownership
import GrainDirectory.Partition
import GrainDirectory.Request
set_option autoImplicit false

/-!
# Services

A service is one silo's share of the directory: its view of the ring, the partition it is
authoritative for, a cache of what it learned from others, and its counts.  This module holds the
state of a service and what it answers on its own, without asking anybody; `Service/RingChange`
follows membership and `Service/Steps` holds the steps of directory calls.
-/

namespace GrainDirectory

/-- What a service sees of the world at one instant: the oracle and the time in nanoseconds. -/
structure Moment where
  oracle : Oracle
  now : Nat

/-- What a catalog says to the departure of a silo. -/
abbrev Catalog := Ring → Silo → SiloStatus → Except Error Unit

/-- What collaborators want to be told of. -/
inductive News where
  /-- A silo joined the ring; directory entries may be handed over. -/
  | joined (silo : Silo)
  /-- A silo is leaving the ring shown, and what the catalog said to it. -/
  | leaving (silo : Silo) (status : SiloStatus) (ring : Ring) (answer : Except Error Unit)

/-- What a service tells its collaborators, and when. -/
structure Notice where
  time : Nat
  news : News

/-- One silo's share of the directory. -/
structure Service where
  /-- The name under which a cluster keeps the service. -/
  label : String
  home : Silo
  config : Config
  ring : Ring
  /-- Whether the service accepts ownership. -/
  running : Bool := false
  partition : Partition
  cache : Cache
  metrics : Metrics := {}
  /-- The inbox that the service follows membership with, while it does. -/
  subscription : Option Nat := none
  catalog : Catalog := fun _ _ _ => .ok ()
  /-- Whether there are collaborators that want to be told of changes. -/
  heeded : Bool := true
  notices : List Notice := []
  /-- Whether clients find the service under its label. -/
  listed : Bool := true
  /-- Whether whoever had the service built holds it for good. -/
  kept : Bool := false

instance : Inhabited Service :=
  ⟨{ label := "", home := default, config := {}, ring := .empty, partition := default,
     cache := default }⟩

/-! ## Building -/

/-- What a service is built from. -/
structure Blueprint where
  label : String
  home : Silo
  config : Config := {}
  /-- Whether there is an oracle to follow. -/
  hasOracle : Bool := true
  /-- Whether there is a channel to other silos. -/
  hasChannel : Bool := true
  /-- Whether the partition lets registrations on departing silos be taken over. -/
  watchful : Bool := true
  catalog : Catalog := fun _ _ _ => .ok ()
  /-- Whether there are collaborators that want to be told of changes. -/
  heeded : Bool := true
  /-- Whether whoever has the service built holds it for good. -/
  kept : Bool := false

/-- Builds a service whose ring holds its own silo alone. -/
def Blueprint.build (b : Blueprint) (now : Nat) : Except Error Service :=
  match b.config.defect? with
  | some e => .error e
  | none =>
    if b.hasOracle = false then .error (.config "directory requires a membership oracle")
    else if b.hasChannel = false then .error (.config "directory requires a remote channel")
    else .ok
      { label := b.label
        home := b.home
        config := b.config
        ring := Ring.ofList [b.home]
        partition := { lazyDelay := b.config.lazyDelay, watchful := b.watchful }
        cache := Cache.ofConfig b.config.cache now
        catalog := b.catalog
        heeded := b.heeded
        kept := b.kept }

namespace Service

/-! ## Ownership and trust -/

/-- The service's view of ownership. -/
def resolver (s : Service) : Resolver where
  home := s.home
  seed := s.config.seed
  hopLimit := s.config.hopLimit
  ring := s.ring
  running := s.running

/-- The owner of a grain. -/
def owner? (s : Service) (g : Grain) : Except Error (Option Silo) := s.resolver.owner? g

/-- Whether the service itself owns a grain. -/
def Owns (s : Service) (g : Grain) : Prop :=
  match s.owner? g with
  | .ok (some owner) => owner.id = s.home.id
  | _ => False

instance (s : Service) (g : Grain) : Decidable (s.Owns g) := by
  unfold Owns
  split <;> infer_instance

/-- Whether a silo may be trusted as the location of an activation. -/
def Trusts (s : Service) (o : Oracle) (silo : Silo) : Prop :=
  silo.id = s.home.id ∨ o.isFunctional silo = true

instance (s : Service) (o : Oracle) (silo : Silo) : Decidable (s.Trusts o silo) :=
  inferInstanceAs (Decidable (_ ∨ _))

/-- Raises a count. -/
def count (s : Service) (meter : Meter) (n : UInt64) : Service :=
  { s with metrics := s.metrics.add meter n }

/-! ## Answers without a call -/

/-- What the cache believes of a grain, if it puts it on a trusted silo. -/
def trustedEntry? (s : Service) (m : Moment) (g : Grain) : Option CacheEntry :=
  (s.cache.find? m.now g.id).filter fun e => s.Trusts m.oracle e.address.silo

/-- The trusted location that the cache has of a grain; the lookup is counted. -/
def cachedAddress (s : Service) (m : Moment) (g : Grain) : Option GrainAddress × Service :=
  let entry := s.trustedEntry? m g
  (entry.map (·.address),
    { s with
      cache := s.cache.noteRead m.now
      metrics := s.metrics.cacheLookup entry.isSome })

/-- Answers from the cache or the own partition, if that can be answered without the owner.  What the
cache says is tagged as cached. -/
def localLookup (s : Service) (m : Moment) (g : Grain) :
    Except Error (Option TaggedAddress) × Service :=
  match s.owner? g with
  | .error e => (.error e, s)
  | .ok none => (.ok none, s)
  | .ok (some owner) =>
    match s.cachedAddress m g with
    | (some address, s) => (.ok (some (.found address TaggedAddress.cachedTag)), s)
    | (none, s) =>
      if owner.id ≠ s.home.id then (.ok none, s)
      else
        let s := s.count (.call .lookup .served) 1
        match s.partition.registration? g.id with
        | none => (.ok none, s)
        | some r => (.ok (some r.answer), s.count .localLookupSuccesses 1)

/-- Remembers that a grain lives on a silo. -/
def suggest (s : Service) (m : Moment) (g : Grain) (silo : Silo) : Service :=
  { s with cache := s.cache.add m.now ⟨g, .nil, silo⟩ TaggedAddress.cachedTag }

/-- Forgets the location of a grain, and says whether there was one. -/
def forget (s : Service) (m : Moment) (g : Grain) : Bool × Service :=
  (s.cache.stores g.id, { s with cache := s.cache.remove m.now g.id })

/-- Forgets the location of a grain if it is this activation, and says whether it was. -/
def forgetAddress (s : Service) (m : Moment) (address : GrainAddress) : Bool × Service :=
  (decide (s.cache.Believes m.now address),
    { s with cache := s.cache.removeAddress m.now address })

/-! ## Statistics -/

/-- Sizes, shares of the ring and counts of a service. -/
structure Stats where
  partitionSize : Nat
  cacheSize : Nat
  ringSize : Nat
  successorDistance : Nat
  /-- The share of the ring that the service owns, in percent. -/
  share : Float
  /-- The share that every silo would own of an even ring, in percent. -/
  evenShare : Float
  metrics : Metrics

/-- The statistics of a service. -/
def stats (s : Service) (m : Moment) : Stats where
  partitionSize := s.partition.size
  cacheSize := s.cache.size m.now
  ringSize := s.ring.size
  successorDistance :=
    match s.ring.successor? s.home with
    | some next => Ring.distance s.home next
    | none => 0
  share :=
    (UInt64.ofNat s.resolver.ownedRange).toFloat / (UInt64.ofNat GrainDirectory.ringSize).toFloat
      * 100.0
  evenShare := if s.ring.isEmpty then 0.0 else 100.0 / (UInt64.ofNat s.ring.size).toFloat
  metrics := s.metrics

end Service

end GrainDirectory

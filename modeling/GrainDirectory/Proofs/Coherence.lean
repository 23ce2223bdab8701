import GrainDirectory.Proofs.Books
import GrainDirectory.Proofs.Places
import GrainDirectory.Proofs.Registrations
set_option autoImplicit false

/-!
# Caches that agree with their partition

A service keeps what it knows of its own grains twice: in its partition, which is authoritative, and in
its cache, which is asked first.  It is coherent if its cache says nothing of a grain that it owns but
what its partition has registered, tag included.

Each step of a call keeps a service coherent.  What is served changes both stores alike, what is learned
is about grains of others, and everything else only takes entries out of the cache.  A change of the
ring can make the service the owner of grains that it has learned about; it then drops what it believes
of all grains that it owns, and is coherent because nothing is left to confirm.
-/

namespace GrainDirectory

/-- Whether a reply is about a grain, if it locates anything. -/
def Reply.About (g : Grain) (reply : Reply) : Prop :=
  ∀ answer, reply = .ok (.located answer) → ∀ address, answer.address = some address →
    address.grain = g

/-! ## Partitions -/

namespace Partition

/-- Whether everything registered in one partition is registered in another. -/
def Within (p p' : Partition) : Prop :=
  ∀ id r, p.registration? id = some r → p'.registration? id = some r

theorem Within.refl (p : Partition) : p.Within p := fun _ _ h => h

theorem Within.of_eq {p p' : Partition} (h : p = p') : p.Within p' := h ▸ .refl p

theorem Within.trans {p p' p'' : Partition} (h : p.Within p') (h' : p'.Within p'') : p.Within p'' :=
  fun id r hr => h' id r (h id r hr)

theorem within_clear (p : Partition) : p.clear.Within p := by
  intro id r hr
  cases hr

theorem within_evict (p : Partition) (now : Nat) (test : GrainAddress → Bool) :
    (p.evict now test).2.Within p := by
  intro id r hr
  rw [registration?_evict, Option.filter_eq_some_iff] at hr
  exact hr.1

theorem within_removeActivation (p : Partition) (now : Nat) (a : GrainAddress)
    (cause : RemovalCause) : (p.removeActivation now a.grain a.activation cause).2.Within p := by
  intro id r hr
  rw [registration?_removeActivation, Option.filter_eq_some_iff] at hr
  exact hr.1

theorem within_removeGrain (p : Partition) (g : Grain) : (p.removeGrain g).2.Within p := by
  intro id r hr
  rw [registration?_removeGrain] at hr
  split at hr
  · cases hr
  · exact hr

/-- Whether every grain is registered at its place. -/
def Placed (place : GrainId → UInt32) (p : Partition) : Prop :=
  ∀ id r, p.registration? id = some r → r.address.grain.Placed place

theorem Placed.of_within {place : GrainId → UInt32} {p p' : Partition} (h : p'.Placed place)
    (hwithin : p.Within p') : p.Placed place := fun id r hr => h id r (hwithin id r hr)

theorem Placed.apply {place : GrainId → UInt32} {p : Partition} (h : p.Placed place) (m : Moment)
    {action : Action} (haction : action.grain.Placed place) :
    (p.apply m action).2.Placed place := by
  cases action with
  | register address previous =>
    intro id r hr
    rcases p.registration?_add_cases m.oracle m.now hr with hold | ⟨-, hnew⟩
    · exact h id r hold
    · rw [hnew]
      exact haction
  | unregister address cause => exact h.of_within (p.within_removeActivation m.now address cause)
  | lookup grain => exact h
  | delete grain => exact h.of_within (p.within_removeGrain grain)

/-- What is registered for a grain at its place is about this grain. -/
theorem Placed.grain_eq {place : GrainId → UInt32} {p : Partition} (h : p.Placed place) {g : Grain}
    (hg : g.Placed place) {r : Registration} (hr : p.registration? g.id = some r) :
    r.address.grain = g :=
  (h _ _ hr).eq_of_identity hg (registration?_grainId hr)

/-- What an action is answered is about its grain. -/
theorem Placed.about_apply {place : GrainId → UInt32} {p : Partition} (h : p.Placed place)
    (m : Moment) {action : Action} (haction : action.grain.Placed place) :
    Reply.About action.grain (.ok (p.apply m action).1) := by
  intro answer hanswer address haddress
  cases action with
  | register registered previous =>
    obtain ⟨r, hr, heq⟩ := p.exists_registration_add m.oracle m.now registered previous
    have happly : (p.apply m (.register registered previous)).2.Placed place := h.apply m haction
    cases hanswer
    rw [heq] at haddress
    rw [← Option.some.inj haddress]
    exact happly.grain_eq haction hr
  | unregister registered cause => cases hanswer
  | lookup grain =>
    cases hanswer
    unfold lookup at haddress
    cases hr : p.registration? grain.id with
    | none =>
      rw [hr] at haddress
      cases haddress
    | some r =>
      rw [hr] at haddress
      rw [← Option.some.inj haddress]
      exact h.grain_eq haction hr
  | delete grain => cases hanswer

/-- Whether a partition has registered what a cache entry says. -/
def Confirms (p : Partition) (e : CacheEntry) : Prop :=
  ∃ r, p.registration? e.grainId = some r ∧ r.address = e.address ∧ r.tag = e.tag

theorem Confirms.congr {p p' : Partition} {e : CacheEntry} (h : p.Confirms e)
    (hsame : p'.registration? e.grainId = p.registration? e.grainId) : p'.Confirms e := by
  obtain ⟨r, hr, haddress, htag⟩ := h
  exact ⟨r, hsame.trans hr, haddress, htag⟩

end Partition

/-! ## Caches -/

namespace Cache

variable {c : Cache} {now : Nat} {g : GrainId} {e : CacheEntry}

theorem grainId_of_find? (h : c.find? now g = some e) : e.grainId = g :=
  Table.key_of_find? (find?_eq_some_iff.mp h).1

/-- Nothing is seen that was not seen before. -/
theorem find?_of_later {later : Nat} (hle : now ≤ later) (h : c.find? later g = some e) :
    c.find? now g = some e := by
  rw [find?_eq_some_iff] at h ⊢
  exact ⟨h.1, fun life hlife => Nat.lt_of_le_of_lt hle (h.2 life hlife)⟩

/-- What is seen after an address has been stored was seen before, or it is the address. -/
theorem find?_add_cases {address : GrainAddress} {tag : Int32}
    (h : (c.add now address tag).find? now g = some e) :
    (c.kind = .bounded ∧ g = address.grain.id ∧ e = ⟨address, tag, now⟩) ∨
      (c.find? now g = some e ∧ (c.kind = .bounded → g ≠ address.grain.id)) := by
  cases hkind : c.kind with
  | disabled =>
    rw [add, hkind] at h
    refine .inr ⟨h, fun hbounded => ?_⟩
    cases hbounded
  | bounded =>
    rw [find?_add hkind] at h
    split at h
    · rename_i hid
      rw [Option.filter_eq_some_iff] at h
      exact .inl ⟨rfl, hid, (Option.some.inj h.1).symm⟩
    · rename_i hid
      exact .inr ⟨h, fun _ => hid⟩

theorem find?_of_remove {g' : GrainId} (h : (c.remove now g').find? now g = some e) :
    c.find? now g = some e ∧ g ≠ g' := by
  rw [find?_remove] at h
  split at h
  · cases h
  · rename_i hid
    exact ⟨h, hid⟩

theorem find?_of_removeAddress {address : GrainAddress}
    (h : (c.removeAddress now address).find? now g = some e) :
    c.find? now g = some e ∧ ¬ (g = address.grain.id ∧ c.Believes now address) := by
  rw [find?_removeAddress] at h
  split at h
  · cases h
  · rename_i hid
    exact ⟨h, hid⟩

theorem find?_of_removed {removed : Bool} {address : GrainAddress}
    (h : (if removed then c.removeAddress now address else c).find? now g = some e) :
    c.find? now g = some e := by
  cases removed with
  | false => exact h
  | true => exact (find?_of_removeAddress h).1

@[simp] theorem outline_evict (c : Cache) (now : Nat) (test : CacheEntry → Bool) :
    (c.evict now test).2.outline = c.outline := by
  have heach (grains : List GrainId) : (c.removeEach now grains).2.outline = c.outline := by
    induction grains generalizing c with
    | nil => rfl
    | cons g rest ih => exact (ih (c.remove now g)).trans (outline_remove c now g)
  exact heach _

end Cache

/-- A removal that also drops what the cache believes of the activation leaves every entry confirmed
that is still seen. -/
theorem Partition.Confirms.removeActivation {p : Partition} {c : Cache} {now : Nat}
    {address : GrainAddress} {cause : RemovalCause} {g : GrainId} {e : CacheEntry}
    (h : p.Confirms e)
    (hseen : (if (p.removeActivation now address.grain address.activation cause).1
      then c.removeAddress now address else c).find? now g = some e) :
    (p.removeActivation now address.grain address.activation cause).2.Confirms e := by
  by_cases hid : e.grainId = address.grain.id
  · obtain ⟨r, hr, haddress, -⟩ := id h
    unfold Partition.removeActivation at hseen ⊢
    rw [← hid, hr] at hseen ⊢
    dsimp only at hseen ⊢
    split at hseen
    · -- The entry names the activation that is removed, so it is not seen any more.
      rename_i htakes
      obtain ⟨hbefore, hunbelieved⟩ := Cache.find?_of_removeAddress hseen
      have hg : g = address.grain.id := (Cache.grainId_of_find? hbefore).symm.trans hid
      have hbelieves : c.Believes now address := by
        refine ⟨e, hg ▸ hbefore, hid, ?_⟩
        rw [← haddress]
        exact htakes.1
      exact absurd ⟨hg, hbelieves⟩ hunbelieved
    · rename_i hkeep
      rw [if_neg hkeep]
      exact h
  · exact h.congr (p.registration?_removeActivation_of_ne now cause hid)

/-! ## Services -/

namespace Service

variable {place : GrainId → UInt32} {now : Nat} {s t : Service} {m : Moment}

/-- Whether a service is running, knows every grain at its place alone, and sees nothing in its cache
unless the cache stores something. -/
structure Orderly (place : GrainId → UInt32) (now : Nat) (s : Service) : Prop where
  running : s.running = true
  registered : s.partition.Placed place
  believed : ∀ {id e}, s.cache.find? now id = some e → e.address.grain.Placed place
  enabled : ∀ {id e}, s.cache.find? now id = some e → s.cache.kind = .bounded

/-- Whether what the cache of a service says of grains that it owns is what its partition has
registered. -/
structure Coherent (place : GrainId → UInt32) (now : Nat) (s : Service) : Prop
    extends Orderly place now s where
  confirmed : ∀ {id e}, s.cache.find? now id = some e → s.Owns e.address.grain →
    s.partition.Confirms e

theorem owns_iff_of_resolver (h : t.resolver = s.resolver) (g : Grain) : t.Owns g ↔ s.Owns g := by
  have hhome : t.home = s.home := congrArg Resolver.home h
  rw [Owns, Owns, owner?, owner?, h, hhome]

theorem owner_of_owns {g : Grain} (h : s.Owns g) :
    ∃ owner, s.owner? g = .ok (some owner) ∧ owner.id = s.home.id := by
  unfold Owns at h
  split at h
  · rename_i owner howner
    exact ⟨owner, howner, h⟩
  · exact h.elim

/-! ### What the steps of a call do to the partition -/

theorem partition_accept (s : Service) (m : Moment) (action : Action) (hop : UInt32) :
    (s.accept m action hop).partition = s.partition :=
  congrArg Books.partition (s.books_accept m action.operation action hop)

theorem partition_dispatched (s : Service) (m : Moment) (action : Action) :
    (s.dispatched m action).partition = s.partition :=
  congrArg Books.partition (s.books_dispatched m action.operation action)

theorem partition_serve (s : Service) (m : Moment) (action : Action) :
    (s.serve m action).2.partition = (s.partition.apply m action).2 :=
  congrArg Books.partition (s.books_serve m action)

theorem partition_learn (s : Service) (m : Moment) (action : Action) (reply : Reply) :
    (s.learn m action reply).partition = s.partition :=
  congrArg Books.partition (s.books_learn m action.operation action reply)

/-- The cache takes over what is answered to a registration. -/
theorem cache_serve_register (s : Service) (m : Moment) (address : GrainAddress)
    (previous : Option GrainAddress) :
    (s.serve m (.register address previous)).2.cache =
      let answer := (s.partition.add m.oracle m.now address previous).1
      match answer.address with
      | some registered => s.cache.add m.now registered answer.tag
      | none => s.cache := rfl

theorem within_removeAllHere (s : Service) (m : Moment) (cause : RemovalCause)
    (addresses : List GrainAddress) :
    (s.removeAllHere m cause addresses).partition.Within s.partition := by
  unfold removeAllHere
  induction addresses generalizing s with
  | nil => exact .refl _
  | cons a rest ih => exact (ih _).trans (s.partition.within_removeActivation m.now a cause)

/-! ### What clients ask of the cache -/

/-- The address that a service has registered for a grain. -/
def registered? (s : Service) (g : Grain) : Option GrainAddress :=
  (s.partition.registration? g.id).map (·.address)

theorem address_lookup (s : Service) (g : Grain) :
    (s.partition.lookup g).address = s.registered? g := by
  unfold Partition.lookup registered?
  cases s.partition.registration? g.id <;> rfl

/-- A service that owns a grain looks into its cache and then into its partition. -/
theorem localLookup_eq_of_owns (m : Moment) {g : Grain} (howns : s.Owns g) :
    (s.localLookup m g).1 =
      .ok (((s.trustedEntry? m g).map fun e => .found e.address TaggedAddress.cachedTag).or
        ((s.partition.registration? g.id).map (·.answer))) := by
  obtain ⟨owner, howner, hhome⟩ := owner_of_owns howns
  have hid : ¬ owner.id ≠ s.home.id := fun hne => hne hhome
  unfold localLookup cachedAddress
  rw [howner]
  cases s.trustedEntry? m g with
  | some e => rfl
  | none =>
    dsimp only [Option.map_none, count]
    rw [if_neg hid]
    cases s.partition.registration? g.id <;> rfl

/-- To look a grain up without asking its owner does to a service what a look into its cache does, but
for what is counted, or nothing. -/
theorem service_localLookup (s : Service) (m : Moment) (g : Grain) :
    (s.localLookup m g).2 = s ∨
      ∃ metrics, (s.localLookup m g).2 = { (s.cachedAddress m g).2 with metrics := metrics } := by
  unfold localLookup
  split
  · exact .inl rfl
  · exact .inl rfl
  · refine .inr ?_
    split
    · rename_i hcache
      rw [hcache]
      exact ⟨_, rfl⟩
    · rename_i hcache
      rw [hcache]
      split
      · exact ⟨_, rfl⟩
      · dsimp only
        split
        · exact ⟨_, rfl⟩
        · exact ⟨_, rfl⟩

theorem within_localLookup (s : Service) (m : Moment) (g : Grain) :
    (s.localLookup m g).2.partition.Within s.partition := by
  rcases s.service_localLookup m g with hsame | ⟨metrics, hsame⟩
  · rw [hsame]
    exact .refl _
  · rw [hsame]
    exact .refl _

/-! ### Coherence -/

namespace Coherent

/-- What it takes to be coherent after a step that leaves the outline of a service alone: whatever is
seen was seen and stays confirmed, or is new and right. -/
theorem of_outline (h : s.Coherent place now) (hkeep : t.outline = s.outline)
    (hregistered : t.partition.Placed place)
    (hseen : ∀ {id e}, t.cache.find? now id = some e →
      (s.cache.find? now id = some e ∧ (s.partition.Confirms e → t.partition.Confirms e)) ∨
        (s.cache.kind = .bounded ∧ e.address.grain.Placed place ∧
          (s.Owns e.address.grain → t.partition.Confirms e))) :
    t.Coherent place now := by
  have hresolver : t.outline.resolver = s.outline.resolver := by rw [hkeep]
  have hkind : t.outline.cache.kind = s.outline.cache.kind := by rw [hkeep]
  have hrunning : t.outline.running = s.outline.running := by rw [hkeep]
  refine ⟨⟨hrunning.trans h.running, hregistered, fun {id e} he => ?_, fun {id e} he => ?_⟩,
    fun {id e} he howns => ?_⟩
  · rcases hseen he with ⟨hold, -⟩ | ⟨-, hplaced, -⟩
    · exact h.believed hold
    · exact hplaced
  · rcases hseen he with ⟨hold, -⟩ | ⟨hbounded, -⟩
    · exact hkind.trans (h.enabled hold)
    · exact hkind.trans hbounded
  · have howns' : s.Owns e.address.grain :=
      (owns_iff_of_resolver (s := s) (t := t) hresolver e.address.grain).mp howns
    rcases hseen he with ⟨hold, hconfirms⟩ | ⟨-, -, hconfirms⟩
    · exact hconfirms (h.confirmed hold howns')
    · exact hconfirms howns'

/-- A service stays coherent if less is seen in its cache. -/
theorem of_shrink (h : s.Coherent place now) (hkeep : t.outline = s.outline)
    (hpartition : t.partition = s.partition)
    (hseen : ∀ {id e}, t.cache.find? now id = some e → s.cache.find? now id = some e) :
    t.Coherent place now :=
  h.of_outline hkeep (hpartition ▸ h.registered) fun he => .inl ⟨hseen he, hpartition ▸ id⟩

/-- Whether a service is coherent is a matter of its resolver and its stores. -/
theorem of_stores (h : s.Coherent place now) (hresolver : t.resolver = s.resolver)
    (hpartition : t.partition = s.partition) (hcache : t.cache = s.cache) : t.Coherent place now where
  running := (congrArg Resolver.running hresolver).trans h.running
  registered := hpartition ▸ h.registered
  believed he := h.believed (hcache ▸ he)
  enabled he := hcache ▸ h.enabled (hcache ▸ he)
  confirmed he howns :=
    hpartition ▸ h.confirmed (hcache ▸ he) ((owns_iff_of_resolver hresolver _).mp howns)

/-- Time only takes entries out of sight. -/
theorem later (h : s.Coherent place now) {time : Nat} (hle : now ≤ time) : s.Coherent place time where
  running := h.running
  registered := h.registered
  believed he := h.believed (Cache.find?_of_later hle he)
  enabled he := h.enabled (Cache.find?_of_later hle he)
  confirmed he := h.confirmed (Cache.find?_of_later hle he)

theorem count (h : s.Coherent place now) (meter : Meter) (n : UInt64) :
    (s.count meter n).Coherent place now := h.of_shrink rfl rfl id

/-- A service may remember what it learns of a grain of another. -/
theorem remember (h : s.Coherent place now) {address : GrainAddress}
    (hplaced : address.grain.Placed place) (howns : ¬ s.Owns address.grain) (tag : Int32) :
    ({ s with cache := s.cache.add now address tag } : Service).Coherent place now := by
  refine h.of_outline (outline_update s rfl (Cache.outline_add _ _ _ _)) h.registered
    fun {id e} he => ?_
  rcases Cache.find?_add_cases he with ⟨hkind, -, rfl⟩ | ⟨hold, -⟩
  · exact .inr ⟨hkind, hplaced, fun hown => absurd hown howns⟩
  · exact .inl ⟨hold, fun hconfirms => hconfirms⟩

/-! ### The steps of a call -/

theorem accept (h : s.Coherent place m.now) (action : Action) (hop : UInt32) :
    (s.accept m action hop).Coherent place m.now := by
  refine h.of_shrink (outline_accept s m action hop) (s.partition_accept m action hop)
    fun {id e} he => ?_
  unfold Service.accept at he
  split at he
  · split at he
    · exact (Cache.find?_of_remove he).1
    · exact he
  · exact he

theorem dispatched (h : s.Coherent place m.now) (action : Action) :
    (s.dispatched m action).Coherent place m.now := by
  cases action with
  | delete grain =>
    exact h.of_shrink (outline_update s rfl (Cache.outline_remove _ _ _)) rfl fun he =>
      (Cache.find?_of_remove he).1
  | register address previous => exact h.count _ _
  | unregister address cause => exact h.count _ _
  | lookup grain => exact h.count _ _

/-- Serving changes the partition and the cache alike. -/
theorem serve (h : s.Coherent place m.now) {action : Action} (haction : action.grain.Placed place) :
    (s.serve m action).2.Coherent place m.now := by
  have hpartition := s.partition_serve m action
  have hregistered : (s.serve m action).2.partition.Placed place :=
    hpartition ▸ h.registered.apply m haction
  refine h.of_outline (outline_serve s m action) hregistered fun {id e} he => ?_
  cases action with
  | register address previous =>
    obtain ⟨r, hr, hanswer⟩ := s.partition.exists_registration_add m.oracle m.now address previous
    have hcache : (s.serve m (.register address previous)).2.cache =
        s.cache.add m.now r.address r.tag := by
      rw [cache_serve_register, hanswer]
      rfl
    have hgrain : r.grainId = address.grain.id := Partition.registration?_grainId hr
    rw [hcache] at he
    rcases Cache.find?_add_cases he with ⟨hkind, -, rfl⟩ | ⟨hold, hne⟩
    · refine .inr ⟨hkind, hregistered _ r hr, fun _ => ⟨r, ?_, rfl, rfl⟩⟩
      show (s.partition.add m.oracle m.now address previous).2.registration? r.grainId = some r
      rw [hgrain]
      exact hr
    · refine .inl ⟨hold, fun hconfirms => ?_⟩
      have hother : e.grainId ≠ address.grain.id := by
        rw [Cache.grainId_of_find? hold, ← hgrain]
        exact hne (h.enabled hold)
      exact hconfirms.congr (s.partition.registration?_add_of_ne m.oracle m.now previous hother)
  | unregister address cause =>
    have hold : s.cache.find? m.now id = some e := Cache.find?_of_removed he
    exact .inl ⟨hold, fun hconfirms => hconfirms.removeActivation he⟩
  | lookup grain =>
    have hcache : (s.serve m (.lookup grain)).2.cache = s.cache := by
      unfold Service.serve
      dsimp only
      split <;> rfl
    rw [hcache] at he
    exact .inl ⟨he, fun hconfirms => hpartition ▸ hconfirms⟩
  | delete grain =>
    obtain ⟨hold, hne⟩ := Cache.find?_of_remove he
    refine .inl ⟨hold, fun hconfirms => hconfirms.congr ?_⟩
    have hother : e.grainId ≠ grain.id := by
      rw [Cache.grainId_of_find? hold]
      exact hne
    show (s.partition.removeGrain grain).2.registration? e.grainId = _
    rw [Partition.registration?_removeGrain, if_neg hother]

/-- The removal of one address of a batch is counted differently from that of an activation. -/
theorem removeHere (h : s.Coherent place m.now) {address : GrainAddress}
    (haddress : address.grain.Placed place) (cause : RemovalCause) :
    (s.removeHere m cause address).Coherent place m.now := by
  have hserved : (s.serve m (.unregister address cause)).2.Coherent place m.now := h.serve haddress
  exact hserved.of_shrink rfl rfl id

theorem removeAllHere (h : s.Coherent place m.now) (cause : RemovalCause)
    {addresses : List GrainAddress} (haddresses : ∀ a ∈ addresses, a.grain.Placed place) :
    (s.removeAllHere m cause addresses).Coherent place m.now := by
  unfold Service.removeAllHere
  induction addresses generalizing s with
  | nil => exact h
  | cons a rest ih =>
    rw [List.foldl_cons]
    exact ih (h.removeHere (haddresses a List.mem_cons_self) cause) fun b hb =>
      haddresses b (List.mem_cons_of_mem a hb)

/-- What a service learns from the owner of a grain is about this grain, which is not its own. -/
theorem learn (h : s.Coherent place m.now) {action : Action} (howns : ¬ s.Owns action.grain)
    (haction : action.grain.Placed place) {reply : Reply} (hreply : reply.About action.grain) :
    (s.learn m action reply).Coherent place m.now := by
  unfold Service.learn
  split
  · split
    · exact h.remember haction howns _
    · exact h
  · rename_i grain answer
    split
    · rename_i address hanswer
      split
      · have hgrain : address.grain = grain := hreply answer rfl address hanswer
        exact h.remember (hgrain ▸ haction) (hgrain ▸ howns) _
      · exact h
    · exact h
  · exact h

/-- What is seen of a grain that a service owns is registered. -/
theorem confirmed_of_owns (h : s.Coherent place now) {g : Grain} (hg : g.Placed place)
    (howns : s.Owns g) {e : CacheEntry} (he : s.cache.find? now g.id = some e) :
    ∃ r, s.partition.registration? g.id = some r ∧ r.address = e.address ∧ r.tag = e.tag := by
  have hid : e.grainId = g.id := Cache.grainId_of_find? he
  have hgrain : e.address.grain = g := (h.believed he).eq_of_identity hg hid
  obtain ⟨r, hr, haddress, htag⟩ := h.confirmed he (hgrain ▸ howns)
  exact ⟨r, hid ▸ hr, haddress, htag⟩

/-- The fast path of a service finds what it has registered for a grain that it owns. -/
theorem localLookup_of_owns (h : s.Coherent place m.now) {g : Grain} (hg : g.Placed place)
    (howns : s.Owns g) :
    ∃ answer, (s.localLookup m g).1 = .ok answer ∧
      (answer.isSome ↔ (s.registered? g).isSome) ∧
      ∀ t, answer = some t → t.address = s.registered? g := by
  rw [localLookup_eq_of_owns m howns]
  unfold registered?
  cases hentry : s.trustedEntry? m g with
  | some e =>
    unfold trustedEntry? at hentry
    rw [Option.filter_eq_some_iff] at hentry
    obtain ⟨r, hr, haddress, -⟩ := h.confirmed_of_owns hg howns hentry.1
    rw [hr]
    refine ⟨_, rfl, Iff.rfl, ?_⟩
    rintro t ⟨⟩
    exact congrArg some haddress.symm
  | none =>
    cases s.partition.registration? g.id with
    | none =>
      refine ⟨none, rfl, Iff.rfl, ?_⟩
      rintro t ⟨⟩
    | some r =>
      refine ⟨_, rfl, Iff.rfl, ?_⟩
      rintro t ⟨⟩
      rfl

theorem forget (h : s.Coherent place m.now) (g : Grain) :
    (s.forget m g).2.Coherent place m.now :=
  h.of_shrink (outline_update s rfl (Cache.outline_remove _ _ _)) rfl fun he =>
    (Cache.find?_of_remove he).1

theorem forgetAddress (h : s.Coherent place m.now) (address : GrainAddress) :
    (s.forgetAddress m address).2.Coherent place m.now :=
  h.of_shrink (outline_update s rfl (Cache.outline_removeAddress _ _ _)) rfl fun he =>
    (Cache.find?_of_removeAddress he).1

theorem cachedAddress (h : s.Coherent place m.now) (g : Grain) :
    (s.cachedAddress m g).2.Coherent place m.now := by
  refine h.of_shrink (outline_update s rfl (Cache.outline_noteRead _ _)) rfl fun {id e} he => ?_
  rwa [← Cache.find?_noteRead s.cache m.now id]

theorem localLookup (h : s.Coherent place m.now) (g : Grain) :
    (s.localLookup m g).2.Coherent place m.now := by
  rcases s.service_localLookup m g with hsame | ⟨metrics, hsame⟩
  · rw [hsame]
    exact h
  · rw [hsame]
    exact (h.cachedAddress g).of_stores rfl rfl rfl

end Coherent

/-! ### Changes of the ring -/

theorem within_adjustPartition (s : Service) (now : Nat) (changed : Silo) (left : Bool) :
    (s.adjustPartition now changed left).partition.Within s.partition :=
  s.partition.within_evict now _

theorem partition_tell (s : Service) (now : Nat) (news : News) :
    (s.tell now news).partition = s.partition := by
  unfold tell
  split <;> rfl

theorem within_addSilo (s : Service) (now : Nat) (silo : Silo) :
    (s.addSilo now silo).2.partition.Within s.partition := by
  unfold addSilo
  split
  · exact .refl _
  · rename_i ring _
    have hwithin := within_adjustPartition
      (({ s with ring := ring } : Service).tell now (.joined silo)) now silo false
    rw [partition_tell] at hwithin
    exact hwithin

theorem within_removeSilo (s : Service) (now : Nat) (silo : Silo) (status : SiloStatus) :
    (s.removeSilo now silo status).2.partition.Within s.partition := by
  have htold := Partition.Within.of_eq
    (s.partition_tell now (.leaving silo status s.ring (s.catalog s.ring silo status)))
  unfold removeSilo
  dsimp only
  split
  · exact htold
  · exact Partition.Within.trans (within_adjustPartition _ _ _ _) htold

theorem within_follow (s : Service) (now : Nat) (e : StatusEvent) :
    (s.follow now e).partition.Within s.partition := by
  unfold follow
  split
  · exact .refl _
  · split
    · exact s.within_removeSilo now _ _
    · split
      · exact s.within_addSilo now _
      · exact .refl _

theorem within_addAll (s : Service) (now : Nat) (silos : List Silo) :
    (silos.foldl (fun s silo => (s.addSilo now silo).2) s).partition.Within s.partition := by
  induction silos generalizing s with
  | nil => exact .refl _
  | cons silo rest ih => exact (ih _).trans (s.within_addSilo now silo)

theorem within_start (s : Service) (m : Moment) : (s.start m).1.partition.Within s.partition := by
  unfold start
  split
  · exact .refl _
  · exact within_addAll _ _ _

theorem within_stop (s : Service) (m : Moment) : (s.stop m).1.partition.Within s.partition :=
  s.partition.within_clear

namespace Orderly

theorem tell (h : s.Orderly place now) (time : Nat) (news : News) :
    (s.tell time news).Orderly place now := by
  unfold Service.tell
  split
  · exact ⟨h.running, h.registered, h.believed, h.enabled⟩
  · exact h

theorem adjustPartition (h : s.Orderly place now) (changed : Silo) (left : Bool) :
    (s.adjustPartition now changed left).Orderly place now where
  running := h.running
  registered := h.registered.of_within (s.within_adjustPartition now changed left)
  believed := h.believed
  enabled := h.enabled

/-- A service that has dropped what it believed of its own grains is coherent. -/
theorem adjustCache (h : s.Orderly place now) (changed : Silo) (left : Bool) :
    (s.adjustCache now changed left).Coherent place now := by
  have hkind : (s.adjustCache now changed left).cache.outline.kind = s.cache.outline.kind :=
    congrArg Cache.kind (Cache.outline_evict s.cache now _)
  have hseen {id : GrainId} {e : CacheEntry}
      (he : (s.adjustCache now changed left).cache.find? now id = some e) :
      s.cache.find? now id = some e ∧ ¬ s.Owns e.address.grain := by
    have hevict : (s.cache.evict now fun e =>
        s.Owns e.address.grain ∨ Stale changed left e.address.silo).2.find? now id = some e := he
    rw [Cache.find?_evict, Option.filter_eq_some_iff] at hevict
    obtain ⟨hold, htest⟩ := hevict
    exact ⟨hold, fun howns => by simp [howns] at htest⟩
  exact ⟨⟨h.running, h.registered, fun he => h.believed (hseen he).1,
    fun he => hkind.trans (h.enabled (hseen he).1)⟩, fun he howns => absurd howns (hseen he).2⟩

end Orderly

namespace Coherent

theorem addSilo (h : s.Coherent place now) (silo : Silo) :
    (s.addSilo now silo).2.Coherent place now := by
  unfold Service.addSilo
  split
  · exact h
  · rename_i ring _
    have hring : ({ s with ring := ring } : Service).Orderly place now :=
      ⟨h.running, h.registered, h.believed, h.enabled⟩
    exact (((hring.tell now _).adjustPartition silo false).adjustCache silo false).count _ _

theorem removeSilo (h : s.Coherent place now) (silo : Silo) (status : SiloStatus) :
    (s.removeSilo now silo status).2.Coherent place now := by
  unfold Service.removeSilo
  dsimp only
  split
  · unfold Service.tell
    split
    · exact h.of_stores rfl rfl rfl
    · exact h
  · rename_i ring _
    have htold := h.toOrderly.tell now
      (.leaving silo status s.ring (s.catalog s.ring silo status))
    have hring : ({ s.tell now (.leaving silo status s.ring (s.catalog s.ring silo status)) with
        ring := ring } : Service).Orderly place now :=
      ⟨htold.running, htold.registered, htold.believed, htold.enabled⟩
    exact ((hring.adjustPartition silo true).adjustCache silo true).count _ _

theorem follow (h : s.Coherent place now) (e : StatusEvent) :
    (s.follow now e).Coherent place now := by
  unfold Service.follow
  split
  · exact h
  · split
    · exact h.removeSilo _ _
    · split
      · exact h.addSilo _
      · exact h

theorem addAll (h : s.Coherent place now) (silos : List Silo) :
    (silos.foldl (fun s silo => (s.addSilo now silo).2) s).Coherent place now := by
  induction silos generalizing s with
  | nil => exact h
  | cons silo rest ih => exact ih (h.addSilo silo)

/-- A service that has been running may be started again. -/
theorem start (h : s.Coherent place m.now) : (s.start m).1.Coherent place m.now := by
  unfold Service.start
  split
  · exact h
  · have hresolver : ({ s.resolver with running := true } : Resolver) = s.resolver := by
      rw [← show s.resolver.running = true from h.running]
    have hrun : ({ s with running := true, subscription := some m.oracle.subscribe.1 } :
        Service).Coherent place m.now := h.of_stores hresolver rfl rfl
    exact hrun.addAll _

end Coherent

/-- A service is built with empty stores, and follows nothing yet. -/
theorem empty_of_build {b : Blueprint} {built : Nat} (h : b.build built = .ok s) :
    s.partition.entries = .empty ∧ s.cache.entries = .empty ∧ s.subscription = none := by
  unfold Blueprint.build at h
  split at h
  · cases h
  · split at h
    · cases h
    · split at h
      · cases h
      · rw [← Except.ok.inj h]
        exact ⟨rfl, rfl, rfl⟩

theorem placed_of_build {b : Blueprint} {built : Nat} (h : b.build built = .ok s) :
    s.partition.Placed place := by
  intro id r hr
  rw [Partition.registration?, (empty_of_build h).1] at hr
  cases hr

/-- A service that is started as it was built is coherent. -/
theorem coherent_start_of_build {b : Blueprint} {built : Nat} (h : b.build built = .ok s) :
    (s.start m).1.Coherent place m.now := by
  obtain ⟨-, hcache, hsubscription⟩ := empty_of_build h
  have hunseen {id : GrainId} {e : CacheEntry} : ¬ s.cache.find? m.now id = some e := by
    intro he
    rw [Cache.find?, hcache] at he
    cases he
  have hplaced : s.partition.Placed place := placed_of_build h
  have hrun : ({ s with running := true, subscription := some m.oracle.subscribe.1 } :
      Service).Coherent place m.now :=
    ⟨⟨rfl, hplaced, fun he => absurd he hunseen, fun he => absurd he hunseen⟩,
      fun he => absurd he hunseen⟩
  rw [Service.start, hsubscription]
  exact hrun.addAll _

end Service

end GrainDirectory

import GrainDirectory.Proofs.Coherence
import GrainDirectory.Proofs.Membership.Noninterference
set_option autoImplicit false

/-!
# What services store

A service stores registrations in its partition and entries in its cache.  An entry past its time to live
is no longer seen but is stored until the cache is swept, so what is said here of all stored entries
holds of those that are seen at any time.

`Service.Fades` says that nothing has been stored that was not stored before, and all that services do is
of this kind but for four steps: to serve or to learn from a registration, to learn from a lookup, and to
remember what a client suggests.
-/

namespace GrainDirectory

/-! ## Caches -/

namespace Cache

/-- Whether everything stored in one cache is stored in another. -/
def Within (c c' : Cache) : Prop :=
  ∀ id e, c.entries.find? id = some e → c'.entries.find? id = some e

variable {c c' : Cache} {id : GrainId} {e : CacheEntry}

theorem Within.refl (c : Cache) : c.Within c := fun _ _ h => h

theorem Within.of_entries (h : c.entries = c'.entries) : c.Within c' := by
  intro id e he
  rw [← h]
  exact he

theorem Within.trans {c'' : Cache} (h : c.Within c') (h' : c'.Within c'') : c.Within c'' :=
  fun id e he => h' id e (h id e he)

theorem within_of_filter {test : CacheEntry → Bool} (h : c'.entries = c.entries.filter test) :
    c'.Within c := by
  intro id e he
  rw [h, Table.find?_filter, Option.filter_eq_some_iff] at he
  exact he.1

variable (c) (now : Nat)

theorem within_noteRead : (c.noteRead now).Within c := by
  unfold noteRead
  split
  · exact .refl c
  · dsimp only
    split
    · exact within_of_filter rfl
    · exact .of_entries rfl

theorem within_noteWrite (storing : Option GrainId) : (c.noteWrite now storing).Within c := by
  unfold noteWrite
  split
  · exact .refl c
  · dsimp only
    split
    · exact within_of_filter rfl
    · exact .of_entries rfl

theorem within_remove (g : GrainId) : (c.remove now g).Within c := by
  have hrest : ({ c with entries := c.entries.erase g } : Cache).Within c := within_of_filter rfl
  unfold remove
  dsimp only
  split
  · exact (within_noteWrite _ now none).trans hrest
  · exact hrest

/-- A removal leaves nothing stored, seen or not. -/
theorem stored_remove (g : GrainId) : (c.remove now g).entries.find? g = none := by
  have herased : (c.entries.erase g).find? g = none := by rw [Table.find?_erase, if_pos rfl]
  unfold remove
  dsimp only
  split
  · rw [Option.eq_none_iff_forall_ne_some]
    intro e he
    have hstored := within_noteWrite { c with entries := c.entries.erase g } now none g e he
    cases herased.symm.trans hstored
  · exact herased

theorem within_removeAddress (address : GrainAddress) : (c.removeAddress now address).Within c := by
  unfold removeAddress
  split
  · exact (within_remove _ now _).trans (c.within_noteRead now)
  · exact c.within_noteRead now

theorem within_evict (test : CacheEntry → Bool) : (c.evict now test).2.Within c := by
  have heach (grains : List GrainId) : (c.removeEach now grains).2.Within c := by
    induction grains generalizing c with
    | nil => exact .refl c
    | cons g rest ih => exact (ih (c.remove now g)).trans (within_remove c now g)
  exact heach _

theorem within_clear : (c.clear now).Within c := fun _ _ h => nomatch h

variable {c now}

/-- What is stored after an address has been stored was stored before, or it is the address. -/
theorem stored_add {address : GrainAddress} {tag : Int32}
    (h : (c.add now address tag).entries.find? id = some e) :
    e = ⟨address, tag, now⟩ ∨ c.entries.find? id = some e := by
  unfold add at h
  split at h
  · have hput := within_noteWrite _ now (some address.grain.id) id e h
    rw [Table.find?_put] at hput
    split at hput
    · exact .inl (Option.some.inj hput).symm
    · exact .inr hput
  · exact .inr h

end Cache

/-! ## Services -/

/-- Whether an action asks where a grain is, and not for a removal. -/
def Action.Seeks : Action → Prop
  | .register .. => True
  | .lookup _ => True
  | _ => False

instance (action : Action) : Decidable action.Seeks := by
  cases action <;> unfold Action.Seeks <;> infer_instance

namespace Service

/-- Whether a service has come to store nothing that it did not store before. -/
structure Fades (s t : Service) : Prop where
  partition : t.partition.Within s.partition
  cache : t.cache.Within s.cache

variable {s t u : Service} {m : Moment} {now : Nat}

theorem Fades.refl (s : Service) : s.Fades s := ⟨.refl _, .refl _⟩

theorem Fades.trans (h : s.Fades t) (h' : t.Fades u) : s.Fades u :=
  ⟨h'.partition.trans h.partition, h'.cache.trans h.cache⟩

theorem Fades.of_stores (hpartition : t.partition = s.partition) (hcache : t.cache = s.cache) :
    s.Fades t := ⟨.of_eq hpartition, .of_entries (congrArg Cache.entries hcache)⟩

theorem Fades.of_empty (hpartition : t.partition.entries = .empty) (hcache : t.cache.entries = .empty) :
    s.Fades t := by
  refine ⟨fun id r hr => ?_, fun id e he => ?_⟩
  · rw [Partition.registration?, hpartition] at hr
    cases hr
  · rw [hcache] at he
    cases he

/-! ### The steps of calls -/

section Steps

variable (s m)

theorem fades_accept (action : Action) (hop : UInt32) : s.Fades (s.accept m action hop) := by
  refine ⟨.of_eq (s.partition_accept m action hop), ?_⟩
  unfold accept
  split
  · dsimp only
    split
    · exact Cache.within_remove _ _ _
    · exact .refl _
  · exact .refl _

theorem fades_serve {action : Action} (h : ∀ address previous, action ≠ .register address previous) :
    s.Fades (s.serve m action).2 := by
  cases action with
  | register address previous => exact absurd rfl (h address previous)
  | unregister address cause =>
    refine ⟨s.partition.within_removeActivation m.now address cause, ?_⟩
    unfold serve
    dsimp only
    split
    · exact Cache.within_removeAddress _ _ _
    · exact .refl _
  | lookup grain =>
    refine .of_stores (s.partition_serve m (.lookup grain)) ?_
    unfold serve
    dsimp only
    split <;> rfl
  | delete grain =>
    exact ⟨s.partition.within_removeGrain grain, Cache.within_remove _ _ _⟩

theorem fades_dispatched (action : Action) : s.Fades (s.dispatched m action) := by
  refine ⟨.of_eq (s.partition_dispatched m action), ?_⟩
  unfold dispatched
  dsimp only
  split
  · exact Cache.within_remove _ _ _
  · exact .refl _

theorem fades_dispatch {action : Action} {owner : Silo} (h : s.dispatch m action owner = .ok t) :
    s.Fades t := by
  unfold dispatch at h
  split at h
  · split at h
    · rw [← Except.ok.inj h]
      exact .of_stores rfl rfl
    · cases h
  · rw [← Except.ok.inj h]
    exact ⟨.refl _, Cache.within_remove _ _ _⟩
  · rw [← Except.ok.inj h]
    exact .of_stores rfl rfl

/-- Only the reply to a question teaches a service anything. -/
theorem learn_of_not_seeks {action : Action} (h : ¬ action.Seeks) (reply : Reply) :
    s.learn m action reply = s := by
  cases action with
  | register => exact absurd trivial h
  | lookup => exact absurd trivial h
  | _ => rfl

/-- What a service learns from the reply to a question is what the reply tells, if it learns anything. -/
theorem stored_learn {action : Action} {reply : Reply} {id : GrainId} {e : CacheEntry}
    (h : (s.learn m action reply).cache.entries.find? id = some e) :
    s.cache.entries.find? id = some e ∨ ∃ answer found, reply = .ok (.located answer) ∧
      answer.address = some found ∧ found.Same e.address ∧ answer.tag = e.tag := by
  unfold learn at h
  split at h
  · rename_i address previous answer
    split at h
    · rename_i htrusted
      obtain ⟨⟨found, hfound, hsame⟩, -⟩ := htrusted
      rcases Cache.stored_add h with rfl | hold
      · exact .inr ⟨answer, found, rfl, hfound, hsame, rfl⟩
      · exact .inl hold
    · exact .inl h
  · rename_i grain answer
    split at h
    · rename_i found hfound
      split at h
      · rcases Cache.stored_add h with rfl | hold
        · exact .inr ⟨answer, found, rfl, hfound, .refl found, rfl⟩
        · exact .inl hold
      · exact .inl h
    · exact .inl h
  · exact .inl h

theorem fades_removeHere (cause : RemovalCause) (address : GrainAddress) :
    s.Fades (s.removeHere m cause address) := by
  refine ⟨s.partition.within_removeActivation m.now address cause, ?_⟩
  unfold removeHere
  dsimp only
  split
  · exact Cache.within_removeAddress _ _ _
  · exact .refl _

theorem fades_removeAllHere (cause : RemovalCause) (addresses : List GrainAddress) :
    s.Fades (s.removeAllHere m cause addresses) := by
  unfold removeAllHere
  induction addresses generalizing s with
  | nil => exact .refl s
  | cons a rest ih => exact (s.fades_removeHere m cause a).trans (ih _)

end Steps

/-! ### What clients ask of the cache -/

section Clients

variable (s m)

theorem fades_cachedAddress (g : Grain) : s.Fades (s.cachedAddress m g).2 :=
  ⟨.refl _, s.cache.within_noteRead m.now⟩

theorem fades_localLookup (g : Grain) : s.Fades (s.localLookup m g).2 := by
  rcases s.service_localLookup m g with hsame | ⟨metrics, hsame⟩ <;> rw [hsame]
  · exact .refl s
  · exact ⟨.refl _, s.cache.within_noteRead m.now⟩

theorem fades_forget (g : Grain) : s.Fades (s.forget m g).2 :=
  ⟨.refl _, s.cache.within_remove m.now g.id⟩

theorem fades_forgetAddress (address : GrainAddress) : s.Fades (s.forgetAddress m address).2 :=
  ⟨.refl _, s.cache.within_removeAddress m.now address⟩

/-- What the cache says of a grain is stored for it. -/
theorem stored_of_trusted {g : Grain} {e : CacheEntry} (h : s.trustedEntry? m g = some e) :
    s.cache.entries.find? g.id = some e :=
  (Cache.find?_eq_some_iff.mp (Option.filter_eq_some_iff.mp h).1).1

/-- What is answered without the owner comes out of the cache, and is tagged as cached, or out of the own
partition. -/
theorem localLookup_sources {g : Grain} {t : TaggedAddress}
    (h : (s.localLookup m g).1 = .ok (some t)) :
    (∃ e, s.trustedEntry? m g = some e ∧ t = .found e.address TaggedAddress.cachedTag) ∨
      (s.Owns g ∧ ∃ r, s.partition.registration? g.id = some r ∧ t = r.answer) := by
  unfold localLookup cachedAddress at h
  split at h
  · cases h
  · cases h
  · rename_i owner howner
    cases hentry : s.trustedEntry? m g with
    | some e =>
      rw [hentry] at h
      cases h
      exact .inl ⟨e, rfl, rfl⟩
    | none =>
      rw [hentry] at h
      dsimp only [Option.map_none, count] at h
      split at h
      · cases h
      · rename_i hown
        have howns : s.Owns g := by
          unfold Owns
          rw [howner]
          exact not_not.mp hown
        split at h
        · cases h
        · rename_i r hr
          cases h
          exact .inr ⟨howns, r, hr, rfl⟩

/-- To answer without the owner fails only if there is no telling who the owner is. -/
theorem owner?_of_localLookup_error {g : Grain} {e : Error} (h : (s.localLookup m g).1 = .error e) :
    s.owner? g = .error e := by
  unfold localLookup at h
  split at h
  · rename_i howner
    exact howner.trans (congrArg Except.error (Except.error.inj h))
  · cases h
  · split at h
    · cases h
    · split at h
      · cases h
      · dsimp only at h
        split at h <;> cases h

end Clients

/-! ### Following membership -/

section Membership

variable (s now)

theorem fades_tell (news : News) : s.Fades (s.tell now news) := by
  unfold tell
  split <;> exact .of_stores rfl rfl

theorem fades_adjust (changed : Silo) (left : Bool) :
    s.Fades ((s.adjustPartition now changed left).adjustCache now changed left) :=
  ⟨s.partition.within_evict now _, s.cache.within_evict now _⟩

theorem fades_addSilo (silo : Silo) : s.Fades (s.addSilo now silo).2 := by
  unfold addSilo
  split
  · exact .refl s
  · rename_i ring _
    have hringed : s.Fades { s with ring := ring } := .of_stores rfl rfl
    refine (hringed.trans (fades_tell _ now (.joined silo))).trans ?_
    exact (fades_adjust _ now silo false).trans (.of_stores rfl rfl)

theorem fades_removeSilo (silo : Silo) (status : SiloStatus) :
    s.Fades (s.removeSilo now silo status).2 := by
  have htold := s.fades_tell now (.leaving silo status s.ring (s.catalog s.ring silo status))
  unfold removeSilo
  dsimp only
  split
  · exact htold
  · rename_i ring _
    refine (htold.trans (u := { s.tell now _ with ring := ring }) (.of_stores rfl rfl)).trans ?_
    exact (fades_adjust _ now silo true).trans (.of_stores rfl rfl)

theorem fades_follow (e : StatusEvent) : s.Fades (s.follow now e) := by
  unfold follow
  split
  · exact .refl s
  · split
    · exact s.fades_removeSilo now _ _
    · split
      · exact s.fades_addSilo now _
      · exact .refl s

theorem fades_addAll (silos : List Silo) :
    s.Fades (silos.foldl (fun s silo => (s.addSilo now silo).2) s) := by
  induction silos generalizing s with
  | nil => exact .refl s
  | cons silo rest ih => exact (s.fades_addSilo now silo).trans (ih _)

variable (m)

theorem fades_start : s.Fades (s.start m).1 := by
  unfold start
  split
  · exact .refl s
  · refine Fades.trans ?_ (fades_addAll _ m.now _)
    exact .of_stores rfl rfl

theorem fades_stop : s.Fades (s.stop m).1 :=
  ⟨s.partition.within_clear, s.cache.within_clear m.now⟩

theorem fades_release (o : Oracle) : s.Fades (s.release o).1 := by
  unfold release
  split <;> exact .of_stores rfl rfl

end Membership

end Service

end GrainDirectory

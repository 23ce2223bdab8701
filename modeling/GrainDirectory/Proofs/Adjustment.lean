import GrainDirectory.Proofs.Coherence
import GrainDirectory.Proofs.Ring.Order
set_option autoImplicit false

/-!
# What a change of the ring drops

A service that puts a silo on its ring, or takes one off it, goes through its registrations and through
its cache, and drops what the change makes stale.  It looks for silos and drops by activations and by
grains; still it drops exactly what it was looking for (`Partition.evict_eq`, `Cache.evict_eq`), because
a grain has one registration and one entry.

`Service.Adjusts` says what a change has made of a service, and `Service.ring_changes_exactly` that
every change of the ring does that, or nothing at all.
-/

namespace GrainDirectory

/-! ## Caches that nothing fades from -/

namespace Cache

variable {c : Cache} (hlife : c.timeToLive = none) (now : Nat)

include hlife

theorem remove_of_lasting (g : GrainId) :
    c.remove now g = { c with entries := c.entries.erase g } := by
  have hrest : ({ c with entries := c.entries.erase g } : Cache).timeToLive = none := hlife
  unfold remove
  dsimp only
  split
  · exact noteWrite_of_timeToLive_eq_none hrest now none
  · rfl

theorem visible_of_lasting : c.visible now = c.entries.rows := by
  refine List.filter_eq_self.mpr fun e _ => decide_eq_true fun life hlife' => ?_
  cases hlife.symm.trans hlife'

/-- To remove what is stored for different grains, one after the other, takes exactly that. -/
theorem removeEach_of_stored {rows : List CacheEntry}
    (hdiffer : (rows.map CacheEntry.grainId).Nodup)
    (hrows : ∀ e ∈ rows, c.entries.find? e.grainId = some e) :
    c.removeEach now (rows.map CacheEntry.grainId) =
      (rows.length,
        { c with entries := c.entries.filter fun e => e.grainId ∉ rows.map CacheEntry.grainId }) := by
  induction rows generalizing c with
  | nil =>
    have hentries : c.entries.filter (fun e => e.grainId ∉ ([] : List GrainId)) = c.entries :=
      c.entries.filter_notMem_nil
    rw [List.map_nil, hentries]
    rfl
  | cons e rest ih =>
    obtain ⟨hnew, hrest⟩ := List.nodup_cons.mp hdiffer
    have hstored : c.stores e.grainId = true := by rw [stores, hrows e List.mem_cons_self]; rfl
    have hleft : ∀ e' ∈ rest, (c.entries.erase e.grainId).find? e'.grainId = some e' := by
      intro e' he'
      have hother : e'.grainId ≠ e.grainId := fun h => hnew (h ▸ List.mem_map_of_mem he')
      rw [Table.find?_erase, if_neg hother]
      exact hrows e' (List.mem_cons_of_mem e he')
    rw [List.map_cons, removeEach, remove_of_lasting hlife, hstored]
    dsimp only
    rw [ih (c := { c with entries := c.entries.erase e.grainId }) hlife hrest hleft,
      Table.filter_notMem_erase]
    rfl

/-- An eviction takes exactly the entries that pass the test. -/
theorem evict_eq (test : CacheEntry → Bool) :
    c.evict now test =
      ((c.entries.rows.filter test).length,
        { c with entries := c.entries.filter fun e => !test e }) := by
  have hdiffer : ((c.entries.rows.filter test).map CacheEntry.grainId).Nodup :=
    (c.entries.filter test).unique
  have hrows : ∀ e ∈ c.entries.rows.filter test, c.entries.find? e.grainId = some e := fun e he =>
    Table.find?_eq_some_iff.mpr ⟨(List.mem_filter.mp he).1, rfl⟩
  rw [evict, visible_of_lasting hlife, removeEach_of_stored hlife now hdiffer hrows,
    Table.filter_notMem_keys]

/-- An eviction counts what it takes. -/
theorem evicted_eq (test : CacheEntry → Bool) :
    (c.evict now test).1 = c.entries.size - (c.evict now test).2.entries.size := by
  rw [evict_eq hlife]
  exact (Nat.sub_eq_of_eq_add (c.entries.rows.length_eq_length_filter_add test)).symm

end Cache

namespace Service

/-! ## What a change makes of a service -/

/-- What a change of the ring has made of a service, apart from the ring: exactly the registrations on
silos that the change makes stale are gone, and exactly the cache entries on such silos and those of
grains that the service owns by its ring as it is now.  What is left is as it was, and what is gone is
counted. -/
structure Adjusts (changed : Silo) (left : Bool) (meter : Meter) (s t : Service) : Prop where
  partition : t.partition =
    { s.partition with
      entries := s.partition.entries.filter fun r => ¬ Stale changed left r.address.silo }
  cache : t.cache =
    { s.cache with
      entries := s.cache.entries.filter fun e =>
        ¬ (t.Owns e.address.grain ∨ Stale changed left e.address.silo) }
  /-- Beside what has been dropped, the change itself is counted, and nothing else. -/
  metrics : t.metrics =
    ((s.metrics.add .partitionEvictions (.ofNat (s.partition.size - t.partition.size))).add
      .cacheEvictions (.ofNat (s.cache.entries.size - t.cache.entries.size))).add meter 1
  /-- Nothing else has changed but the ring and what the collaborators have been told. -/
  frame : t =
    { s with
      ring := t.ring
      partition := t.partition
      cache := t.cache
      metrics := t.metrics
      notices := t.notices }

section Steps

variable {s t : Service} {changed : Silo} {left : Bool} {meter : Meter}

/-- Once a service has its new ring, it drops what the change makes stale. -/
theorem adjusts_adjusted (hlife : s.cache.timeToLive = none) (now : Nat) (changed : Silo) (left : Bool)
    (meter : Meter) :
    Adjusts changed left meter s
      (((s.adjustPartition now changed left).adjustCache now changed left).count meter 1) := by
  let p := s.partition.evict now fun a => Stale changed left a.silo
  let c := s.cache.evict now fun e => s.Owns e.address.grain ∨ Stale changed left e.address.silo
  have hadjusted : ((s.adjustPartition now changed left).adjustCache now changed left).count meter 1 =
      { s with
        partition := p.2
        cache := c.2
        metrics := ((s.metrics.add .partitionEvictions (.ofNat p.1)).add .cacheEvictions
          (.ofNat c.1)).add meter 1 } := rfl
  rw [hadjusted]
  have howns (g : Grain) (partition : Partition) (cache : Cache) (metrics : Metrics) :
      ({ s with partition := partition, cache := cache, metrics := metrics } : Service).Owns g ↔
        s.Owns g := owns_iff_of_resolver rfl g
  refine ⟨?_, ?_, ?_, rfl⟩
  · simp only [p, Partition.evict_eq, decide_not]
  · simp only [c, Cache.evict_eq hlife, howns, decide_not]
  · simp only [p, c, Partition.evicted_eq, Cache.evicted_eq hlife]

theorem tell_eq (s : Service) (now : Nat) (news : News) :
    s.tell now news = { s with notices := (s.tell now news).notices } := by
  unfold tell
  split <;> rfl

/-- The ring that the service had before and what its collaborators have been told do not matter. -/
theorem Adjusts.of_told {told : Service}
    (htold : told = { s with ring := told.ring, notices := told.notices })
    (h : Adjusts changed left meter told t) : Adjusts changed left meter s t := by
  have hpartition : told.partition = s.partition := by rw [htold]
  have hcache : told.cache = s.cache := by rw [htold]
  have hmetrics : told.metrics = s.metrics := by rw [htold]
  refine ⟨?_, ?_, ?_, ?_⟩
  · rw [h.partition, hpartition]
  · rw [h.cache, hcache]
  · rw [h.metrics, hmetrics, hpartition, hcache]
  · rw [h.frame, htold]

end Steps

/-! ## Changes of the ring -/

section Changes

variable {s : Service} (now : Nat) {silo : Silo} {ring : Ring}

theorem addSilo_of_contains (h : s.ring.contains silo = true) : s.addSilo now silo = (false, s) := by
  have hinsert : s.ring.insert? silo = none := if_pos h
  rw [addSilo, hinsert]

theorem adjusts_addSilo (hlife : s.cache.timeToLive = none)
    (h : s.ring.insert? silo = some ring) :
    (s.addSilo now silo).1 = true ∧ (s.addSilo now silo).2.ring = ring ∧
      Adjusts silo false .silosAdded s (s.addSilo now silo).2 := by
  have htold := tell_eq { s with ring := ring } now (.joined silo)
  rw [addSilo, h]
  dsimp only
  generalize ({ s with ring := ring } : Service).tell now (.joined silo) = told at htold ⊢
  have hlife' : told.cache.timeToLive = none := by rw [htold]; exact hlife
  have hring : told.ring = ring := congrArg Service.ring htold
  rw [← hring] at htold
  exact ⟨rfl, hring, (adjusts_adjusted hlife' now silo false .silosAdded).of_told htold⟩

theorem removeSilo_of_not_contains (h : s.ring.contains silo = false) (status : SiloStatus) :
    (s.removeSilo now silo status).1 = false ∧ (s.removeSilo now silo status).2 =
      { s with notices := (s.removeSilo now silo status).2.notices } := by
  have htold := s.tell_eq now (.leaving silo status s.ring (s.catalog s.ring silo status))
  unfold removeSilo
  dsimp only
  generalize s.tell now _ = told at htold ⊢
  have hring : told.ring = s.ring := by rw [htold]
  have herase : told.ring.erase? silo = none := by
    rw [hring]
    exact if_neg (Bool.eq_false_iff.mp h)
  rw [herase]
  exact ⟨rfl, htold⟩

theorem adjusts_removeSilo (hlife : s.cache.timeToLive = none)
    (h : s.ring.erase? silo = some ring) (status : SiloStatus) :
    (s.removeSilo now silo status).1 = true ∧ (s.removeSilo now silo status).2.ring = ring ∧
      Adjusts silo true .silosRemoved s (s.removeSilo now silo status).2 := by
  have htold := s.tell_eq now (.leaving silo status s.ring (s.catalog s.ring silo status))
  unfold removeSilo
  dsimp only
  generalize s.tell now _ = told at htold ⊢
  have hring : told.ring = s.ring := by rw [htold]
  have hlife' : ({ told with ring := ring } : Service).cache.timeToLive = none := by
    show told.cache.timeToLive = none
    rw [htold]
    exact hlife
  have hringed : ({ told with ring := ring } : Service) =
      { s with ring := ring, notices := told.notices } := by rw [htold]
  rw [hring, h]
  exact ⟨rfl, rfl, (adjusts_adjusted hlife' now silo true .silosRemoved).of_told hringed⟩

end Changes

/-- What becomes of a service that is to put a silo on its ring, or to take it off. -/
structure ChangesExactly (s : Service) (now : Nat) (silo : Silo) (status : SiloStatus) : Prop where
  /-- A silo is added unless it is on the ring. -/
  adds : (s.addSilo now silo).1 = !s.ring.contains silo
  /-- It is put between the silos of the ring, and at its place if they are in order. -/
  added : (s.addSilo now silo).1 = true →
    (∃ before after, s.ring.silos = before ++ after ∧
      (s.addSilo now silo).2.ring.silos = before ++ silo :: after) ∧
    (s.ring.Ordered → (s.addSilo now silo).2.ring.Ordered) ∧
    Adjusts silo false .silosAdded s (s.addSilo now silo).2
  notAdded : (s.addSilo now silo).1 = false → (s.addSilo now silo).2 = s
  /-- A silo is removed if it is on the ring, whatever the catalog answers. -/
  removes : (s.removeSilo now silo status).1 = s.ring.contains silo
  removed : (s.removeSilo now silo status).1 = true →
    (s.removeSilo now silo status).2.ring.silos = s.ring.silos.filter (fun m => m.id ≠ silo.id) ∧
    Adjusts silo true .silosRemoved s (s.removeSilo now silo status).2
  /-- The collaborators have been told all the same. -/
  notRemoved : (s.removeSilo now silo status).1 = false →
    (s.removeSilo now silo status).2 =
      { s with notices := (s.removeSilo now silo status).2.notices }

/-- A change of the ring drops exactly what it makes stale, and counts exactly what it drops; a change
that is refused leaves ring, partition, cache and counts as they are. -/
theorem ring_changes_exactly (s : Service) (hlife : s.cache.timeToLive = none) (now : Nat) (silo : Silo)
    (status : SiloStatus) : ChangesExactly s now silo status := by
  cases hon : s.ring.contains silo with
  | true =>
    have hadd := addSilo_of_contains now hon
    have herase : s.ring.erase? silo = some ⟨s.ring.silos.filter fun m => m.id ≠ silo.id⟩ :=
      Ring.erase?_eq_some_iff.mpr ⟨hon, rfl⟩
    obtain ⟨hremoves, hring, hadjusts⟩ := adjusts_removeSilo now hlife herase status
    refine ⟨?_, fun h => ?_, fun _ => ?_, hremoves.trans hon.symm,
      fun _ => ⟨congrArg Ring.silos hring, hadjusts⟩, fun h => ?_⟩
    · rw [hadd, hon]; rfl
    · rw [hadd] at h; cases h
    · rw [hadd]
    · cases hremoves.symm.trans h
  | false =>
    have hinsert : s.ring.insert? silo = some ⟨s.ring.silos.takeWhile (fun m => m.Before silo) ++
        silo :: s.ring.silos.dropWhile (fun m => m.Before silo)⟩ :=
      Ring.insert?_eq_some_iff.mpr ⟨hon, rfl⟩
    obtain ⟨hadds, hring, hadjusts⟩ := adjusts_addSilo now hlife hinsert
    obtain ⟨hremoves, hkept⟩ := removeSilo_of_not_contains now hon status
    refine ⟨?_, fun _ => ⟨⟨_, _, List.takeWhile_append_dropWhile.symm, congrArg Ring.silos hring⟩,
      fun hordered => ?_, hadjusts⟩, fun h => ?_, hremoves.trans hon.symm, fun h => ?_, fun _ => hkept⟩
    · rw [hadds, hon]; rfl
    · rw [hring]
      exact hordered.insert? hinsert
    · cases hadds.symm.trans h
    · cases hremoves.symm.trans h

/-- The first incarnation of a silo. -/
def firstIncarnation : Silo := ⟨⟨.v4 1 2, 1⟩, 50⟩

/-- The second incarnation of the same silo, at another place. -/
def secondIncarnation : Silo := ⟨⟨.v4 1 2, 2⟩, 90⟩

/-- A service on a ring with the first incarnation and a third silo.  It has a registration on itself and one
on the first incarnation; of three grains of others it believes two on the third silo, one of which it owns in
truth, and one on the first incarnation. -/
def mixedStores : Service :=
  let home : Silo := ⟨⟨.v4 1 1, 1⟩, 10⟩
  let third : Silo := ⟨⟨.v4 1 3, 1⟩, 100⟩
  let place (key : String) (hash : UInt32) (n : BitVec 128) (silo : Silo) : GrainAddress :=
    ⟨⟨⟨⟨"user"⟩, key⟩, hash⟩, ⟨n⟩, silo⟩
  { label := "a"
    home := home
    config := {}
    ring := Ring.ofList [home, firstIncarnation, third]
    running := true
    partition :=
      { entries := (Table.empty.put ⟨place "a" 1 1 home, 1, 0⟩).put ⟨place "b" 2 2 firstIncarnation, 2, 0⟩
        nextTag := 3
        lazyDelay := 0 }
    cache :=
      { entries := ((Table.empty.put ⟨place "c" 40 3 third, 7, 1⟩).put
          ⟨place "d" 41 4 firstIncarnation, 8, 2⟩).put ⟨place "e" 120 5 third, 9, 3⟩ } }

theorem ring_changes_exactly_mixedStores :
    mixedStores.cache.timeToLive = none ∧
      ChangesExactly mixedStores 5 secondIncarnation .dead ∧
      ChangesExactly mixedStores 5 firstIncarnation .dead ∧
      (mixedStores.addSilo 5 secondIncarnation).1 = true ∧
      (mixedStores.addSilo 5 secondIncarnation).2.partition.size = 1 ∧
      (mixedStores.addSilo 5 secondIncarnation).2.cache.entries.size = 1 ∧
      (mixedStores.removeSilo 5 firstIncarnation .dead).1 = true ∧
      (mixedStores.removeSilo 5 firstIncarnation .dead).2.metrics.cacheEvictions = 2 :=
  ⟨rfl, mixedStores.ring_changes_exactly rfl 5 secondIncarnation .dead,
    mixedStores.ring_changes_exactly rfl 5 firstIncarnation .dead, by decide, by decide, by decide, by decide,
    by decide⟩

end Service

end GrainDirectory

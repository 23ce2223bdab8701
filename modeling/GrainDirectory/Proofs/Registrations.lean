import Mathlib.Data.List.Basic
import GrainDirectory.Partition
set_option autoImplicit false

/-!
# What the operations of a partition do to registrations

A registration is changed by insertions and removals for its own grain alone.  Removals take a
registration or leave it, so it does not matter in which order several of them come.
-/

namespace GrainDirectory

namespace Partition

variable (p : Partition) (o : Oracle) (now : Nat)

/-! ## Insertions -/

/-- Whether registering an address inserts it. -/
def Inserts (address : GrainAddress) (previous : Option GrainAddress) : Prop :=
  ∀ r, p.registration? address.grain.id = some r →
    ¬ r.address.Matches address ∧ p.Replaceable o r.address previous

instance (address : GrainAddress) (previous : Option GrainAddress) :
    Decidable (p.Inserts o address previous) :=
  match h : p.registration? address.grain.id with
  | none => .isTrue fun _ hr => nomatch h.symm.trans hr
  | some r =>
    if hr : ¬ r.address.Matches address ∧ p.Replaceable o r.address previous then
      .isTrue fun _ hr' => Option.some.inj (h.symm.trans hr') ▸ hr
    else .isFalse fun hall => hr (hall r h)

theorem inserts_iff {address : GrainAddress} {previous : Option GrainAddress} {r : Registration}
    (hr : p.registration? address.grain.id = some r) :
    p.Inserts o address previous ↔
      ¬ r.address.Matches address ∧ p.Replaceable o r.address previous := by
  constructor
  · exact fun h => h r hr
  · intro h r' hr'
    cases hr.symm.trans hr'
    exact h

theorem add_of_inserts {address : GrainAddress} {previous : Option GrainAddress}
    (h : p.Inserts o address previous) :
    p.add o now address previous = p.insert now address := by
  unfold add
  cases hr : p.registration? address.grain.id with
  | none => rfl
  | some r =>
    obtain ⟨hmatch, hreplace⟩ := h r hr
    dsimp only
    rw [if_neg hmatch, if_pos hreplace]

/-- Who does not insert is answered what is registered. -/
theorem add_of_not_inserts {address : GrainAddress} {previous : Option GrainAddress}
    (h : ¬ p.Inserts o address previous) :
    p.add o now address previous = (p.lookup address.grain, p) := by
  unfold add lookup
  cases hr : p.registration? address.grain.id with
  | none => exact absurd (fun r hr' => nomatch hr.symm.trans hr') h
  | some r =>
    dsimp only
    split
    · rfl
    · rename_i hmatch
      split
      · rename_i hreplace
        refine absurd (fun r' hr' => ?_) h
        rw [← Option.some.inj (hr.symm.trans hr')]
        exact ⟨hmatch, hreplace⟩
      · rfl

theorem registration?_insert (address : GrainAddress) (id : GrainId) :
    (p.insert now address).2.registration? id =
      if id = address.grain.id then some ⟨address, p.nextTag, now⟩ else p.registration? id :=
  Table.find?_put _ _ _

theorem registration?_grainId {p : Partition} {id : GrainId} {r : Registration}
    (h : p.registration? id = some r) : r.grainId = id :=
  Table.key_of_find? h

/-- Whoever registers is answered what is registered from then on. -/
theorem exists_registration_add (address : GrainAddress) (previous : Option GrainAddress) :
    ∃ r, (p.add o now address previous).2.registration? address.grain.id = some r ∧
      (p.add o now address previous).1 = r.answer := by
  by_cases h : p.Inserts o address previous
  · rw [p.add_of_inserts o now h, registration?_insert, if_pos rfl]
    exact ⟨_, rfl, rfl⟩
  · rw [p.add_of_not_inserts o now h]
    cases hr : p.registration? address.grain.id with
    | none => exact absurd (fun r hr' => nomatch hr.symm.trans hr') h
    | some r => exact ⟨r, rfl, by rw [lookup, hr]⟩

/-- What is answered to a registration is what is found from then on. -/
theorem lookup_add (address : GrainAddress) (previous : Option GrainAddress) :
    (p.add o now address previous).2.lookup address.grain = (p.add o now address previous).1 := by
  obtain ⟨r, hr, hanswer⟩ := p.exists_registration_add o now address previous
  rw [lookup, hr, hanswer]

/-- What is registered after a registration was before, or it is the address. -/
theorem registration?_add_cases {address : GrainAddress} {previous : Option GrainAddress}
    {id : GrainId} {r : Registration}
    (h : (p.add o now address previous).2.registration? id = some r) :
    p.registration? id = some r ∨ (id = address.grain.id ∧ r.address = address) := by
  by_cases hinserts : p.Inserts o address previous
  · rw [p.add_of_inserts o now hinserts, registration?_insert] at h
    split at h
    · rename_i hid
      rw [← Option.some.inj h]
      exact .inr ⟨hid, rfl⟩
    · exact .inl h
  · rw [p.add_of_not_inserts o now hinserts] at h
    exact .inl h

theorem registration?_add_of_ne {address : GrainAddress} (previous : Option GrainAddress)
    {id : GrainId} (h : id ≠ address.grain.id) :
    (p.add o now address previous).2.registration? id = p.registration? id := by
  by_cases hinserts : p.Inserts o address previous
  · rw [p.add_of_inserts o now hinserts, registration?_insert, if_neg h]
  · rw [p.add_of_not_inserts o now hinserts]

/-! ## Removals -/

/-- The registrations of a partition after some removals. -/
def removeAll (cause : RemovalCause) (addresses : List GrainAddress) : Partition :=
  addresses.foldl (fun p a => (p.removeActivation now a.grain a.activation cause).2) p

/-- Whether the removal of an activation takes a registration. -/
def Takes (cause : RemovalCause) (a : GrainAddress) (r : Registration) : Prop :=
  r.grainId = a.grain.id ∧ r.address.activation = a.activation ∧ p.Removable now r cause

instance (cause : RemovalCause) (a : GrainAddress) (r : Registration) :
    Decidable (p.Takes now cause a r) := inferInstanceAs (Decidable (_ ∧ _))

/-- A removal takes no registration of another grain. -/
theorem filter_takes_of_ne (cause : RemovalCause) {a : GrainAddress} {id : GrainId}
    (h : id ≠ a.grain.id) :
    (p.registration? id).filter (fun r => ¬ p.Takes now cause a r) = p.registration? id := by
  cases hr : p.registration? id with
  | none => rfl
  | some r =>
    have hkeep : ¬ p.Takes now cause a r := fun ht => h ((registration?_grainId hr).symm.trans ht.1)
    simp [Option.filter, hkeep]

theorem registration?_removeActivation (cause : RemovalCause) (a : GrainAddress) (id : GrainId) :
    (p.removeActivation now a.grain a.activation cause).2.registration? id =
      (p.registration? id).filter fun r => ¬ p.Takes now cause a r := by
  unfold removeActivation
  cases hr : p.registration? a.grain.id with
  | none =>
    dsimp only
    by_cases hid : id = a.grain.id
    · rw [hid, hr]
      rfl
    · exact (p.filter_takes_of_ne now cause hid).symm
  | some r =>
    dsimp only
    by_cases hid : id = a.grain.id
    · have hgrain : r.grainId = a.grain.id := registration?_grainId hr
      split
      · rename_i htake
        have htakes : p.Takes now cause a r := ⟨hgrain, htake⟩
        have herase : ({ p with entries := p.entries.erase a.grain.id } : Partition).registration? id =
            if id = a.grain.id then none else p.registration? id := Table.find?_erase _ _ _
        rw [herase, if_pos hid, hid, hr]
        simp [Option.filter, htakes]
      · rename_i hkeep
        have hkeep' : ¬ p.Takes now cause a r := fun ht => hkeep ht.2
        rw [hid, hr]
        simp [Option.filter, hkeep']
    · rw [p.filter_takes_of_ne now cause hid]
      split
      · have herase : ({ p with entries := p.entries.erase a.grain.id } : Partition).registration? id =
            if id = a.grain.id then none else p.registration? id := Table.find?_erase _ _ _
        rw [herase, if_neg hid]
      · rfl

theorem registration?_removeActivation_of_ne (cause : RemovalCause) {a : GrainAddress} {id : GrainId}
    (h : id ≠ a.grain.id) :
    (p.removeActivation now a.grain a.activation cause).2.registration? id = p.registration? id :=
  (p.registration?_removeActivation now cause a id).trans (p.filter_takes_of_ne now cause h)

/-- What no removal changes. -/
theorem settings_removeActivation (g : Grain) (activation : ActivationId) (cause : RemovalCause) :
    (p.removeActivation now g activation cause).2.nextTag = p.nextTag ∧
      (p.removeActivation now g activation cause).2.lazyDelay = p.lazyDelay ∧
      (p.removeActivation now g activation cause).2.watchful = p.watchful := by
  unfold removeActivation
  split
  · exact ⟨rfl, rfl, rfl⟩
  · split <;> exact ⟨rfl, rfl, rfl⟩

theorem takes_congr {p p' : Partition} (h : p'.lazyDelay = p.lazyDelay) (cause : RemovalCause)
    (a : GrainAddress) (r : Registration) : p'.Takes now cause a r ↔ p.Takes now cause a r := by
  have hremovable : p'.Removable now r cause ↔ p.Removable now r cause := by
    cases cause with
    | force => exact Iff.rfl
    | nonexistentActivation => simp only [Removable, h]
  simp only [Takes, hremovable]

theorem settings_removeAll (cause : RemovalCause) (addresses : List GrainAddress) :
    (p.removeAll now cause addresses).nextTag = p.nextTag ∧
      (p.removeAll now cause addresses).lazyDelay = p.lazyDelay ∧
      (p.removeAll now cause addresses).watchful = p.watchful := by
  unfold removeAll
  induction addresses generalizing p with
  | nil => exact ⟨rfl, rfl, rfl⟩
  | cons a rest ih =>
    obtain ⟨htag, hdelay, hwatch⟩ := p.settings_removeActivation now a.grain a.activation cause
    obtain ⟨htag', hdelay', hwatch'⟩ := ih (p.removeActivation now a.grain a.activation cause).2
    rw [List.foldl_cons]
    exact ⟨htag'.trans htag, hdelay'.trans hdelay, hwatch'.trans hwatch⟩

/-- A registration outlasts some removals exactly if none of them takes it. -/
theorem registration?_removeAll (cause : RemovalCause) (addresses : List GrainAddress)
    (id : GrainId) :
    (p.removeAll now cause addresses).registration? id =
      (p.registration? id).filter fun r => ∀ a ∈ addresses, ¬ p.Takes now cause a r := by
  unfold removeAll
  induction addresses generalizing p with
  | nil => cases h : p.registration? id <;> simp [Option.filter, h]
  | cons a rest ih =>
    have hdelay := (p.settings_removeActivation now a.grain a.activation cause).2.1
    rw [List.foldl_cons, ih, registration?_removeActivation]
    cases p.registration? id with
    | none => rfl
    | some r =>
      by_cases hr : p.Takes now cause a r
      · simp [Option.filter, hr]
      · simp [Option.filter, hr, takes_congr now hdelay]

theorem registration?_removeGrain (g : Grain) (id : GrainId) :
    (p.removeGrain g).2.registration? id = if id = g.id then none else p.registration? id := by
  unfold removeGrain
  cases hr : p.registration? g.id with
  | none =>
    dsimp only
    by_cases hid : id = g.id
    · rw [if_pos hid, hid, hr]
    · rw [if_neg hid]
  | some r => exact Table.find?_erase _ _ _

theorem settings_removeGrain (g : Grain) :
    (p.removeGrain g).2.nextTag = p.nextTag ∧ (p.removeGrain g).2.lazyDelay = p.lazyDelay ∧
      (p.removeGrain g).2.watchful = p.watchful := by
  unfold removeGrain
  split <;> exact ⟨rfl, rfl, rfl⟩

/-! ## Evictions -/

/-- To remove registrations one after the other, each by its activation, takes exactly these. -/
theorem removeEach_of_registered {rows : List Registration}
    (hdiffer : (rows.map Registration.grainId).Nodup)
    (hrows : ∀ r ∈ rows, p.registration? r.grainId = some r) :
    p.removeEach now (rows.map (·.address)) =
      (rows.length,
        { p with
          entries := p.entries.filter fun r => r.grainId ∉ rows.map Registration.grainId }) := by
  induction rows generalizing p with
  | nil =>
    have hentries : p.entries.filter (fun r => r.grainId ∉ ([] : List GrainId)) = p.entries :=
      p.entries.filter_notMem_nil
    rw [List.map_nil, List.map_nil, hentries]
    rfl
  | cons r rest ih =>
    obtain ⟨hnew, hrest⟩ := List.nodup_cons.mp hdiffer
    have hr : p.registration? r.address.grain.id = some r := hrows r List.mem_cons_self
    have hremoved : p.removeActivation now r.address.grain r.address.activation .force =
        (true, { p with entries := p.entries.erase r.grainId }) := by
      rw [removeActivation, hr]
      exact if_pos ⟨rfl, trivial⟩
    have hleft : ∀ r' ∈ rest,
        ({ p with entries := p.entries.erase r.grainId } : Partition).registration? r'.grainId =
          some r' := by
      intro r' hr'
      have hother : r'.grainId ≠ r.grainId := fun h => hnew (h ▸ List.mem_map_of_mem hr')
      show (p.entries.erase r.grainId).find? r'.grainId = some r'
      rw [Table.find?_erase, if_neg hother]
      exact hrows r' (List.mem_cons_of_mem r hr')
    rw [List.map_cons, removeEach, hremoved]
    dsimp only
    rw [ih _ hrest hleft, Table.filter_notMem_erase]
    rfl

/-- An eviction takes exactly the registrations whose addresses pass the test. -/
theorem evict_eq (test : GrainAddress → Bool) :
    p.evict now test =
      ((p.entries.rows.filter fun r => test r.address).length,
        { p with entries := p.entries.filter fun r => !test r.address }) := by
  have hitems : p.items.filter test =
      (p.entries.rows.filter fun r => test r.address).map (·.address) := List.filter_map
  have hdiffer : ((p.entries.rows.filter fun r => test r.address).map Registration.grainId).Nodup :=
    (p.entries.filter fun r => test r.address).unique
  have hrows : ∀ r ∈ p.entries.rows.filter fun r => test r.address,
      p.registration? r.grainId = some r := fun r hr =>
    Table.find?_eq_some_iff.mpr ⟨(List.mem_filter.mp hr).1, rfl⟩
  rw [evict, hitems, p.removeEach_of_registered now hdiffer hrows, Table.filter_notMem_keys]

/-- An eviction counts what it takes. -/
theorem evicted_eq (test : GrainAddress → Bool) :
    (p.evict now test).1 = p.size - (p.evict now test).2.size := by
  rw [evict_eq]
  exact (Nat.sub_eq_of_eq_add
    (p.entries.rows.length_eq_length_filter_add fun r => test r.address)).symm

theorem registration?_evict (test : GrainAddress → Bool) (id : GrainId) :
    (p.evict now test).2.registration? id =
      (p.registration? id).filter fun r => !test r.address := by
  rw [evict_eq]
  exact Table.find?_filter _ _ _

end Partition

end GrainDirectory

import GrainDirectory.Proofs.PartitionHistory
set_option autoImplicit false

/-!
# The insertions of a history

Of all that a partition can be asked for, only an `add` can put a registration there, and it does so
only if it inserts (`Partition.Inserts`).  Everything else leaves registrations or takes them.  So a
history of uses is seen from its insertions: `Partition.inserted` lists them, and whatever is
registered after the history goes back to one of them.
-/

namespace GrainDirectory

/-- A partition as it starts: nothing is registered, and the first tag is next. -/
def Partition.fresh (lazyDelay : Nat) (watchful : Bool) : Partition := { lazyDelay, watchful }

/-- The insertion of an address at a time. -/
structure Insertion where
  address : GrainAddress
  time : Nat
  deriving DecidableEq

namespace Partition

variable {p : Partition} {u : Use} {e : Insertion}

/-- What a use inserts, if it inserts anything. -/
def insertion? (p : Partition) (u : Use) : Option Insertion :=
  match u.deed with
  | .add address previous =>
    if p.Inserts u.moment.oracle address previous then some ⟨address, u.moment.now⟩ else none
  | _ => none

/-! ## What a use does -/

theorem insertion?_eq_some_iff :
    p.insertion? u = some e ↔
      ∃ previous, u.deed = .add e.address previous ∧ u.moment.now = e.time ∧
        p.Inserts u.moment.oracle e.address previous := by
  obtain ⟨m, deed⟩ := u
  obtain ⟨address', time⟩ := e
  cases deed with
  | add address previous =>
    simp only [insertion?, Option.ite_none_right_eq_some, Option.some.injEq, Insertion.mk.injEq,
      Deed.add.injEq]
    constructor
    · rintro ⟨hinserts, rfl, rfl⟩
      exact ⟨previous, ⟨rfl, rfl⟩, rfl, hinserts⟩
    · rintro ⟨_, ⟨rfl, rfl⟩, rfl, hinserts⟩
      exact ⟨hinserts, rfl, rfl⟩
  | _ => simp [insertion?]

theorem insertion?_add (m : Moment) (address : GrainAddress) (previous : Option GrainAddress) :
    p.insertion? ⟨m, .add address previous⟩ =
      if p.Inserts m.oracle address previous then some ⟨address, m.now⟩ else none := rfl

/-- An address is inserted where its grain is not registered. -/
theorem insertion?_of_unregistered {m : Moment} {address : GrainAddress}
    {previous : Option GrainAddress} (hnone : p.registration? address.grain.id = none) :
    p.insertion? ⟨m, .add address previous⟩ = some ⟨address, m.now⟩ := by
  rw [insertion?_add, if_pos]
  intro r hr
  rw [hnone] at hr
  cases hr

/-- A use that inserts is answered the address under the next tag. -/
theorem perform_of_insertion (h : p.insertion? u = some e) :
    p.perform u =
      (.located (.found e.address p.nextTag), (p.insert e.time e.address).2) := by
  obtain ⟨m, deed⟩ := u
  obtain ⟨previous, hdeed, htime, hinserts⟩ := insertion?_eq_some_iff.mp h
  dsimp only at hdeed htime hinserts
  rw [hdeed, ← htime]
  simp only [perform, p.add_of_inserts m.oracle m.now hinserts, insert]

/-- An address that is not inserted is answered what is registered, and changes nothing. -/
theorem perform_add_of_no_insertion {m : Moment} {address : GrainAddress}
    {previous : Option GrainAddress} (h : p.insertion? ⟨m, .add address previous⟩ = none) :
    p.perform ⟨m, .add address previous⟩ = (.located (p.lookup address.grain), p) := by
  rw [insertion?_add, ite_eq_right_iff] at h
  have hinserts : ¬ p.Inserts m.oracle address previous := fun hi => nomatch h hi
  simp only [perform, p.add_of_not_inserts m.oracle m.now hinserts]

/-- A use that inserts nothing consumes no tag, and registers nothing. -/
theorem perform_of_no_insertion (h : p.insertion? u = none) :
    (p.perform u).2.nextTag = p.nextTag ∧
      ∀ id r, (p.perform u).2.registration? id = some r → p.registration? id = some r := by
  obtain ⟨m, deed⟩ := u
  cases deed with
  | add address previous =>
    rw [perform_add_of_no_insertion h]
    exact ⟨rfl, fun _ _ hr => hr⟩
  | removeActivation g activation cause =>
    let a : GrainAddress := ⟨g, activation, default⟩
    refine ⟨(p.settings_removeActivation m.now g activation cause).1, fun id r hr => ?_⟩
    have hleft : (p.removeActivation m.now a.grain a.activation cause).2.registration? id = some r :=
      hr
    rw [registration?_removeActivation] at hleft
    exact (Option.filter_eq_some_iff.mp hleft).1
  | removeGrain g =>
    refine ⟨(p.settings_removeGrain g).1, fun id r hr => ?_⟩
    have hleft : (p.removeGrain g).2.registration? id = some r := hr
    rw [registration?_removeGrain] at hleft
    exact (Option.ite_none_left_eq_some.mp hleft).2
  | lookup g => exact ⟨rfl, fun _ _ hr => hr⟩
  | items => exact ⟨rfl, fun _ _ hr => hr⟩
  | clear => exact ⟨rfl, fun _ _ hr => nomatch hr⟩

/-- What is registered after a use has been inserted by it, or was registered before. -/
theorem registration?_perform_cases {id : GrainId} {r : Registration}
    (h : (p.perform u).2.registration? id = some r) :
    p.insertion? u = some ⟨r.address, r.since⟩ ∧ r.tag = p.nextTag ∨
      p.registration? id = some r := by
  cases hinsertion : p.insertion? u with
  | none => exact .inr ((perform_of_no_insertion hinsertion).2 id r h)
  | some e =>
    rw [perform_of_insertion hinsertion, registration?_insert] at h
    split at h
    · cases Option.some.inj h
      exact .inl ⟨rfl, rfl⟩
    · exact .inr h

/-- What is answered is what is found from then on. -/
theorem exists_lookup_of_located {t : TaggedAddress} (h : (p.perform u).1 = .located t) :
    ∃ g, (p.perform u).2.lookup g = t := by
  obtain ⟨m, deed⟩ := u
  cases deed with
  | add address previous =>
    have hanswer := p.lookup_add m.oracle m.now address previous
    exact ⟨address.grain, hanswer.trans (Finding.located.inj h)⟩
  | lookup g => exact ⟨g, Finding.located.inj h⟩
  | _ => cases h

/-- Whatever address a partition shows is registered with the tag that is shown. -/
theorem registration?_of_located {a : GrainAddress} {tag : Int32}
    (h : (p.perform u).1 = .located (.found a tag)) :
    ∃ since, (p.perform u).2.registration? a.grain.id = some ⟨a, tag, since⟩ := by
  obtain ⟨g, hlookup⟩ := exists_lookup_of_located h
  unfold lookup at hlookup
  split at hlookup
  · rename_i r hr
    have hgrain : r.grainId = g.id := registration?_grainId hr
    cases hlookup
    exact ⟨r.since, (congrArg _ hgrain).trans hr⟩
  · cases hlookup

/-- An answer without address is the one that says so. -/
theorem eq_none_of_located {t : TaggedAddress} (h : (p.perform u).1 = .located t)
    (hnone : t.address = none) : t = .none := by
  obtain ⟨g, hlookup⟩ := exists_lookup_of_located h
  unfold lookup at hlookup
  split at hlookup
  · rw [← hlookup] at hnone
    cases hnone
  · exact hlookup.symm

/-! ## What a history inserts -/

/-- What some uses insert, oldest first. -/
def inserted (p : Partition) : List Use → List Insertion
  | [] => []
  | u :: rest => (p.insertion? u).toList ++ (p.perform u).2.inserted rest

theorem after_append (past future : List Use) :
    p.after (past ++ future) = (p.after past).after future :=
  List.foldl_append

theorem after_concat (past : List Use) (u : Use) :
    p.after (past ++ [u]) = ((p.after past).perform u).2 := by
  rw [after_append]
  rfl

theorem inserted_append (past future : List Use) :
    p.inserted (past ++ future) = p.inserted past ++ (p.after past).inserted future := by
  induction past generalizing p with
  | nil => rfl
  | cons u rest ih =>
    rw [List.cons_append, inserted, ih, inserted, List.append_assoc]
    rfl

theorem settings_after (uses : List Use) :
    (p.after uses).lazyDelay = p.lazyDelay ∧ (p.after uses).watchful = p.watchful := by
  induction uses generalizing p with
  | nil => exact ⟨rfl, rfl⟩
  | cons u rest ih =>
    obtain ⟨hdelay, hwatch⟩ := p.settings_perform u
    rw [after_cons, ih.1, ih.2]
    exact ⟨hdelay, hwatch⟩

/-- While nothing is inserted for a grain, what is registered for it was registered before. -/
theorem registration?_of_none_inserted {uses : List Use} {id : GrainId} {r : Registration}
    (hnone : ∀ e ∈ p.inserted uses, e.address.grain.id ≠ id)
    (hr : (p.after uses).registration? id = some r) : p.registration? id = some r := by
  induction uses generalizing p with
  | nil => exact hr
  | cons u rest ih =>
    rw [inserted, List.forall_mem_append] at hnone
    obtain ⟨hu, hrest⟩ := hnone
    have hnext : (p.perform u).2.registration? id = some r := ih hrest hr
    obtain ⟨hinsertion, -⟩ | hbefore := registration?_perform_cases hnext
    · refine absurd (registration?_grainId hnext) (hu ⟨r.address, r.since⟩ ?_)
      rw [hinsertion]
      exact List.mem_singleton_self _
    · exact hbefore

/-! ## Evictions -/

/-- The forced removals of some addresses, one after the other. -/
def removals (m : Moment) (addresses : List GrainAddress) : List Use :=
  addresses.map fun a => ⟨m, .removeActivation a.grain a.activation .force⟩

/-- An eviction is one removal for each of its addresses. -/
theorem evict_eq_after (p : Partition) (m : Moment) (test : GrainAddress → Bool) :
    (p.evict m.now test).2 = p.after (removals m (p.items.filter test)) := by
  have hremoveEach (addresses : List GrainAddress) (p : Partition) :
      (p.removeEach m.now addresses).2 = p.after (removals m addresses) := by
    induction addresses generalizing p with
    | nil => rfl
    | cons a rest ih => exact ih (p.removeActivation m.now a.grain a.activation .force).2
  exact hremoveEach _ p

end Partition

end GrainDirectory

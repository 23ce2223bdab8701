import GrainDirectory.Proofs.Registrations
import GrainDirectory.Service
set_option autoImplicit false

/-!
# The history of a partition

A partition is used by whoever reaches it, in any order, while time passes and silos come and go.  A
`Use` is one thing asked of it, with the moment at which it is asked; `Partition.after` is what a
sequence of uses makes of the partition.

The first activation registered for a grain holds it.  `Partition.Spares` says of a use that it is none
of those that take a registration, and `registration?_perform_iff` that these are all there are.  A
registration that every use spares is there after each of them, and whoever tries to register for its
grain is answered with it (`Partition.outlasts_of_spared`).
-/

namespace GrainDirectory

namespace Partition

/-- What a partition can be asked for. -/
inductive Deed where
  | add (address : GrainAddress) (previous : Option GrainAddress)
  | removeActivation (grain : Grain) (activation : ActivationId) (cause : RemovalCause)
  | removeGrain (grain : Grain)
  | lookup (grain : Grain)
  | items
  | clear
  deriving DecidableEq

/-- What a partition says to that. -/
inductive Finding where
  | located (answer : TaggedAddress)
  | removed (did : Bool)
  | listed (addresses : List GrainAddress)
  | cleared
  deriving DecidableEq

/-- Something asked of a partition, and the moment at which it is asked: what the oracle says then, and
the time. -/
structure Use where
  moment : Moment
  deed : Deed

/-- Asks a partition for something. -/
def perform (p : Partition) (u : Use) : Finding × Partition :=
  match u.deed with
  | .add address previous =>
    let (answer, p) := p.add u.moment.oracle u.moment.now address previous
    (.located answer, p)
  | .removeActivation g activation cause =>
    let (did, p) := p.removeActivation u.moment.now g activation cause
    (.removed did, p)
  | .removeGrain g =>
    let (did, p) := p.removeGrain g
    (.removed did, p)
  | .lookup g => (.located (p.lookup g), p)
  | .items => (.listed p.items, p)
  | .clear => (.cleared, p.clear)

/-- What some uses make of a partition. -/
def after (p : Partition) (uses : List Use) : Partition := uses.foldl (fun p u => (p.perform u).2) p

variable {p : Partition} {r : Registration} {u : Use} {uses : List Use}

theorem after_cons : p.after (u :: uses) = (p.perform u).2.after uses := rfl

/-! ## Settings -/

theorem settings_add (o : Oracle) (now : Nat) (address : GrainAddress)
    (previous : Option GrainAddress) :
    (p.add o now address previous).2.lazyDelay = p.lazyDelay ∧
      (p.add o now address previous).2.watchful = p.watchful := by
  by_cases h : p.Inserts o address previous
  · rw [p.add_of_inserts o now h]
    exact ⟨rfl, rfl⟩
  · rw [p.add_of_not_inserts o now h]
    exact ⟨rfl, rfl⟩

/-- No use changes how a partition is set up. -/
theorem settings_perform (p : Partition) (u : Use) :
    (p.perform u).2.lazyDelay = p.lazyDelay ∧ (p.perform u).2.watchful = p.watchful := by
  obtain ⟨m, deed⟩ := u
  cases deed with
  | add address previous => exact settings_add m.oracle m.now address previous
  | removeActivation g activation cause =>
    exact (p.settings_removeActivation m.now g activation cause).2
  | removeGrain g => exact (p.settings_removeGrain g).2
  | lookup g => exact ⟨rfl, rfl⟩
  | items => exact ⟨rfl, rfl⟩
  | clear => exact ⟨rfl, rfl⟩

/-! ## What a use takes -/

/-- Whether a use leaves a registration.  An address for its grain does, if it is the same activation,
or if it does not name the registration as the one before it while the registration's silo is not
known to be going away.  So does a removal that is for another activation, or for a cause that does
not let the registration go, and everything that is for another grain. -/
def Spares (p : Partition) (r : Registration) (u : Use) : Prop :=
  match u.deed with
  | .add address previous =>
    address.grain.id = r.grainId → r.address.Matches address ∨
      (∀ a ∈ previous, ¬ r.address.Matches a) ∧
        (p.watchful = true → (u.moment.oracle.status r.address.silo).isTerminating = false)
  | .removeActivation g activation cause =>
    g.id = r.grainId → r.address.activation = activation → ¬ p.Removable u.moment.now r cause
  | .removeGrain g => g.id ≠ r.grainId
  | .lookup _ => True
  | .items => True
  | .clear => False

instance (p : Partition) (r : Registration) (u : Use) : Decidable (p.Spares r u) := by
  unfold Spares
  split <;> infer_instance

/-- Whether a use spares a registration depends on nothing that uses change. -/
theorem spares_perform (v : Use) : (p.perform v).2.Spares r u ↔ p.Spares r u := by
  obtain ⟨hdelay, hwatch⟩ := p.settings_perform v
  obtain ⟨m, deed⟩ := u
  cases deed with
  | add address previous => simp only [Spares, hwatch]
  | removeActivation g activation cause => cases cause <;> simp only [Spares, Removable, hdelay]
  | removeGrain g => exact Iff.rfl
  | lookup g => exact Iff.rfl
  | items => exact Iff.rfl
  | clear => exact Iff.rfl

/-- An address is inserted in the place of a registration exactly if that is not spared. -/
theorem inserts_iff_not_spares {m : Moment} {address : GrainAddress}
    {previous : Option GrainAddress} (hr : p.registration? r.grainId = some r)
    (hgrain : address.grain.id = r.grainId) :
    p.Inserts m.oracle address previous ↔ ¬ p.Spares r ⟨m, .add address previous⟩ := by
  rw [p.inserts_iff m.oracle (hgrain ▸ hr)]
  simp only [Spares, hgrain, Replaceable, true_imp_iff, not_or, not_and_or, not_forall, not_not,
    Bool.not_eq_false, exists_prop]

/-- A registration is there after a use exactly if the use spares it. -/
theorem registration?_perform_iff (hr : p.registration? r.grainId = some r) (u : Use) :
    (p.perform u).2.registration? r.grainId = some r ↔ p.Spares r u := by
  obtain ⟨m, deed⟩ := u
  cases deed with
  | add address previous =>
    show (p.add m.oracle m.now address previous).2.registration? r.grainId = some r ↔ _
    by_cases hgrain : address.grain.id = r.grainId
    · by_cases hinserts : p.Inserts m.oracle address previous
      · have hspares := (inserts_iff_not_spares hr hgrain).mp hinserts
        have hmatch : ¬ r.address.Matches address := (hinserts r (hgrain ▸ hr)).1
        rw [p.add_of_inserts m.oracle m.now hinserts, registration?_insert, if_pos hgrain.symm]
        refine iff_of_false (fun h => hmatch ?_) hspares
        rw [← Option.some.inj h]
        exact GrainAddress.Matches.refl address
      · have hspares := not_not.mp (mt (inserts_iff_not_spares hr hgrain).mpr hinserts)
        rw [p.add_of_not_inserts m.oracle m.now hinserts]
        exact iff_of_true hr hspares
    · rw [p.registration?_add_of_ne m.oracle m.now previous (Ne.symm hgrain)]
      exact iff_of_true hr fun h => absurd h hgrain
  | removeActivation g activation cause =>
    let a : GrainAddress := { r.address with grain := g, activation := activation }
    have h := p.registration?_removeActivation m.now cause a r.grainId
    rw [hr] at h
    show (p.removeActivation m.now a.grain a.activation cause).2.registration? r.grainId = some r ↔ _
    rw [h, Option.filter_eq_some_iff, decide_eq_true_eq]
    have hid : r.grainId = g.id ↔ g.id = r.grainId := eq_comm
    simp only [true_and, Takes, Spares, not_and, a, hid]
  | removeGrain g =>
    show (p.removeGrain g).2.registration? r.grainId = some r ↔ _
    rw [registration?_removeGrain]
    split
    · rename_i hid
      exact iff_of_false (fun h => Option.some_ne_none r h.symm) fun h => h hid.symm
    · rename_i hid
      exact iff_of_true hr (Ne.symm hid)
  | lookup g => exact iff_of_true hr trivial
  | items => exact iff_of_true hr trivial
  | clear => exact iff_of_false (fun h => Option.some_ne_none r h.symm) id

/-! ## What outlasts a history -/

/-- A registration that all uses spare is there after them. -/
theorem registration?_after (hr : p.registration? r.grainId = some r)
    (hspared : ∀ u ∈ uses, p.Spares r u) : (p.after uses).registration? r.grainId = some r := by
  induction uses generalizing p with
  | nil => exact hr
  | cons u rest ih =>
    have hu : p.Spares r u := hspared u List.mem_cons_self
    have hrest : ∀ v ∈ rest, (p.perform u).2.Spares r v := fun v hv =>
      (spares_perform u).mpr (hspared v (List.mem_cons_of_mem u hv))
    rw [after_cons]
    exact ih ((registration?_perform_iff hr u).mpr hu) hrest

theorem spares_after (before : List Use) : (p.after before).Spares r u ↔ p.Spares r u := by
  induction before generalizing p with
  | nil => exact Iff.rfl
  | cons v rest ih =>
    rw [after_cons]
    exact ih.trans (spares_perform v)

/-- Who registers for a grain whose registration is spared is answered with that. -/
theorem perform_add_of_spares {m : Moment} {address : GrainAddress}
    {previous : Option GrainAddress} (hr : p.registration? r.grainId = some r)
    (hgrain : address.grain.id = r.grainId) (hspared : p.Spares r ⟨m, .add address previous⟩) :
    p.perform ⟨m, .add address previous⟩ = (.located r.answer, p) := by
  have hinserts : ¬ p.Inserts m.oracle address previous := fun h =>
    (inserts_iff_not_spares hr hgrain).mp h hspared
  simp only [perform, p.add_of_not_inserts m.oracle m.now hinserts, lookup, hgrain, hr]

/-- What it means that a registration outlasts some uses of a partition. -/
structure Outlasts (r : Registration) (p : Partition) (uses : List Use) : Prop where
  /-- Whoever looks its grain up, before, between or after them, finds it. -/
  found : ∀ before, before <+: uses → ∀ g : Grain, g.id = r.grainId →
    (p.after before).lookup g = r.answer
  /-- Whoever registers for its grain, whatever activation it is, wherever it is and whichever
  activation it names as the one before, is answered with it, and changes nothing. -/
  answered : ∀ before rest m address previous,
    uses = before ++ ⟨m, .add address previous⟩ :: rest → address.grain.id = r.grainId →
    (p.after before).perform ⟨m, .add address previous⟩ = (.located r.answer, p.after before)
  /-- It is the only registration of its grain; and no grain has two. -/
  sole : ∀ before, before <+: uses →
    (∀ r' ∈ (p.after before).entries.rows, r'.grainId = r.grainId → r' = r) ∧
      ((p.after before).entries.rows.map Registration.grainId).Nodup

/-- The first activation registered for a grain holds it: its registration outlasts every history
that spares it, on any partition that holds it, however that came about. -/
theorem outlasts_of_spared (hr : p.registration? r.grainId = some r)
    (hspared : ∀ u ∈ uses, p.Spares r u) : Outlasts r p uses where
  found before hbefore g hg := by
    have h := registration?_after hr fun u hu => hspared u (hbefore.subset hu)
    rw [lookup, hg, h]
  answered before rest m address previous huses hgrain := by
    subst huses
    have h := registration?_after hr fun u hu =>
      hspared u (List.mem_append_left _ hu)
    have hadd := hspared ⟨m, .add address previous⟩ (List.mem_append_right _ List.mem_cons_self)
    exact perform_add_of_spares h hgrain ((spares_after before).mpr hadd)
  sole before hbefore := by
    have h := registration?_after hr fun u hu => hspared u (hbefore.subset hu)
    obtain ⟨hmem, -⟩ := Table.find?_eq_some_iff.mp h
    exact ⟨fun r' hr' hgrain => Table.eq_of_key_eq hr' hmem hgrain, (p.after before).entries.unique⟩

/-! ### A contested grain -/

/-- The first activation of a grain that others want as well. -/
def winner : GrainAddress := ⟨⟨⟨⟨"user"⟩, "a"⟩, 1⟩, ⟨1⟩, ⟨⟨.v4 1 1, 1⟩, 10⟩⟩

/-- A silo that is going away, where a rival of the winner has been activated. -/
def rivalSilo : Silo := ⟨⟨.v4 1 2, 1⟩, 20⟩

/-- A partition on which the winner has registered. -/
def contested : Partition :=
  ({ lazyDelay := 100 } : Partition).after [⟨⟨{}, 5⟩, .add winner none⟩]

/-- The winner is restored elsewhere, a rival names somebody else as the one before, the winner is to be
removed too early and the rival for good, and other grains come and go. -/
def attempts : List Use :=
  let told : Oracle := Oracle.setStatus {} rivalSilo .shuttingDown
  let rival : GrainAddress := { winner with activation := ⟨2⟩, silo := rivalSilo }
  let bystander : GrainAddress := { winner with grain := ⟨⟨⟨"user"⟩, "b"⟩, 1⟩ }
  [⟨⟨{}, 10⟩, .add { winner with silo := rivalSilo } none⟩,
    ⟨⟨told, 20⟩, .add rival (some { winner with activation := ⟨3⟩ })⟩,
    ⟨⟨told, 90⟩, .removeActivation winner.grain ⟨1⟩ .nonexistentActivation⟩,
    ⟨⟨told, 95⟩, .removeActivation winner.grain ⟨2⟩ .force⟩,
    ⟨⟨told, 200⟩, .add bystander none⟩,
    ⟨⟨told, 300⟩, .removeGrain ⟨⟨⟨"user"⟩, "c"⟩, 1⟩⟩]

theorem outlasts_of_spared_contested :
    contested.registration? winner.grain.id = some ⟨winner, 1, 5⟩ ∧
      (∀ u ∈ attempts, contested.Spares ⟨winner, 1, 5⟩ u) ∧
      Outlasts ⟨winner, 1, 5⟩ contested attempts ∧ (contested.after attempts).size = 2 :=
  have hr : contested.registration? winner.grain.id = some ⟨winner, 1, 5⟩ := by decide
  have hspared : ∀ u ∈ attempts, contested.Spares ⟨winner, 1, 5⟩ u := by decide
  ⟨hr, hspared, outlasts_of_spared hr hspared, by decide⟩

end Partition

end GrainDirectory

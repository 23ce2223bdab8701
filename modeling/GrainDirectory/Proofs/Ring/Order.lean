import Mathlib
import GrainDirectory.Ring
set_option autoImplicit false

/-!
# Rings in order

A ring that is made by adding and removing silos lists its silos in ring order, and no silo twice.  A
silo that is added has another identity than all silos of the ring, so there is exactly one place where
it fits; a silo that is removed leaves the others in their order.

`Ring.ofChanges` is what a list of additions and removals makes of the empty ring, and
`Ring.ordered_ofChanges` the invariant that every such ring satisfies.
-/

namespace GrainDirectory

/-! ## The order of silos -/

theorem Silo.before_asymm {a b : Silo} (h : a.Before b) : ¬ b.Before a := fun h' =>
  Silo.before_irrefl a (Silo.before_trans h h')

/-- Silos with different identities stand one before the other. -/
theorem Silo.before_or_before {a b : Silo} (h : a.id ≠ b.id) : a.Before b ∨ b.Before a := by
  rcases Int.lt_trichotomy a.position.toInt b.position.toInt with hlt | heq | hgt
  · exact .inl (.inl hlt)
  · rcases SiloId.lt_or_eq_or_gt a.id b.id with hid | hid | hid
    · exact .inl (.inr ⟨heq, hid⟩)
    · exact absurd hid h
    · exact .inr (.inr ⟨heq.symm, hid⟩)
  · exact .inr (.inl hgt)

/-- A silo does not stand at a lower position than one before it. -/
theorem Silo.position_le_of_before {a b : Silo} (h : a.Before b) :
    a.position.toInt ≤ b.position.toInt := by
  rcases h with h | h
  · exact Int.le_of_lt h
  · exact Int.le_of_eq h.1

namespace Ring

variable {r r' : Ring} {s m : Silo}

/-! ## Members -/

theorem contains_eq_true_iff : r.contains s = true ↔ ∃ m ∈ r.silos, m.id = s.id := by
  simp [contains]

theorem contains_eq_false_iff : r.contains s = false ↔ ∀ m ∈ r.silos, m.id ≠ s.id := by
  simp [contains]

theorem insert?_eq_some_iff : r.insert? s = some r' ↔ r.contains s = false ∧
    r' = ⟨r.silos.takeWhile (fun m => m.Before s) ++
      s :: r.silos.dropWhile (fun m => m.Before s)⟩ := by
  unfold insert?
  cases r.contains s <;> simp [eq_comm]

theorem erase?_eq_some_iff : r.erase? s = some r' ↔ r.contains s = true ∧
    r' = ⟨r.silos.filter fun m => m.id ≠ s.id⟩ := by
  unfold erase?
  cases r.contains s <;> simp [eq_comm]

theorem mem_of_insert? (h : r.insert? s = some r') : m ∈ r'.silos ↔ m = s ∨ m ∈ r.silos := by
  obtain ⟨-, rfl⟩ := insert?_eq_some_iff.mp h
  have hsplit : m ∈ r.silos ↔ m ∈ r.silos.takeWhile (fun m => m.Before s) ∨
      m ∈ r.silos.dropWhile (fun m => m.Before s) := by
    rw [← List.mem_append, List.takeWhile_append_dropWhile]
  simp only [hsplit, List.mem_append, List.mem_cons]
  tauto

theorem mem_of_erase? (h : r.erase? s = some r') : m ∈ r'.silos ↔ m ∈ r.silos ∧ m.id ≠ s.id := by
  obtain ⟨-, rfl⟩ := erase?_eq_some_iff.mp h
  simp

/-! ## Changes -/

/-- A change of a ring. -/
inductive Change where
  | add (s : Silo)
  | remove (s : Silo)
  deriving DecidableEq, Repr

/-- The ring after a change; a change that is refused leaves the ring as it is. -/
def change (r : Ring) : Change → Ring
  | .add s => r.insert s
  | .remove s => (r.erase? s).getD r

theorem contains_change_add : (r.change (.add s)).contains m = true ↔
    s.id = m.id ∨ r.contains m = true := by
  show ((r.insert? s).getD r).contains m = true ↔ _
  cases hinsert : r.insert? s with
  | some r' =>
    rw [Option.getD_some, contains_eq_true_iff, contains_eq_true_iff]
    simp only [mem_of_insert? hinsert, or_and_right, exists_or, exists_eq_left]
  | none =>
    have hmember : r.contains s = true := by simpa [insert?] using hinsert
    rw [Option.getD_none]
    refine ⟨.inr, ?_⟩
    rintro (hid | h)
    · rw [contains, ← hid]
      exact hmember
    · exact h

theorem contains_change_remove : (r.change (.remove s)).contains m = true ↔
    s.id ≠ m.id ∧ r.contains m = true := by
  show ((r.erase? s).getD r).contains m = true ↔ _
  cases herase : r.erase? s with
  | some r' =>
    rw [Option.getD_some, contains_eq_true_iff, contains_eq_true_iff]
    simp only [mem_of_erase? herase]
    constructor
    · rintro ⟨a, ⟨ha, hne⟩, hid⟩
      exact ⟨fun heq => hne (hid.trans heq.symm), a, ha, hid⟩
    · rintro ⟨hne, a, ha, hid⟩
      exact ⟨a, ⟨ha, fun heq => hne (heq.symm.trans hid)⟩, hid⟩
  | none =>
    have hother : r.contains s = false := by simpa [erase?] using herase
    rw [Option.getD_none]
    refine ⟨fun h => ⟨fun hid => ?_, h⟩, And.right⟩
    obtain ⟨a, ha, ham⟩ := contains_eq_true_iff.mp h
    exact contains_eq_false_iff.mp hother a ha (ham.trans hid.symm)

theorem contains_foldl_insert (silos : List Silo) : (silos.foldl insert r).contains m = true ↔
    (∃ s ∈ silos, s.id = m.id) ∨ r.contains m = true := by
  induction silos generalizing r with
  | nil => simp
  | cons s rest ih =>
    have hinsert : (r.insert s).contains m = true ↔ s.id = m.id ∨ r.contains m = true :=
      contains_change_add
    rw [List.foldl_cons, ih, hinsert, List.exists_mem_cons_iff, or_left_comm, or_assoc]

/-- The ring of some silos has those silos. -/
theorem contains_ofList (silos : List Silo) :
    (ofList silos).contains m = true ↔ ∃ s ∈ silos, s.id = m.id := by
  rw [ofList, contains_foldl_insert, or_iff_left]
  exact Bool.false_ne_true

/-! ## Who is new -/

theorem eq_or_mem_of_insert (h : m ∈ (r.insert s).silos) : m = s ∨ m ∈ r.silos := by
  unfold insert at h
  cases hinsert : r.insert? s with
  | none =>
    rw [hinsert] at h
    exact .inr h
  | some r' =>
    rw [hinsert] at h
    exact (mem_of_insert? hinsert).mp h

theorem mem_insert (h : m ∈ (r.insert s).silos) :
    m ∈ r.silos ∨ r.contains m = false := by
  unfold insert at h
  cases hinsert : r.insert? s with
  | none =>
    rw [hinsert] at h
    exact .inl h
  | some r' =>
    rw [hinsert] at h
    rcases (mem_of_insert? hinsert).mp h with rfl | hm
    · exact .inr (insert?_eq_some_iff.mp hinsert).1
    · exact .inl hm

theorem mem_insert_of_mem (s : Silo) (h : m ∈ r.silos) : m ∈ (r.insert s).silos := by
  unfold insert
  cases hinsert : r.insert? s with
  | none => exact h
  | some r' => exact (mem_of_insert? hinsert).mpr (.inr h)

/-- Who is new among those that are added was not on the ring. -/
theorem mem_foldl_insert {silos : List Silo} (h : m ∈ (silos.foldl insert r).silos) :
    m ∈ r.silos ∨ r.contains m = false := by
  induction silos generalizing r with
  | nil => exact .inl h
  | cons s rest ih =>
    rcases ih h with hm | hnew
    · exact mem_insert hm
    · have hinsert : (r.insert s).contains m = true ↔ s.id = m.id ∨ r.contains m = true :=
        contains_change_add
      refine .inr (Bool.eq_false_iff.mpr fun hm => ?_)
      rw [Bool.eq_false_iff, Ne, hinsert] at hnew
      exact hnew (.inr hm)

theorem mem_foldl_insert_of_mem (silos : List Silo) (h : m ∈ r.silos) :
    m ∈ (silos.foldl insert r).silos := by
  induction silos generalizing r with
  | nil => exact h
  | cons s rest ih => exact ih (mem_insert_of_mem s h)

theorem mem_change_remove (h : m ∈ (r.change (.remove s)).silos) : m ∈ r.silos := by
  unfold change at h
  dsimp only at h
  cases herase : r.erase? s with
  | none =>
    rw [herase] at h
    exact h
  | some r' =>
    rw [herase] at h
    exact ((mem_of_erase? herase).mp h).1

theorem mem_change_remove_of_mem (h : m ∈ r.silos) (hne : m.id ≠ s.id) :
    m ∈ (r.change (.remove s)).silos := by
  unfold change
  dsimp only
  cases herase : r.erase? s with
  | none => exact h
  | some r' => exact (mem_of_erase? herase).mpr ⟨h, hne⟩

/-- The ring that changes make of the empty ring, one after the other. -/
def ofChanges (changes : List Change) : Ring := changes.foldl change empty

/-! ## The invariant -/

/-- Whether a ring lists its silos in ring order, and no silo twice. -/
structure Ordered (r : Ring) : Prop where
  sorted : r.silos.Pairwise Silo.Before
  distinct : r.silos.Pairwise fun a b => a.id ≠ b.id

theorem ordered_empty : empty.Ordered := ⟨.nil, .nil⟩

/-- No silo from the first on that does not stand before `s` stands before `s`. -/
theorem not_before_of_mem_dropWhile {silos : List Silo} (h : silos.Pairwise Silo.Before)
    (hm : m ∈ silos.dropWhile fun m => m.Before s) : ¬ m.Before s := by
  induction silos with
  | nil => cases hm
  | cons a rest ih =>
    obtain ⟨ha, hrest⟩ := List.pairwise_cons.mp h
    rw [List.dropWhile_cons] at hm
    split at hm
    · exact ih hrest hm
    · rename_i hstop
      have hbefore : ¬ a.Before s := by simpa using hstop
      intro hms
      rcases List.mem_cons.mp hm with rfl | hm
      · exact hbefore hms
      · exact hbefore (Silo.before_trans (ha m hm) hms)

namespace Ordered

/-- An identity is on a ring at one place alone. -/
theorem eq_of_id (h : r.Ordered) {a b : Silo} (ha : a ∈ r.silos) (hb : b ∈ r.silos)
    (hid : a.id = b.id) : a = b := by
  have : Std.Symm fun a b : Silo => a.id ≠ b.id := ⟨fun _ _ => Ne.symm⟩
  by_contra hne
  exact h.distinct.forall ha hb hne hid

/-- A ring in order is known by its members. -/
theorem eq_of_mem_iff (h : r.Ordered) (h' : r'.Ordered) (hmem : ∀ m, m ∈ r.silos ↔ m ∈ r'.silos) :
    r = r' := by
  have : Std.Irrefl Silo.Before := ⟨Silo.before_irrefl⟩
  have : Std.Antisymm Silo.Before := ⟨fun _ _ hab hba => absurd hba (Silo.before_asymm hab)⟩
  cases r
  cases r'
  exact congrArg Ring.mk (h.sorted.eq_of_mem_iff h'.sorted hmem)

theorem insert? (h : r.Ordered) (hinsert : r.insert? s = some r') : r'.Ordered := by
  obtain ⟨hnew, rfl⟩ := insert?_eq_some_iff.mp hinsert
  have hother := contains_eq_false_iff.mp hnew
  have hbefore : ∀ a ∈ r.silos.takeWhile fun m => m.Before s, a.Before s := fun a ha =>
    of_decide_eq_true (List.mem_takeWhile_imp (p := fun m : Silo => decide (m.Before s)) ha)
  have hafter : ∀ a ∈ r.silos.dropWhile fun m => m.Before s, s.Before a := fun a ha =>
    (Silo.before_or_before (hother a ((List.dropWhile_sublist _).mem ha))).resolve_left
      (not_before_of_mem_dropWhile h.sorted ha)
  have hsplit := List.takeWhile_append_dropWhile (p := fun m : Silo => decide (m.Before s))
    (l := r.silos)
  constructor
  · have hsorted := h.sorted
    rw [← hsplit, List.pairwise_append] at hsorted
    obtain ⟨hfront, hback, -⟩ := hsorted
    refine List.pairwise_append.mpr ⟨hfront, List.pairwise_cons.mpr ⟨hafter, hback⟩, ?_⟩
    intro a ha b hb
    rcases List.mem_cons.mp hb with rfl | hb
    · exact hbefore a ha
    · exact Silo.before_trans (hbefore a ha) (hafter b hb)
  · have hdistinct : (s :: r.silos).Pairwise fun a b => a.id ≠ b.id :=
      List.pairwise_cons.mpr ⟨fun a ha => (hother a ha).symm, h.distinct⟩
    have hperm : (s :: (r.silos.takeWhile (fun m => m.Before s) ++
        r.silos.dropWhile fun m => m.Before s)).Perm
          (r.silos.takeWhile (fun m => m.Before s) ++
            s :: r.silos.dropWhile fun m => m.Before s) := List.perm_middle.symm
    rw [hsplit] at hperm
    exact (hperm.pairwise_iff fun hne => Ne.symm hne).mp hdistinct

theorem erase? (h : r.Ordered) (herase : r.erase? s = some r') : r'.Ordered := by
  obtain ⟨-, rfl⟩ := erase?_eq_some_iff.mp herase
  exact ⟨h.sorted.filter _, h.distinct.filter _⟩

theorem change (h : r.Ordered) (c : Change) : (r.change c).Ordered := by
  cases c with
  | add s =>
    show ((r.insert? s).getD r).Ordered
    cases hinsert : r.insert? s with
    | none => exact h
    | some r' => exact h.insert? hinsert
  | remove s =>
    show ((r.erase? s).getD r).Ordered
    cases herase : r.erase? s with
    | none => exact h
    | some r' => exact h.erase? herase

theorem foldl_insert (h : r.Ordered) (silos : List Silo) : (silos.foldl insert r).Ordered :=
  List.foldlRecOn silos insert h fun _ h s _ => h.change (.add s)

end Ordered

/-- The ring of some silos is in order. -/
theorem ordered_ofList (silos : List Silo) : (ofList silos).Ordered :=
  ordered_empty.foldl_insert silos

/-- Additions and removals keep a ring in order. -/
theorem ordered_ofChanges (changes : List Change) : (ofChanges changes).Ordered :=
  List.foldlRecOn changes change ordered_empty fun _ h c _ => h.change c

end Ring

end GrainDirectory

import GrainDirectory.Proofs.Ring.Order
set_option autoImplicit false

/-!
# A ring is known by its members

A ring is kept with the set of the identities on it, and the set is asked instead of the list: who is in
it is not added, and who is not in it is not removed.  A silo that is added goes to the place that a
search by halving finds, the one that parts the silos before it from the others.

A silo's place depends on its hash, which is no part of its identity, so a silo may be offered at another
place than the one it has, and several silos may share a place.  Still the set and the list always have
the same identities, there is always one such place and never two, and how a ring has been reached leaves
no trace in it: the members and their hashes determine the list.

The main statement is `rings_canonical`.
-/

namespace GrainDirectory

namespace Ring

variable {r r' : Ring} {ids ids' : Finset SiloId} {s t m : Silo} {k : Nat}

/-! ## The place of a silo -/

/-- Whether a place parts the silos before `s` from the others. -/
structure Parts (silos : List Silo) (s : Silo) (k : Nat) : Prop where
  inside : k ≤ silos.length
  before : ∀ m ∈ silos.take k, m.Before s
  after : ∀ m ∈ silos.drop k, ¬ m.Before s

/-- The silos in front of such a place are those that a look from the front passes over. -/
theorem Parts.takeWhile_eq {silos : List Silo} (h : Parts silos s k) :
    silos.takeWhile (fun m => m.Before s) = silos.take k := by
  have hpassed : (silos.take k ++ silos.drop k).takeWhile (fun m => m.Before s) =
      silos.take k ++ (silos.drop k).takeWhile fun m => m.Before s :=
    List.takeWhile_append_of_pos fun m hm => decide_eq_true (h.before m hm)
  rw [List.take_append_drop] at hpassed
  rw [hpassed, List.takeWhile_eq_nil_iff.mpr, List.append_nil]
  intro hsome hfirst
  exact h.after _ (List.getElem_mem hsome) (of_decide_eq_true hfirst)

theorem Parts.dropWhile_eq {silos : List Silo} (h : Parts silos s k) :
    silos.dropWhile (fun m => m.Before s) = silos.drop k := by
  have hwhole := List.takeWhile_append_dropWhile (p := fun m : Silo => decide (m.Before s))
    (l := silos)
  rw [h.takeWhile_eq] at hwhole
  exact List.append_cancel_left (hwhole.trans (List.take_append_drop k silos).symm)

theorem Parts.unique {silos : List Silo} {k' : Nat} (h : Parts silos s k) (h' : Parts silos s k') :
    k = k' := by
  have hlength := congrArg List.length (h.takeWhile_eq.symm.trans h'.takeWhile_eq)
  rwa [List.length_take_of_le h.inside, List.length_take_of_le h'.inside] at hlength

/-- In a ring in order there is a place for every silo. -/
theorem Ordered.exists_parts (h : r.Ordered) (s : Silo) : ∃ k, Parts r.silos s k := by
  have hwhole := List.takeWhile_append_dropWhile (p := fun m : Silo => decide (m.Before s))
    (l := r.silos)
  have hfront : r.silos.take (r.silos.takeWhile fun m => m.Before s).length =
      r.silos.takeWhile fun m => m.Before s :=
    (List.prefix_iff_eq_take.mp (List.takeWhile_prefix _)).symm
  have hback : r.silos.drop (r.silos.takeWhile fun m => m.Before s).length =
      r.silos.dropWhile fun m => m.Before s := by
    have hparted := List.take_append_drop (r.silos.takeWhile fun m => m.Before s).length r.silos
    rw [hfront] at hparted
    exact List.append_cancel_left (hparted.trans hwhole.symm)
  refine ⟨(r.silos.takeWhile fun m => m.Before s).length, (List.takeWhile_prefix _).length_le,
    fun m hm => ?_, fun m hm => ?_⟩
  · rw [hfront] at hm
    exact of_decide_eq_true (List.mem_takeWhile_imp (p := fun m : Silo => decide (m.Before s)) hm)
  · rw [hback] at hm
    exact not_before_of_mem_dropWhile h.sorted hm

theorem insert?_of_parts (hnew : r.contains s = false) (hparts : Parts r.silos s k) :
    r.insert? s = some ⟨r.silos.take k ++ s :: r.silos.drop k⟩ := by
  rw [← hparts.takeWhile_eq, ← hparts.dropWhile_eq]
  exact insert?_eq_some_iff.mpr ⟨hnew, rfl⟩

theorem insert?_eq_none_iff : r.insert? s = none ↔ r.contains s = true := by
  unfold insert?
  cases r.contains s <;> simp

theorem erase?_eq_none_iff : r.erase? s = none ↔ r.contains s = false := by
  unfold erase?
  cases r.contains s <;> simp

/-! ## Rings with the set of their identities -/

/-- The rings that additions and removals make of the empty one, each with the set of identities that is
kept beside it and decides which of them are refused. -/
inductive Made : Ring → Finset SiloId → Prop
  | empty : Made empty ∅
  | added {r : Ring} {ids : Finset SiloId} {s : Silo} {k : Nat} (h : Made r ids)
      (hnew : s.id ∉ ids) (hparts : Parts r.silos s k) :
      Made ⟨r.silos.take k ++ s :: r.silos.drop k⟩ (Insert.insert s.id ids)
  | removed {r : Ring} {ids : Finset SiloId} {s : Silo} (h : Made r ids) (hmember : s.id ∈ ids) :
      Made ⟨r.silos.filter fun m => m.id ≠ s.id⟩ (ids.erase s.id)

/-- What is true of a ring and the set beside it as long as they agree. -/
structure Agrees (r : Ring) (ids : Finset SiloId) : Prop where
  ordered : r.Ordered
  contains_iff : ∀ s, r.contains s = true ↔ s.id ∈ ids

theorem Agrees.contains_eq_false_iff (h : r.Agrees ids) (s : Silo) :
    r.contains s = false ↔ s.id ∉ ids := by
  rw [← h.contains_iff s, Bool.not_eq_true]

/-- A silo that the set does not have is added to the ring at the place that has been found. -/
theorem Agrees.insert? (h : r.Agrees ids) (hnew : s.id ∉ ids) (hparts : Parts r.silos s k) :
    r.insert? s = some ⟨r.silos.take k ++ s :: r.silos.drop k⟩ :=
  insert?_of_parts ((h.contains_eq_false_iff s).mpr hnew) hparts

theorem Agrees.erase? (h : r.Agrees ids) (hmember : s.id ∈ ids) :
    r.erase? s = some ⟨r.silos.filter fun m => m.id ≠ s.id⟩ :=
  erase?_eq_some_iff.mpr ⟨(h.contains_iff s).mpr hmember, rfl⟩

theorem Agrees.of_insert? (h : r.Agrees ids) (hinsert : r.insert? s = some r') :
    r'.Agrees (Insert.insert s.id ids) := by
  refine ⟨h.ordered.insert? hinsert, fun m => ?_⟩
  rw [contains_eq_true_iff, Finset.mem_insert, ← h.contains_iff m, contains_eq_true_iff]
  simp only [mem_of_insert? hinsert, or_and_right, exists_or, exists_eq_left]
  exact or_congr_left eq_comm

theorem Agrees.of_erase? (h : r.Agrees ids) (herase : r.erase? s = some r') :
    r'.Agrees (ids.erase s.id) := by
  refine ⟨h.ordered.erase? herase, fun m => ?_⟩
  rw [contains_eq_true_iff, Finset.mem_erase, ← h.contains_iff m, contains_eq_true_iff]
  simp only [mem_of_erase? herase]
  constructor
  · rintro ⟨a, ⟨ha, hne⟩, hid⟩
    exact ⟨hid ▸ hne, a, ha, hid⟩
  · rintro ⟨hne, a, ha, hid⟩
    exact ⟨a, ⟨ha, hid ▸ hne⟩, hid⟩

/-- However a ring has been reached, it is in order and agrees with the set beside it. -/
theorem Made.agrees (h : r.Made ids) : r.Agrees ids := by
  induction h with
  | empty => exact ⟨ordered_empty, by simp [contains, Ring.empty]⟩
  | added _ hnew hparts ih => exact ih.of_insert? (ih.insert? hnew hparts)
  | removed _ hmember ih => exact ih.of_erase? (ih.erase? hmember)

theorem Made.of_insert? (h : r.Made ids) (hinsert : r.insert? s = some r') :
    r'.Made (Insert.insert s.id ids) := by
  have hnew : s.id ∉ ids :=
    (h.agrees.contains_eq_false_iff s).mp (insert?_eq_some_iff.mp hinsert).1
  obtain ⟨k, hparts⟩ := h.agrees.ordered.exists_parts s
  cases (h.agrees.insert? hnew hparts).symm.trans hinsert
  exact h.added hnew hparts

theorem Made.insert (h : r.Made ids) (s : Silo) : (r.insert s).Made (Insert.insert s.id ids) := by
  unfold Ring.insert
  cases hinsert : r.insert? s with
  | some r' => exact h.of_insert? hinsert
  | none =>
    have hmember : s.id ∈ ids := (h.agrees.contains_iff s).mp (insert?_eq_none_iff.mp hinsert)
    rw [Finset.insert_eq_of_mem hmember]
    exact h

theorem made_foldl_insert (h : r.Made ids) (silos : List Silo) :
    (silos.foldl Ring.insert r).Made (ids ∪ (silos.map Silo.id).toFinset) := by
  induction silos generalizing r ids with
  | nil => simpa using h
  | cons s rest ih =>
    have hrest := ih (h.insert s)
    rwa [Finset.insert_union, ← Finset.union_insert, ← List.toFinset_cons] at hrest

/-- The ring of some silos is made by additions. -/
theorem made_ofList (silos : List Silo) : (ofList silos).Made (silos.map Silo.id).toFinset := by
  have hfold := made_foldl_insert Made.empty silos
  rwa [Finset.empty_union] at hfold

/-! ## No trace of the way -/

/-- Who is on the ring of some silos with different identities. -/
theorem mem_foldl_insert_iff {silos : List Silo} (hids : (silos.map Silo.id).Nodup)
    (hnew : ∀ s ∈ silos, r.contains s = false) :
    m ∈ (silos.foldl insert r).silos ↔ m ∈ r.silos ∨ m ∈ silos := by
  induction silos generalizing r with
  | nil => simp
  | cons s rest ih =>
    rw [List.map_cons, List.nodup_cons] at hids
    obtain ⟨hother, hids⟩ := hids
    have hmem : m ∈ (r.insert s).silos ↔ m = s ∨ m ∈ r.silos := by
      obtain ⟨r', hinsert⟩ := Option.ne_none_iff_exists'.mp fun hnone =>
        Bool.false_ne_true ((hnew s List.mem_cons_self).symm.trans (insert?_eq_none_iff.mp hnone))
      rw [Ring.insert, hinsert, Option.getD_some]
      exact mem_of_insert? hinsert
    have hrest : ∀ a ∈ rest, (r.insert s).contains a = false := by
      intro a ha
      have hadded : (r.insert s).contains a = true ↔ s.id = a.id ∨ r.contains a = true :=
        contains_change_add
      rw [← Bool.not_eq_true, hadded, not_or, Bool.not_eq_true]
      exact ⟨fun hid => hother (hid ▸ List.mem_map_of_mem ha), hnew a (List.mem_cons_of_mem s ha)⟩
    rw [List.foldl_cons, ih hids hrest, hmem, List.mem_cons]
    tauto

theorem mem_ofList_iff {silos : List Silo} (hids : (silos.map Silo.id).Nodup) :
    m ∈ (ofList silos).silos ↔ m ∈ silos := by
  have hmem := mem_foldl_insert_iff (r := empty) (m := m) hids fun _ _ => rfl
  have hnone : m ∉ empty.silos := List.not_mem_nil
  rwa [or_iff_right hnone] at hmem

/-- To remove what has been added, at whatever place it is named, leaves the ring as it was. -/
theorem Ordered.erase?_of_insert? (h : r.Ordered) (hinsert : r.insert? s = some r')
    (hid : t.id = s.id) : r'.erase? t = some r := by
  have hmember : r'.contains t = true :=
    contains_eq_true_iff.mpr ⟨s, (mem_of_insert? hinsert).mpr (.inl rfl), hid.symm⟩
  have herase := erase?_eq_some_iff.mpr ⟨hmember, rfl⟩
  have hother := contains_eq_false_iff.mp (insert?_eq_some_iff.mp hinsert).1
  rw [herase, Option.some.injEq]
  refine ((h.insert? hinsert).erase? herase).eq_of_mem_iff h fun m => ?_
  rw [mem_of_erase? herase, mem_of_insert? hinsert, hid]
  constructor
  · rintro ⟨rfl | hm, hne⟩
    · exact absurd rfl hne
    · exact hm
  · exact fun hm => ⟨.inr hm, hother m hm⟩

/-- To add what has been removed, at the place it had, leaves the ring as it was. -/
theorem Ordered.insert?_of_erase? (h : r.Ordered) (hmember : s ∈ r.silos) (hid : t.id = s.id)
    (herase : r.erase? t = some r') : r'.insert? s = some r := by
  have hnew : r'.contains s = false := contains_eq_false_iff.mpr fun m hm heq =>
    ((mem_of_erase? herase).mp hm).2 (heq.trans hid.symm)
  have hinsert := insert?_eq_some_iff.mpr ⟨hnew, rfl⟩
  rw [hinsert, Option.some.injEq]
  refine ((h.erase? herase).insert? hinsert).eq_of_mem_iff h fun m => ?_
  rw [mem_of_insert? hinsert, mem_of_erase? herase, hid]
  constructor
  · rintro (rfl | ⟨hm, -⟩)
    · exact hmember
    · exact hm
  · intro hm
    by_cases heq : m.id = s.id
    · exact .inl (h.eq_of_id hm hmember heq)
    · exact .inr ⟨hm, heq⟩

/-- What the members of a ring determine, and what decides on a change of it. -/
structure Canonical (r : Ring) (ids : Finset SiloId) : Prop where
  /-- The silos stand in strictly increasing order of signed position, endpoint and generation. -/
  sorted : r.silos.Pairwise Silo.Before
  /-- No identity is listed twice. -/
  distinct : (r.silos.map Silo.id).Nodup
  /-- The list has the identities of the set, -/
  listed : ∀ i, i ∈ r.silos.map Silo.id ↔ i ∈ ids
  /-- and these are the silos that the ring is said to contain. -/
  contained : ∀ s, r.contains s = true ↔ s.id ∈ ids
  /-- For every silo there is one place that parts those before it from the others. -/
  place : ∀ s, ∃! k, Parts r.silos s k
  /-- A silo is refused exactly if it is a member, at whatever place it is offered; -/
  refused : ∀ s, r.insert? s = none ↔ s.id ∈ ids
  /-- any other is put at its place. -/
  added : ∀ s k, s.id ∉ ids → Parts r.silos s k →
    r.insert? s = some ⟨r.silos.take k ++ s :: r.silos.drop k⟩
  /-- To remove a silo is refused exactly if it is no member; -/
  missed : ∀ s, r.erase? s = none ↔ s.id ∉ ids
  /-- a member is taken out of the list. -/
  removed : ∀ s, s.id ∈ ids → r.erase? s = some ⟨r.silos.filter fun m => m.id ≠ s.id⟩
  /-- Every other ring with the same members at the same hashes is the same, and so is its set. -/
  determined : ∀ r' ids', r'.Made ids' → (∀ s, s ∈ r'.silos ↔ s ∈ r.silos) → r' = r ∧ ids' = ids
  /-- The ring of its members, whatever their order, is the ring itself. -/
  rebuilt : ∀ silos, silos.Perm r.silos → ofList silos = r
  /-- To remove what has been added restores the ring, -/
  undone : ∀ s t r', r.insert? s = some r' → t.id = s.id → r'.erase? t = some r
  /-- and so does it to add what has been removed, with the hash that it had. -/
  redone : ∀ s t r', s ∈ r.silos → t.id = s.id → r.erase? t = some r' → r'.insert? s = some r

theorem Made.distinct (h : r.Made ids) : (r.silos.map Silo.id).Nodup :=
  List.pairwise_map.mpr h.agrees.ordered.distinct

theorem Made.mem_ids_iff (h : r.Made ids) (i : SiloId) : i ∈ r.silos.map Silo.id ↔ i ∈ ids := by
  have hcontains := h.agrees.contains_iff ⟨i, 0⟩
  rw [contains_eq_true_iff] at hcontains
  rw [List.mem_map]
  exact hcontains

theorem Made.eq_of_mem_iff (h : r.Made ids) (h' : r'.Made ids')
    (hmem : ∀ s, s ∈ r'.silos ↔ s ∈ r.silos) : r' = r ∧ ids' = ids := by
  have hring : r' = r := h'.agrees.ordered.eq_of_mem_iff h.agrees.ordered hmem
  subst hring
  exact ⟨rfl, Finset.ext fun i => (h'.mem_ids_iff i).symm.trans (h.mem_ids_iff i)⟩

theorem Made.canonical (h : r.Made ids) : r.Canonical ids where
  sorted := h.agrees.ordered.sorted
  distinct := h.distinct
  listed := h.mem_ids_iff
  contained := h.agrees.contains_iff
  place s := by
    obtain ⟨k, hparts⟩ := h.agrees.ordered.exists_parts s
    exact ⟨k, hparts, fun _ hparts' => hparts'.unique hparts⟩
  refused s := insert?_eq_none_iff.trans (h.agrees.contains_iff s)
  added _ _ := h.agrees.insert?
  missed s := erase?_eq_none_iff.trans (h.agrees.contains_eq_false_iff s)
  removed _ := h.agrees.erase?
  determined _ _ := h.eq_of_mem_iff
  rebuilt silos hperm := by
    have hids : (silos.map Silo.id).Nodup := (hperm.map Silo.id).nodup_iff.mpr h.distinct
    exact (h.eq_of_mem_iff (made_ofList silos) fun s =>
      (mem_ofList_iff hids).trans hperm.mem_iff).1
  undone _ _ _ := h.agrees.ordered.erase?_of_insert?
  redone _ _ _ := h.agrees.ordered.insert?_of_erase?

theorem ofList_eq_of_perm {silos silos' : List Silo} (hids : (silos.map Silo.id).Nodup)
    (hperm : silos.Perm silos') : ofList silos = ofList silos' := by
  have hids' : (silos'.map Silo.id).Nodup := (hperm.map Silo.id).nodup_iff.mp hids
  refine (ordered_ofList silos).eq_of_mem_iff (ordered_ofList silos') fun m => ?_
  rw [mem_ofList_iff hids, mem_ofList_iff hids', hperm.mem_iff]

end Ring

/-- A ring is the canonical form of its members: the rings that lists of silos, additions and removals
make are in order, agree with their sets, and are known by their members; so the order of silos with
different identities does not matter to the ring of them. -/
theorem rings_canonical :
    (∀ silos, (Ring.ofList silos).Made (silos.map Silo.id).toFinset) ∧
      (∀ r ids, Ring.Made r ids → r.Canonical ids) ∧
        ∀ silos silos' : List Silo, (silos.map Silo.id).Nodup → silos.Perm silos' →
          Ring.ofList silos = Ring.ofList silos' :=
  ⟨Ring.made_ofList, fun _ _ => Ring.Made.canonical, fun _ _ => Ring.ofList_eq_of_perm⟩

/-- Two silos share a place below zero; a third is above. -/
def sharedPlace : List Silo :=
  [⟨⟨.v4 1 3, 1⟩, 0xffffffff⟩, ⟨⟨.v4 1 1, 1⟩, 10⟩, ⟨⟨.v4 1 2, 1⟩, 0xffffffff⟩]

/-- One of the silos that is offered again, at another place, is refused. -/
theorem rings_canonical_sharedPlace :
    (Ring.ofList sharedPlace).Canonical (sharedPlace.map Silo.id).toFinset ∧
      Ring.ofList sharedPlace = Ring.ofList sharedPlace.reverse ∧
      (Ring.ofList sharedPlace).silos = [⟨⟨.v4 1 2, 1⟩, 0xffffffff⟩, ⟨⟨.v4 1 3, 1⟩, 0xffffffff⟩,
        ⟨⟨.v4 1 1, 1⟩, 10⟩] ∧
      (Ring.ofList sharedPlace).insert? ⟨⟨.v4 1 3, 1⟩, 10⟩ = none :=
  ⟨rings_canonical.2.1 _ _ (rings_canonical.1 sharedPlace),
    rings_canonical.2.2 _ _ (by decide) (List.reverse_perm sharedPlace).symm, by decide, by decide⟩

end GrainDirectory

import GrainDirectory.Proofs.Ring.Canonical
import GrainDirectory.Proofs.Ring.Shares
set_option autoImplicit false

/-!
# Around the ring

On a ring of several silos everybody has a neighbour on either side.  A neighbour is found by counting
places modulo the size of the ring; who it is can be said without counting: `b` comes after `a` if it
stands right behind `a` in the list, or if the list begins with `b` and ends with `a`.  Both neighbours are
read off this one relation, so going forth and going back undo each other.

Steps to the next neighbour lead up to the last silo, across to the first one, and up again to where they
began, and so past every silo once.  On the way up distances add up, whatever sign the places have and
whoever shares one, so a full turn is as long as three distances: up to the last silo, across to the first,
and back up.  That is the whole ring, or nothing if the first silo and the last are at one place.

The main statement is `neighbours_lead_around`.
-/

namespace GrainDirectory

namespace Ring

variable {r : Ring} {s m a b c first last : Silo} {front back silos : List Silo}

/-! ## Neighbours -/

/-- Whether `b` comes after `a` when one goes around the ring. -/
inductive Adjacent (r : Ring) : Silo → Silo → Prop
  | inside {front back : List Silo} {a b : Silo} (h : r.silos = front ++ a :: b :: back) :
      Adjacent r a b
  | seam {between : List Silo} {a b : Silo} (h : r.silos = b :: between ++ [a]) : Adjacent r a b

theorem Adjacent.left_mem (hab : r.Adjacent a b) : a ∈ r.silos := by
  cases hab with
  | inside hsilos => simp [hsilos]
  | seam hsilos => simp [hsilos]

theorem Adjacent.right_mem (hab : r.Adjacent a b) : b ∈ r.silos := by
  cases hab with
  | inside hsilos => simp [hsilos]
  | seam hsilos => simp [hsilos]

theorem Adjacent.id_ne (hab : r.Adjacent a b) (h : r.Ordered) : a.id ≠ b.id := by
  have hdistinct := h.distinct
  cases hab with
  | inside hsilos =>
    rw [hsilos, List.pairwise_append, List.pairwise_cons] at hdistinct
    exact hdistinct.2.1.1 b List.mem_cons_self
  | seam hsilos =>
    rw [hsilos, List.pairwise_append] at hdistinct
    exact (hdistinct.2.2 b List.mem_cons_self a (List.mem_singleton_self a)).symm

/-- The last silo of a ring comes before the first. -/
theorem adjacent_of_ends (hsize : 2 ≤ r.size) (hlast : r.silos.getLast? = some a)
    (hfirst : r.silos.head? = some b) : r.Adjacent a b := by
  obtain ⟨init, hinit⟩ := List.getLast?_eq_some_iff.mp hlast
  cases init with
  | nil =>
    have hone : r.size = 1 := congrArg List.length hinit
    omega
  | cons x between =>
    rw [hinit, List.cons_append, List.head?_cons, Option.some.injEq] at hfirst
    subst hfirst
    exact .seam hinit

theorem exists_adjacent_after (hm : m ∈ r.silos) (hsize : 2 ≤ r.size) : ∃ b, r.Adjacent m b := by
  obtain ⟨front, back, hsilos⟩ := List.append_of_mem hm
  cases back with
  | cons b back => exact ⟨b, .inside hsilos⟩
  | nil =>
    have hlast : r.silos.getLast? = some m := List.getLast?_eq_some_iff.mpr ⟨front, hsilos⟩
    exact ⟨_, adjacent_of_ends hsize hlast (List.head?_eq_some_head (List.ne_nil_of_mem hm))⟩

theorem exists_adjacent_before (hm : m ∈ r.silos) (hsize : 2 ≤ r.size) : ∃ a, r.Adjacent a m := by
  obtain ⟨before, back, hsilos⟩ := List.append_of_mem hm
  rcases List.eq_nil_or_concat' before with rfl | ⟨front, a, rfl⟩
  · have hfirst : r.silos.head? = some m := List.head?_eq_some_iff.mpr ⟨back, hsilos⟩
    exact ⟨_, adjacent_of_ends hsize (List.getLast?_eq_some_getLast (List.ne_nil_of_mem hm)) hfirst⟩
  · have hadjacent : r.silos = front ++ a :: m :: back := by simp [hsilos]
    exact ⟨a, .inside hadjacent⟩

theorem successor?_of_adjacent (h : r.Ordered) (hab : r.Adjacent a b) (hid : a.id = s.id) :
    r.successor? s = some b := by
  cases hab with
  | @inside front back _ _ hsilos =>
    have hsize : r.size = front.length + back.length + 2 := by
      simp only [size, hsilos, List.length_append, List.length_cons]
      omega
    have hplace : (front.length + 1) % r.size = front.length + 1 := Nat.mod_eq_of_lt (by omega)
    unfold successor?
    rw [index?_of_append h hsilos hid]
    dsimp only
    rw [if_neg (by omega), hplace, hsilos]
    simp
  | @seam between _ _ hsilos =>
    have hsize : r.size = between.length + 2 := by simp [size, hsilos]
    have hplace : ((b :: between).length + 1) % r.size = 0 := by
      rw [hsize, List.length_cons, Nat.mod_self]
    unfold successor?
    rw [index?_of_append h hsilos hid]
    dsimp only
    rw [if_neg (by omega), hplace, hsilos]
    rfl

theorem predecessor?_of_adjacent (h : r.Ordered) (hab : r.Adjacent a b) (hid : b.id = s.id) :
    r.predecessor? s = some a := by
  cases hab with
  | inside hsilos => exact predecessor?_of_append h hsilos hid
  | seam hsilos =>
    have hsize : 2 ≤ r.size := by simp [size, hsilos]
    exact predecessor?_of_cons h hsilos hsilos hsize hid

theorem successor?_of_size_lt (hsize : r.size < 2) : r.successor? s = none := by
  unfold successor?
  split
  · rfl
  · exact if_pos hsize

theorem successor?_of_not_contains (h : r.contains s = false) : r.successor? s = none := by
  rw [successor?, index?_of_not_contains h]

/-! ## From neighbour to neighbour -/

/-- A silo and the silos that so many steps lead to, each from one silo to the neighbour after it. -/
def walk (r : Ring) (s : Silo) : Nat → List Silo
  | 0 => [s]
  | k + 1 =>
    match r.successor? s with
    | none => [s]
    | some next => s :: r.walk next k

/-- Whoever stand each after the other are passed in this order, wherever the first is named. -/
theorem walk_of_isChain (h : r.Ordered) (hchain : (m :: silos).IsChain r.Adjacent)
    (hid : m.id = s.id) : r.walk s silos.length = s :: silos := by
  induction silos generalizing m s with
  | nil => rfl
  | cons b rest ih =>
    obtain ⟨hstep, hrest⟩ := List.isChain_cons_cons.mp hchain
    rw [List.length_cons, walk, successor?_of_adjacent h hstep hid]
    -- From here on the silos are those of the ring, named where it has them.
    exact congrArg (s :: ·) (ih hrest rfl)

theorem isChain_silos (r : Ring) : r.silos.IsChain r.Adjacent :=
  List.isChain_iff_forall_rel_of_append_cons_cons.mpr fun _ _ _ _ hsilos => .inside hsilos

/-- From a silo up to the last one, and from the first one up to the silo again. -/
theorem isChain_turn (hsilos : r.silos = front ++ m :: back) (hsize : 2 ≤ r.size) :
    (m :: back ++ (front ++ [m])).IsChain r.Adjacent := by
  have hup : (m :: back).IsChain r.Adjacent := r.isChain_silos.suffix ⟨front, hsilos.symm⟩
  have hagain : (front ++ [m]).IsChain r.Adjacent :=
    r.isChain_silos.prefix ⟨back, by simp [hsilos]⟩
  refine List.isChain_append.mpr ⟨hup, hagain, fun a ha b hb => ?_⟩
  refine adjacent_of_ends hsize ?_ ?_
  · rw [hsilos, List.getLast?_append, ha, Option.some_or]
  · rw [hsilos, ← List.singleton_append, ← List.append_assoc, List.head?_append, hb, Option.some_or]

/-! ## Distances along the way -/

/-- The distances from each silo of a list to the next, added up. -/
def travel : List Silo → Nat
  | a :: b :: rest => distance a b + travel (b :: rest)
  | _ => 0

theorem travel_append (hlast : front.getLast? = some a) (hfirst : back.head? = some b) :
    travel (front ++ back) = travel front + distance a b + travel back := by
  obtain ⟨rest, rfl⟩ := List.head?_eq_some_iff.mp hfirst
  induction front with
  | nil => cases hlast
  | cons x front ih =>
    cases front with
    | nil =>
      obtain rfl : x = a := by simpa using hlast
      simp [travel]
    | cons y front =>
      rw [List.getLast?_cons_cons] at hlast
      have hrest := ih hlast
      rw [List.cons_append] at hrest
      simp only [List.cons_append, travel, hrest]
      omega

theorem distance_self (a : Silo) : distance a a = 0 := by simp [distance]

/-- On the way up, two distances make one. -/
theorem distance_add_distance (hab : a.position.toInt ≤ b.position.toInt)
    (hbc : b.position.toInt ≤ c.position.toInt) : distance a b + distance b c = distance a c := by
  have hfirst := distance_eq a b
  have hsecond := distance_eq b c
  have hboth := distance_eq a c
  rw [if_pos hab] at hfirst
  rw [if_pos hbc] at hsecond
  rw [if_pos (hab.trans hbc)] at hboth
  omega

/-- The way up along silos in order is as long as the distance between its ends. -/
theorem travel_of_sorted (hsorted : silos.Pairwise Silo.Before) (hfirst : silos.head? = some a)
    (hlast : silos.getLast? = some b) :
    a.position.toInt ≤ b.position.toInt ∧ travel silos = distance a b := by
  -- That the ends are in order goes with the induction: without it the next distance cannot be added.
  induction silos generalizing a with
  | nil => cases hfirst
  | cons x rest ih =>
    obtain rfl : x = a := by simpa using hfirst
    obtain ⟨hx, hrest⟩ := List.pairwise_cons.mp hsorted
    cases rest with
    | nil =>
      obtain rfl : x = b := by simpa using hlast
      exact ⟨Int.le_refl _, (distance_self x).symm⟩
    | cons y rest =>
      rw [List.getLast?_cons_cons] at hlast
      obtain ⟨hle, htravel⟩ := ih hrest List.head?_cons hlast
      have hstep := Silo.position_le_of_before (hx y List.mem_cons_self)
      refine ⟨hstep.trans hle, ?_⟩
      rw [travel, htravel, distance_add_distance hstep hle]

/-- Up to the last silo, across to the first, and up again: across leads down by as much as the other two
lead up, and down is around the rest of the ring. -/
theorem distance_around (hfirst : first.position.toInt ≤ m.position.toInt)
    (hlast : m.position.toInt ≤ last.position.toInt) :
    distance m last + distance last first + distance first m =
      if first.hash = last.hash then 0 else ringSize := by
  have hup := distance_eq m last
  have hacross := distance_eq last first
  have hagain := distance_eq first m
  have hsize : ringSize = 2 ^ 32 := rfl
  rw [if_pos hlast] at hup
  rw [if_pos hfirst] at hagain
  by_cases hhash : first.hash = last.hash
  · have hplace : first.position = last.position := congrArg UInt32.toInt32 hhash
    rw [hplace] at hfirst hagain hacross
    rw [if_pos (Int.le_refl _)] at hacross
    rw [if_pos hhash]
    omega
  · have hdown : ¬ last.position.toInt ≤ first.position.toInt := fun hle =>
      hhash (Silo.hash_eq_of_position (Int.le_antisymm (hfirst.trans hlast) hle))
    rw [if_neg hdown] at hacross
    rw [if_neg hhash]
    omega

theorem flat_iff (h : r.Ordered) (hsize : 2 ≤ r.size) (hfirst : r.silos.head? = some first)
    (hlast : r.silos.getLast? = some last) : r.Flat ↔ first.hash = last.hash := by
  constructor
  · exact fun hflat =>
      hflat.2 first (List.mem_of_head? hfirst) last (List.mem_of_getLast? hlast)
  · intro hhash
    obtain ⟨rest, hrest⟩ := List.head?_eq_some_iff.mp hfirst
    obtain ⟨init, hinit⟩ := List.getLast?_eq_some_iff.mp hlast
    have hplace : last.position = first.position := congrArg UInt32.toInt32 hhash.symm
    exact flat_of_position_le h hrest hinit hsize (Int.le_of_eq (congrArg Int32.toInt hplace))

/-- A full turn leads once around the ring, unless the ring is flat. -/
theorem travel_turn (h : r.Ordered) (hsilos : r.silos = front ++ m :: back) (hsize : 2 ≤ r.size) :
    travel (m :: back ++ (front ++ [m])) = if r.Flat then 0 else ringSize := by
  have hsplit : r.silos = front ++ [m] ++ back := by simp [hsilos]
  obtain ⟨last, hlast⟩ : ∃ last, (m :: back).getLast? = some last :=
    ⟨_, List.getLast?_eq_some_getLast (List.cons_ne_nil m back)⟩
  obtain ⟨first, hfirst⟩ : ∃ first, (front ++ [m]).head? = some first :=
    ⟨_, List.head?_eq_some_head (List.concat_ne_nil m front)⟩
  have hleading : r.silos.head? = some first := by
    rw [hsplit, List.head?_append, hfirst, Option.some_or]
  have hclosing : r.silos.getLast? = some last := by
    rw [hsilos, List.getLast?_append, hlast, Option.some_or]
  have hupper : (m :: back).Pairwise Silo.Before :=
    h.sorted.sublist (hsilos ▸ List.sublist_append_right front (m :: back))
  have hlower : (front ++ [m]).Pairwise Silo.Before :=
    h.sorted.sublist (hsplit ▸ List.sublist_append_left (front ++ [m]) back)
  obtain ⟨hmlast, hup⟩ := travel_of_sorted hupper List.head?_cons hlast
  obtain ⟨hfirstm, hagain⟩ := travel_of_sorted hlower hfirst List.getLast?_concat
  rw [travel_append hlast hfirst, hup, hagain, distance_around hfirstm hmlast]
  simp only [flat_iff h hsize hleading hclosing]

/-! ## A full turn -/

/-- How the neighbours of a silo lead around a ring that has it as `m`. -/
structure LeadsAround (r : Ring) (s m : Silo) : Prop where
  /-- The silo of the ring with the identity of `s` is `m`, and no other. -/
  listed : ∀ a, a ∈ r.silos ∧ a.id = s.id ↔ a = m
  /-- There is a neighbour after the silo; it is another one, and the silo is before it. -/
  next : ∃ b ∈ r.silos, b.id ≠ s.id ∧ r.successor? s = some b ∧ r.predecessor? b = some m
  /-- There is a neighbour before the silo; it is another one, and the silo is after it. -/
  previous : ∃ a ∈ r.silos, a.id ≠ s.id ∧ r.predecessor? s = some a ∧ r.successor? a = some m
  /-- As many steps as the ring has silos lead past all others, past each of them once, and back.  From where
  the ring has the silo, the distances add up to the whole ring, or to nothing if all share one hash. -/
  turn : ∃ others, r.walk s r.size = s :: others ++ [m] ∧
    (m :: others).Perm r.silos ∧ ((m :: others).map Silo.id).Nodup ∧
    travel (m :: others ++ [m]) = if r.Flat then 0 else ringSize

theorem Ordered.leadsAround (h : r.Ordered) (hsize : 2 ≤ r.size) (hm : m ∈ r.silos)
    (hid : m.id = s.id) : r.LeadsAround s m where
  listed a := by
    constructor
    · rintro ⟨ha, haid⟩
      exact h.eq_of_id ha hm (haid.trans hid.symm)
    · rintro rfl
      exact ⟨hm, hid⟩
  next := by
    obtain ⟨b, hmb⟩ := exists_adjacent_after hm hsize
    have hother : b.id ≠ s.id := fun heq => hmb.id_ne h (hid.trans heq.symm)
    exact ⟨b, hmb.right_mem, hother, successor?_of_adjacent h hmb hid,
      predecessor?_of_adjacent h hmb rfl⟩
  previous := by
    obtain ⟨a, ham⟩ := exists_adjacent_before hm hsize
    have hother : a.id ≠ s.id := fun heq => ham.id_ne h (heq.trans hid.symm)
    exact ⟨a, ham.left_mem, hother, predecessor?_of_adjacent h ham hid,
      successor?_of_adjacent h ham rfl⟩
  turn := by
    obtain ⟨front, back, hsilos⟩ := List.append_of_mem hm
    have hperm : (m :: (back ++ front)).Perm r.silos := by
      rw [hsilos, ← List.cons_append]
      exact List.perm_append_comm
    have hshape : m :: (back ++ front) ++ [m] = m :: back ++ (front ++ [m]) := by simp
    have hchain : (m :: (back ++ front ++ [m])).IsChain r.Adjacent := by
      rw [← List.cons_append, hshape]
      exact isChain_turn hsilos hsize
    have hlength : (back ++ front ++ [m]).length = r.size := by
      simp only [size, hsilos, List.length_append, List.length_cons, List.length_nil]
      omega
    have hwalk := walk_of_isChain h hchain hid
    rw [hlength] at hwalk
    refine ⟨back ++ front, hwalk, hperm, ?_, ?_⟩
    · exact (hperm.map Silo.id).nodup_iff.mpr (List.pairwise_map.mpr h.distinct)
    · rw [hshape]
      exact travel_turn h hsilos hsize

end Ring

/-- Whatever ring has been reached: on a ring of several silos the neighbours of a member lead around it in
one full turn, wherever the member is named; anybody else has no neighbours, and nobody has any on a smaller
ring. -/
theorem neighbours_lead_around {r : Ring} {ids : Finset SiloId} (h : r.Made ids) (s : Silo) :
    (s.id ∈ ids → 2 ≤ r.size → ∃ m, r.LeadsAround s m) ∧
      (s.id ∉ ids ∨ r.size < 2 → r.predecessor? s = none ∧ r.successor? s = none) := by
  constructor
  · intro hmember hsize
    obtain ⟨m, hm, hid⟩ := Ring.contains_eq_true_iff.mp ((h.agrees.contains_iff s).mpr hmember)
    exact ⟨m, h.agrees.ordered.leadsAround hsize hm hid⟩
  · rintro (hother | hsize)
    · have hcontains := (h.agrees.contains_eq_false_iff s).mpr hother
      exact ⟨Ring.predecessor?_of_not_contains hcontains, Ring.successor?_of_not_contains hcontains⟩
    · exact ⟨Ring.predecessor?_of_size_lt hsize, Ring.successor?_of_size_lt hsize⟩

/-- From the middle one of three silos, named at another place: the turn crosses zero and the seam, and two
silos on it are at one place. -/
theorem neighbours_lead_around_sharedPlace :
    let ring := Ring.ofList sharedPlace
    let s : Silo := ⟨⟨.v4 1 3, 1⟩, 7⟩
    let m : Silo := ⟨⟨.v4 1 3, 1⟩, 0xffffffff⟩
    let others : List Silo := [⟨⟨.v4 1 1, 1⟩, 10⟩, ⟨⟨.v4 1 2, 1⟩, 0xffffffff⟩]
    ring.Made (sharedPlace.map Silo.id).toFinset ∧ s.id ∈ (sharedPlace.map Silo.id).toFinset ∧ 2 ≤ ring.size ∧
      (∃ listed, ring.LeadsAround s listed) ∧
      ring.walk s 3 = s :: others ++ [m] ∧ Ring.travel (m :: others ++ [m]) = 2 ^ 32 ∧
      ring.successor? ⟨⟨.v4 1 4, 1⟩, 10⟩ = none := by
  have hmade := Ring.made_ofList sharedPlace
  have hmember : (⟨.v4 1 3, 1⟩ : SiloId) ∈ (sharedPlace.map Silo.id).toFinset := by decide
  have hsize : 2 ≤ (Ring.ofList sharedPlace).size := by decide
  have hother : (⟨.v4 1 4, 1⟩ : SiloId) ∉ (sharedPlace.map Silo.id).toFinset := by decide
  exact ⟨hmade, hmember, hsize, (neighbours_lead_around hmade _).1 hmember hsize, by decide, by decide,
    ((neighbours_lead_around hmade _).2 (.inl hother)).2⟩

/-- A silo that is named at another place than the ring has it at measures its first step from there. -/
example : Ring.travel ((Ring.ofList sharedPlace).walk ⟨⟨.v4 1 3, 1⟩, 7⟩ 3) = 2 ^ 32 - 8 := by decide

end GrainDirectory

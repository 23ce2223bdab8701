import GrainDirectory.Proofs.Ring.Placement
set_option autoImplicit false

/-!
# How many positions a silo owns

The share of a silo is the number of positions that belong to it.  On a ring in order these are the
positions after the silo before it, up to its own; for the first silo they go on from behind the last one.
The resolver takes the distance from the predecessor for the share, and that is what it is
(`Ring.share_of_append`, `Ring.share_of_cons`) but for two cases.  If all silos of a ring are at one
place, the first of them owns everything, at distance zero from its predecessor.  And the distance is
taken to the place of the own silo, which need not be where the ring has it.

The main statement is `Resolver.range_is_share`.
-/

namespace GrainDirectory

/-! ## Places and distances -/

theorem Silo.position_toInt (s : Silo) :
    s.position.toInt = if s.hash.toNat < 2 ^ 31 then (s.hash.toNat : Int)
      else (s.hash.toNat : Int) - 2 ^ 32 := by
  have hlt : s.hash.toNat < 2 ^ 32 := s.hash.toNat_lt
  have hcond := BitVec.toInt_eq_toNat_cond s.hash.toBitVec
  have hnat : s.hash.toBitVec.toNat = s.hash.toNat := rfl
  have hint : s.position.toInt = s.hash.toBitVec.toInt := rfl
  rw [hint, hcond, hnat]
  split <;> split <;> omega

theorem Silo.hash_eq_of_position {a b : Silo} (h : a.position.toInt = b.position.toInt) :
    a.hash = b.hash := by
  have hla : a.hash.toNat < 2 ^ 32 := a.hash.toNat_lt
  have hlb : b.hash.toNat < 2 ^ 32 := b.hash.toNat_lt
  rw [position_toInt, position_toInt] at h
  rw [← UInt32.toNat_inj]
  split at h <;> split at h <;> omega

/-- The distance between two places does not depend on where the signed numbers begin. -/
theorem Ring.distance_eq (a b : Silo) :
    (Ring.distance a b : Int) =
      if a.position.toInt ≤ b.position.toInt then b.position.toInt - a.position.toInt
      else 2 ^ 32 - (a.position.toInt - b.position.toInt) := by
  have ha := a.position_toInt
  have hb := b.position_toInt
  have hla : a.hash.toNat < 2 ^ 32 := a.hash.toNat_lt
  have hlb : b.hash.toNat < 2 ^ 32 := b.hash.toNat_lt
  have hsize : ringSize = 2 ^ 32 := rfl
  unfold Ring.distance
  rw [hsize]
  split at ha <;> split at hb <;> split <;> split <;> omega

theorem Ring.distance_lt (a b : Silo) : Ring.distance a b < ringSize := by
  have hlb : b.hash.toNat < 2 ^ 32 := b.hash.toNat_lt
  have hsize : ringSize = 2 ^ 32 := rfl
  unfold Ring.distance
  rw [hsize]
  split <;> omega

/-- From one silo, different places are at different distances. -/
theorem Ring.distance_inj {a b b' : Silo} :
    Ring.distance a b = Ring.distance a b' ↔ b.hash = b'.hash := by
  have hla : a.hash.toNat < 2 ^ 32 := a.hash.toNat_lt
  have hlb : b.hash.toNat < 2 ^ 32 := b.hash.toNat_lt
  have hlb' : b'.hash.toNat < 2 ^ 32 := b'.hash.toNat_lt
  have hsize : ringSize = 2 ^ 32 := rfl
  rw [← UInt32.toNat_inj]
  unfold Ring.distance
  rw [hsize]
  split <;> split <;> omega

/-- Nobody stands before the least of some silos. -/
theorem Silo.Least.not_before {silos : List Silo} {s a : Silo} (h : Least silos s) (ha : a ∈ silos) :
    ¬ a.Before s := by
  rcases h.2 a ha with rfl | hafter
  · exact before_irrefl a
  · exact before_asymm hafter

/-- Positions are the numbers of thirty-two bits. -/
theorem card_positions (P : Int → Prop) [DecidablePred P] :
    (Finset.univ.filter fun p : Int32 => P p.toInt).card =
      ((Finset.Ico (-2 ^ 31 : Int) (2 ^ 31)).filter P).card := by
  refine Finset.card_bij (fun p _ => p.toInt) (fun p hp => ?_) (fun p _ p' _ h => ?_) fun x hx => ?_
  · rw [Finset.mem_filter, Finset.mem_Ico]
    exact ⟨⟨p.le_toInt, p.toInt_lt⟩, (Finset.mem_filter.mp hp).2⟩
  · exact Int32.toInt_inj.mp h
  · rw [Finset.mem_filter, Finset.mem_Ico] at hx
    have hback : (Int32.ofInt x).toInt = x := Int32.toInt_ofInt_of_le hx.1.1 hx.1.2
    refine ⟨Int32.ofInt x, Finset.mem_filter.mpr ⟨Finset.mem_univ _, ?_⟩, hback⟩
    rw [hback]
    exact hx.2

theorem card_univ_positions : (Finset.univ : Finset Int32).card = ringSize := by
  have h := card_positions fun _ => True
  rw [Finset.filter_true, Finset.filter_true, Int.card_Ico] at h
  exact h

/-- The positions after one of two numbers, up to the other. -/
theorem card_positions_between {x y : Int} (hx : -2 ^ 31 ≤ x) (hy : y < 2 ^ 31) :
    (Finset.univ.filter fun p : Int32 => x < p.toInt ∧ p.toInt ≤ y).card = (y - x).toNat := by
  have hfilter : (Finset.Ico (-2 ^ 31 : Int) (2 ^ 31)).filter (fun p => x < p ∧ p ≤ y) =
      Finset.Ioc x y := by
    ext p
    simp only [Finset.mem_filter, Finset.mem_Ico, Finset.mem_Ioc]
    omega
  rw [card_positions fun p => x < p ∧ p ≤ y, hfilter, Int.card_Ioc]

/-- All other positions. -/
theorem card_positions_outside {x y : Int} (hx : -2 ^ 31 ≤ x) (hy : y < 2 ^ 31) :
    (Finset.univ.filter fun p : Int32 => p.toInt ≤ x ∨ y < p.toInt).card =
      ringSize - (y - x).toNat := by
  have hnot : (Finset.univ.filter fun p : Int32 => p.toInt ≤ x ∨ y < p.toInt) =
      Finset.univ.filter fun p : Int32 => ¬ (x < p.toInt ∧ p.toInt ≤ y) := by
    refine Finset.filter_congr fun p _ => ?_
    omega
  have hall := Finset.card_filter_add_card_filter_not (s := Finset.univ)
    fun p : Int32 => x < p.toInt ∧ p.toInt ≤ y
  rw [card_positions_between hx hy, card_univ_positions] at hall
  rw [hnot]
  omega

namespace Ring

variable {r : Ring} {s a b first last : Silo} {front back rest init : List Silo} {p : Int32}

/-! ## Who owns a position -/

/-- Whether a position belongs to a silo, wherever on the ring the silo is. -/
def Gives (r : Ring) (s : Silo) (p : Int32) : Prop := ∃ m ∈ r.owner? p none, m.id = s.id

instance (r : Ring) (s : Silo) : DecidablePred (r.Gives s) := fun p =>
  inferInstanceAs (Decidable (∃ m ∈ r.owner? p none, m.id = s.id))

/-- How many positions belong to a silo. -/
def share (r : Ring) (s : Silo) : Nat := (Finset.univ.filter (r.Gives s)).card

theorem mem_of_owner? (h : r.owner? p none = some s) : s ∈ r.silos := by
  rw [owner?_eq_head?, candidates_none] at h
  exact Silo.mem_of_mem_contenders (List.mem_of_mem_head? h)

theorem gives_iff (h : r.Ordered) (hs : s ∈ r.silos) : r.Gives s p ↔ r.owner? p none = some s := by
  constructor
  · rintro ⟨m, hm, hid⟩
    rw [← h.eq_of_id (mem_of_owner? hm) hs hid]
    exact hm
  · exact fun howner => ⟨s, howner, rfl⟩

theorem position_le_of_cons (h : r.Ordered) (hfirst : r.silos = first :: rest) (hs : s ∈ r.silos) :
    first.position.toInt ≤ s.position.toInt := by
  have hsorted := h.sorted
  rw [hfirst, List.pairwise_cons] at hsorted
  rw [hfirst, List.mem_cons] at hs
  rcases hs with rfl | hs
  · exact Int.le_refl _
  · exact Silo.position_le_of_before (hsorted.1 s hs)

theorem position_le_of_concat (h : r.Ordered) (hlast : r.silos = init ++ [last]) (hs : s ∈ r.silos) :
    s.position.toInt ≤ last.position.toInt := by
  have hsorted := h.sorted
  rw [hlast, List.pairwise_append] at hsorted
  rw [hlast, List.mem_append, List.mem_singleton] at hs
  rcases hs with hs | rfl
  · exact Silo.position_le_of_before (hsorted.2.2 s hs last (List.mem_singleton_self last))
  · exact Int.le_refl _

/-- A silo owns the positions after the silo before it, up to its own. -/
theorem owner?_iff_of_append (h : r.Ordered) (hsilos : r.silos = front ++ a :: b :: back) :
    r.owner? p none = some b ↔ a.position.toInt < p.toInt ∧ p.toInt ≤ b.position.toInt := by
  have hsorted := h.sorted
  rw [hsilos, List.pairwise_append, List.pairwise_cons, List.pairwise_cons] at hsorted
  obtain ⟨-, ⟨ha, hb, -⟩, hfront⟩ := hsorted
  have hab : a.Before b := ha b List.mem_cons_self
  have hmem (x : Silo) : x ∈ Silo.atOrAfter p r.silos ↔ x ∈ r.silos ∧ p.toInt ≤ x.position.toInt := by
    simp [Silo.atOrAfter]
  have hamem : a ∈ r.silos := by simp [hsilos]
  have hbmem : b ∈ r.silos := by simp [hsilos]
  rw [owner?_eq_some_iff h, candidates_none, Silo.Receives, Silo.contenders]
  constructor
  · intro hleast
    split at hleast
    · exact absurd hab (hleast.not_before hamem)
    · refine ⟨?_, ((hmem b).mp hleast.1).2⟩
      by_contra hle
      have hcontends : a ∈ Silo.atOrAfter p r.silos := (hmem a).mpr ⟨hamem, by omega⟩
      exact absurd hab (hleast.not_before hcontends)
  · rintro ⟨hlt, hle⟩
    have hcontends : b ∈ Silo.atOrAfter p r.silos := (hmem b).mpr ⟨hbmem, hle⟩
    rw [if_neg (List.ne_nil_of_mem hcontends)]
    refine ⟨hcontends, fun m hm => ?_⟩
    obtain ⟨hm, hpm⟩ := (hmem m).mp hm
    rw [hsilos, List.mem_append, List.mem_cons, List.mem_cons] at hm
    rcases hm with hm | rfl | rfl | hm
    · have hma := Silo.position_le_of_before (hfront m hm a List.mem_cons_self)
      omega
    · omega
    · exact .inl rfl
    · exact .inr (hb m hm)

/-- The first silo owns the positions up to its own, and those behind the last silo. -/
theorem owner?_iff_of_cons (h : r.Ordered) (hfirst : r.silos = first :: rest)
    (hlast : r.silos = init ++ [last]) :
    r.owner? p none = some first ↔
      p.toInt ≤ first.position.toInt ∨ last.position.toInt < p.toInt := by
  have hmem (x : Silo) : x ∈ Silo.atOrAfter p r.silos ↔ x ∈ r.silos ∧ p.toInt ≤ x.position.toInt := by
    simp [Silo.atOrAfter]
  have hleading : Silo.Least r.silos first :=
    (Silo.head?_eq_some_iff_least h.sorted).mp (by rw [hfirst, List.head?_cons])
  have hlastmem : last ∈ r.silos := by simp [hlast]
  rw [owner?_eq_some_iff h, candidates_none, Silo.Receives, Silo.contenders]
  constructor
  · intro hleast
    split at hleast
    · rename_i hnone
      refine .inr ?_
      by_contra hle
      exact List.ne_nil_of_mem ((hmem last).mpr ⟨hlastmem, by omega⟩) hnone
    · exact .inl ((hmem first).mp hleast.1).2
  · intro hp
    split
    · exact hleading
    · rename_i hsome
      obtain ⟨x, hx⟩ := List.exists_mem_of_ne_nil _ hsome
      have hbehind : p.toInt ≤ last.position.toInt := by
        have hxlast := position_le_of_concat h hlast ((hmem x).mp hx).1
        have hpx := ((hmem x).mp hx).2
        omega
      refine ⟨(hmem first).mpr ⟨hleading.1, by omega⟩, fun m hm => ?_⟩
      exact hleading.2 m ((hmem m).mp hm).1

/-! ## Shares -/

theorem share_of_append (h : r.Ordered) (hsilos : r.silos = front ++ a :: b :: back) :
    r.share b = distance a b := by
  have hbmem : b ∈ r.silos := by simp [hsilos]
  have hab : a.position.toInt ≤ b.position.toInt := by
    have hsorted := h.sorted
    rw [hsilos, List.pairwise_append, List.pairwise_cons] at hsorted
    exact Silo.position_le_of_before (hsorted.2.1.1 b List.mem_cons_self)
  have hgives : r.Gives b = fun p : Int32 =>
      a.position.toInt < p.toInt ∧ p.toInt ≤ b.position.toInt :=
    funext fun p => propext ((gives_iff h hbmem).trans (owner?_iff_of_append h hsilos))
  have hcard := card_positions_between a.position.le_toInt b.position.toInt_lt
  have hdistance := distance_eq a b
  rw [if_pos hab] at hdistance
  simp only [share, hgives, hcard]
  omega

theorem share_of_cons (h : r.Ordered) (hfirst : r.silos = first :: rest)
    (hlast : r.silos = init ++ [last]) :
    r.share first = ringSize - (last.position.toInt - first.position.toInt).toNat := by
  have hmem : first ∈ r.silos := by simp [hfirst]
  have hgives : r.Gives first = fun p : Int32 =>
      p.toInt ≤ first.position.toInt ∨ last.position.toInt < p.toInt :=
    funext fun p => propext ((gives_iff h hmem).trans (owner?_iff_of_cons h hfirst hlast))
  have hcard := card_positions_outside first.position.le_toInt last.position.toInt_lt
  simp only [share, hgives, hcard]

theorem share_eq_of_id (r : Ring) (hid : a.id = b.id) : r.share a = r.share b := by
  have hgives : r.Gives a = r.Gives b := funext fun p => by simp only [Gives, hid]
  simp only [share, hgives]

theorem share_of_not_contains (h : r.contains s = false) : r.share s = 0 := by
  rw [share, Finset.card_eq_zero, Finset.filter_eq_empty_iff]
  rintro p - ⟨m, hm, hid⟩
  exact contains_eq_false_iff.mp h m (mem_of_owner? hm) hid

/-- Every position belongs to one of the silos, if there are any. -/
theorem sum_share (h : r.Ordered) (hmembers : r.isEmpty = false) :
    (r.silos.map r.share).sum = ringSize := by
  have hnodup : r.silos.Nodup := h.distinct.imp fun hne heq => hne (congrArg Silo.id heq)
  have howner (p : Int32) : ∃ s, r.owner? p none = some s := by
    refine Option.ne_none_iff_exists'.mp (mt owner?_eq_none_iff.mp ?_)
    rw [candidates_none]
    exact List.isEmpty_eq_false_iff.mp hmembers
  let ownerOf : Int32 → Silo := fun p => (r.owner? p none).getD default
  have hownerOf (p : Int32) : r.owner? p none = some (ownerOf p) := by
    obtain ⟨s, hs⟩ := howner p
    simp only [ownerOf, hs, Option.getD_some]
  have hmaps : Set.MapsTo ownerOf ↑(Finset.univ : Finset Int32) ↑r.silos.toFinset := fun p _ =>
    List.mem_toFinset.mpr (mem_of_owner? (hownerOf p))
  have hfiber : ∀ s ∈ r.silos.toFinset,
      (Finset.univ.filter fun p => ownerOf p = s).card = r.share s := by
    intro s hs
    refine congrArg Finset.card (Finset.filter_congr fun p _ => ?_)
    rw [gives_iff h (List.mem_toFinset.mp hs), hownerOf p, Option.some.injEq]
  rw [← List.sum_toFinset r.share hnodup, ← Finset.sum_congr rfl hfiber,
    ← Finset.card_eq_sum_card_fiberwise hmaps, card_univ_positions]

/-! ## Predecessors -/

theorem index?_of_append (h : r.Ordered) (hsilos : r.silos = front ++ b :: back) (hid : b.id = s.id) :
    r.index? s = some front.length := by
  have hdistinct := h.distinct
  rw [hsilos, List.pairwise_append] at hdistinct
  have hfront : front.findIdx? (fun m => m.id = s.id) = none := by
    rw [List.findIdx?_eq_none_iff]
    intro m hm
    exact decide_eq_false (hid ▸ hdistinct.2.2 m hm b List.mem_cons_self)
  rw [index?, hsilos, List.findIdx?_append, hfront, List.findIdx?_cons, if_pos (by simpa using hid)]
  simp

theorem index?_of_not_contains (h : r.contains s = false) : r.index? s = none := by
  rw [index?, List.findIdx?_eq_none_iff]
  exact fun m hm => decide_eq_false (contains_eq_false_iff.mp h m hm)

theorem predecessor?_of_append (h : r.Ordered) (hsilos : r.silos = front ++ a :: b :: back)
    (hid : b.id = s.id) : r.predecessor? s = some a := by
  have hsplit : r.silos = front ++ [a] ++ b :: back := by simp [hsilos]
  have hindex : r.index? s = some (front ++ [a]).length := index?_of_append h hsplit hid
  have hsize : r.size = front.length + back.length + 2 := by
    simp only [size, hsilos, List.length_append, List.length_cons]
    omega
  unfold predecessor?
  rw [hindex]
  dsimp only
  rw [if_neg (by omega), if_neg (by simp), hsilos]
  simp

/-- The predecessor of the first silo is the last. -/
theorem predecessor?_of_cons (h : r.Ordered) (hfirst : r.silos = first :: rest)
    (hlast : r.silos = init ++ [last]) (hsize : 2 ≤ r.size) (hid : first.id = s.id) :
    r.predecessor? s = some last := by
  have hsplit : r.silos = [] ++ first :: rest := hfirst
  have hindex : r.index? s = some 0 := index?_of_append h hsplit hid
  have hlength : r.size - 1 = init.length := by simp [size, hlast]
  unfold predecessor?
  rw [hindex]
  dsimp only
  rw [if_neg (by omega), if_pos rfl, hlength, hlast]
  simp

theorem predecessor?_of_size_lt (hsize : r.size < 2) : r.predecessor? s = none := by
  unfold predecessor?
  split
  · rfl
  · exact if_pos hsize

theorem predecessor?_of_not_contains (h : r.contains s = false) : r.predecessor? s = none := by
  rw [predecessor?, index?_of_not_contains h]

/-! ## Distances and shares -/

/-- Whether a ring has several silos, all of them at one place. -/
def Flat (r : Ring) : Prop := 2 ≤ r.size ∧ ∀ a ∈ r.silos, ∀ b ∈ r.silos, a.hash = b.hash

instance (r : Ring) : Decidable r.Flat := inferInstanceAs (Decidable (_ ∧ _))

theorem share_of_alone (h : r.Ordered) (hs : s ∈ r.silos) (hsize : r.size = 1) :
    r.share s = ringSize := by
  obtain ⟨x, hx⟩ := List.length_eq_one_iff.mp hsize
  rw [hx, List.mem_singleton] at hs
  subst hs
  have hlast : r.silos = [] ++ [s] := hx
  rw [share_of_cons h hx hlast]
  simp

/-- The first silo is at another place than the last one, unless the ring is flat. -/
theorem flat_of_position_le (h : r.Ordered) (hfirst : r.silos = first :: rest)
    (hlast : r.silos = init ++ [last]) (hsize : 2 ≤ r.size)
    (hle : last.position.toInt ≤ first.position.toInt) : r.Flat := by
  have hsame : ∀ m ∈ r.silos, m.position.toInt = first.position.toInt := by
    intro m hm
    have hlow := position_le_of_cons h hfirst hm
    have hhigh := position_le_of_concat h hlast hm
    omega
  refine ⟨hsize, fun a ha b hb => ?_⟩
  exact Silo.hash_eq_of_position ((hsame a ha).trans (hsame b hb).symm)

/-- The share of a silo is its distance from its predecessor, unless it is the first on a flat ring: then
it is everything. -/
theorem share_eq (h : r.Ordered) (hs : s ∈ r.silos) (hsize : 2 ≤ r.size) :
    ∃ previous ∈ r.silos, (∀ m : Silo, s.id = m.id → r.predecessor? m = some previous) ∧
      r.share s =
        if r.Flat ∧ r.silos.head? = some s then ringSize else distance previous s := by
  obtain ⟨before, back, hsilos⟩ := List.append_of_mem hs
  rcases List.eq_nil_or_concat' before with rfl | ⟨front, a, rfl⟩
  · rw [List.nil_append] at hsilos
    obtain hnil | ⟨init, last, hlast⟩ := List.eq_nil_or_concat' r.silos
    · rw [hnil] at hs
      cases hs
    · have hlastmem : last ∈ r.silos := by simp [hlast]
      have hhead : r.silos.head? = some s := by rw [hsilos, List.head?_cons]
      refine ⟨last, hlastmem, fun m => predecessor?_of_cons h hsilos hlast hsize, ?_⟩
      rw [share_of_cons h hsilos hlast]
      have hdistance := distance_eq last s
      by_cases hflat : r.Flat
      · have hhash : last.hash = s.hash := hflat.2 last hlastmem s hs
        rw [if_pos ⟨hflat, hhead⟩, Silo.position, Silo.position, hhash]
        simp
      · have hlt : ¬ last.position.toInt ≤ s.position.toInt := fun hle =>
          hflat (flat_of_position_le h hsilos hlast hsize hle)
        rw [if_neg hlt] at hdistance
        have hrange := last.position.toInt_lt
        have hrange' := s.position.le_toInt
        have hring : ringSize = 2 ^ 32 := rfl
        rw [if_neg fun hf => hflat hf.1]
        omega
  · have hadjacent : r.silos = front ++ a :: s :: back := by simp [hsilos]
    have hamem : a ∈ r.silos := by simp [hadjacent]
    have hhead : r.silos.head? ≠ some s := by
      intro hhead
      have hleast := (Silo.head?_eq_some_iff_least h.sorted).mp hhead
      have hsorted := h.sorted
      rw [hadjacent, List.pairwise_append, List.pairwise_cons] at hsorted
      exact hleast.not_before hamem (hsorted.2.1.1 s List.mem_cons_self)
    refine ⟨a, hamem, fun m => predecessor?_of_append h hadjacent, ?_⟩
    rw [if_neg fun hf => hhead hf.2]
    exact share_of_append h hadjacent

end Ring

/-! ## What a resolver takes for its share -/

namespace Resolver

variable {q : Resolver}

theorem ownedRange_of_predecessor {previous : Silo}
    (h : q.ring.predecessor? q.home = some previous) :
    q.ownedRange = Ring.distance previous q.home := by
  rw [ownedRange, h]

theorem ownedRange_of_none (h : q.ring.predecessor? q.home = none) :
    q.ownedRange = if q.ring.contains q.home then ringSize else 0 := by
  rw [ownedRange, h]
  rfl

/-- The range is the share for a silo that is not on the ring, or is alone on it, or is where the ring has
it, unless it is the first on a flat ring; and for no other. -/
theorem ownedRange_eq_share_iff (h : q.ring.Ordered) :
    q.ownedRange = q.ring.share q.home ↔
      q.ring.contains q.home = false ∨ q.ring.size = 1 ∨
        q.home ∈ q.ring.silos ∧ ¬ (q.ring.Flat ∧ q.ring.silos.head? = some q.home) := by
  cases hcontains : q.ring.contains q.home with
  | false =>
    rw [ownedRange_of_none (Ring.predecessor?_of_not_contains hcontains), hcontains,
      Ring.share_of_not_contains hcontains]
    exact iff_of_true rfl (.inl rfl)
  | true =>
    obtain ⟨m, hm, hid⟩ := Ring.contains_eq_true_iff.mp hcontains
    have hpositive : 0 < q.ring.size := List.length_pos_of_mem hm
    rw [← Ring.share_eq_of_id q.ring hid]
    by_cases hsize : q.ring.size = 1
    · rw [ownedRange_of_none (Ring.predecessor?_of_size_lt (by omega)), hcontains, if_pos rfl,
        Ring.share_of_alone h hm hsize]
      exact iff_of_true rfl (.inr (.inl hsize))
    · obtain ⟨previous, -, hprevious, hshare⟩ := Ring.share_eq h hm (by omega)
      have hless := Ring.distance_lt previous q.home
      rw [ownedRange_of_predecessor (hprevious q.home hid), hshare]
      simp only [Bool.true_eq_false, hsize, false_or]
      by_cases hhome : q.home ∈ q.ring.silos
      · obtain rfl : m = q.home := h.eq_of_id hm hhome hid
        split
        · rename_i hfirst
          exact iff_of_false (Nat.ne_of_lt hless) fun hr => hr.2 hfirst
        · rename_i hfirst
          exact iff_of_true rfl ⟨hhome, hfirst⟩
      · refine iff_of_false (fun heq => ?_) fun hr => hhome hr.1
        split at heq
        · exact Nat.ne_of_lt hless heq
        · -- At the distance of the member, the own silo would be the member.
          have hhash : q.home.hash = m.hash := Ring.distance_inj.mp heq
          have hsame : q.home = m := by
            cases hq : q.home
            cases m
            simp_all
          exact hhome (hsame ▸ hm)

/-- On a flat ring the range is nothing, and the share is everything for the first and nothing for the
others. -/
theorem ownedRange_of_flat (h : q.ring.Ordered) (hflat : q.ring.Flat) (hhome : q.home ∈ q.ring.silos) :
    q.ownedRange = 0 ∧
      q.ring.share q.home = if q.ring.silos.head? = some q.home then ringSize else 0 := by
  obtain ⟨previous, hmem, hprevious, hshare⟩ := Ring.share_eq h hhome hflat.1
  have hzero : Ring.distance previous q.home = 0 := by
    have hhash := hflat.2 previous hmem q.home hhome
    simp [Ring.distance, hhash]
  rw [ownedRange_of_predecessor (hprevious q.home rfl), hshare, hzero]
  simp [hflat]

/-- What a resolver takes for the share of its silo, and what the share is. -/
structure MeasuresShare (q : Resolver) : Prop where
  /-- The range is the number of positions that belong to the silo exactly if the silo is not on the ring,
  or is alone on it, or is where the ring has it and not the first of several at one place. -/
  exact : q.ownedRange = q.ring.share q.home ↔
    q.ring.contains q.home = false ∨ q.ring.size = 1 ∨
      q.home ∈ q.ring.silos ∧ ¬ (q.ring.Flat ∧ q.ring.silos.head? = some q.home)
  /-- For a silo that is not on the ring, both are zero. -/
  outside : q.ring.contains q.home = false → q.ownedRange = 0 ∧ q.ring.share q.home = 0
  /-- On a flat ring the range of every silo is zero, while the first owns all positions. -/
  flat : q.ring.Flat → q.home ∈ q.ring.silos → q.ownedRange = 0 ∧
    q.ring.share q.home = if q.ring.silos.head? = some q.home then ringSize else 0
  /-- The shares of the silos of a ring add up to all positions. -/
  whole : q.ring.isEmpty = false → (q.ring.silos.map q.ring.share).sum = ringSize
  /-- So do the ranges that they report, unless the ring is flat: then these are all zero. -/
  reported : q.ring.isEmpty = false →
    (q.ring.silos.map fun s => ({ q with home := s } : Resolver).ownedRange).sum =
      if q.ring.Flat then 0 else ringSize

theorem measuresShare_of_ordered (h : q.ring.Ordered) : MeasuresShare q where
  exact := ownedRange_eq_share_iff h
  outside hcontains := by
    have hshare := Ring.share_of_not_contains hcontains
    exact ⟨((ownedRange_eq_share_iff h).mpr (.inl hcontains)).trans hshare, hshare⟩
  flat hflat hhome := ownedRange_of_flat h hflat hhome
  whole hmembers := Ring.sum_share h hmembers
  reported hmembers := by
    by_cases hflat : q.ring.Flat
    · have hzero : ∀ s ∈ q.ring.silos, ({ q with home := s } : Resolver).ownedRange = 0 :=
        fun s hs => (ownedRange_of_flat (q := { q with home := s }) h hflat hs).1
      rw [List.map_congr_left hzero, if_pos hflat]
      simp
    · have hshare : ∀ s ∈ q.ring.silos,
          ({ q with home := s } : Resolver).ownedRange = q.ring.share s := fun s hs =>
        (ownedRange_eq_share_iff (q := { q with home := s }) h).mpr
          (.inr (.inr ⟨hs, fun hfirst => hflat hfirst.1⟩))
      rw [List.map_congr_left hshare, if_neg hflat]
      exact Ring.sum_share h hmembers

/-- Whatever ring has come out of additions and removals: the range that a resolver reports is the share of
its silo, but for the first of several silos at one place and for a silo that the ring has elsewhere. -/
theorem range_is_share (changes : List Ring.Change) (q : Resolver) :
    MeasuresShare { q with ring := Ring.ofChanges changes } :=
  measuresShare_of_ordered (Ring.ordered_ofChanges changes)

/-- Two silos at one place. -/
def twoAtOnePlace : List Silo := [⟨⟨.v4 1 1, 1⟩, 10⟩, ⟨⟨.v4 1 2, 1⟩, 10⟩]

/-- The first of two silos at one place owns all positions, and reports none. -/
theorem exists_unreported_share :
    ¬ ∀ (silos : List Silo) (q : Resolver), q.ring = Ring.ofList silos →
      q.ownedRange = q.ring.share q.home := by
  intro hall
  let q : Resolver :=
    { home := ⟨⟨.v4 1 1, 1⟩, 10⟩, seed := none, hopLimit := 2, ring := Ring.ofList twoAtOnePlace }
  have hflat : q.ring.Flat := by decide
  have hhead : q.ring.silos.head? = some q.home := by decide
  have heq := hall twoAtOnePlace q rfl
  rw [ownedRange_eq_share_iff (Ring.ordered_ofList twoAtOnePlace)] at heq
  rcases heq with hcontains | hsize | ⟨-, hfirst⟩
  · revert hcontains
    decide
  · revert hsize
    decide
  · exact hfirst ⟨hflat, hhead⟩

/-- A silo that the ring has at another place measures from there to where it is itself. -/
example :
    let home : Silo := ⟨⟨.v4 1 1, 1⟩, 10⟩
    let ring := Ring.ofList [⟨⟨.v4 1 1, 1⟩, 30⟩, ⟨⟨.v4 1 2, 1⟩, 50⟩]
    ({ home, seed := none, hopLimit := 2, ring } : Resolver).ownedRange = 2 ^ 32 - 40 ∧
      Ring.distance ⟨⟨.v4 1 2, 1⟩, 50⟩ ⟨⟨.v4 1 1, 1⟩, 30⟩ = 2 ^ 32 - 20 := by decide

end Resolver

end GrainDirectory

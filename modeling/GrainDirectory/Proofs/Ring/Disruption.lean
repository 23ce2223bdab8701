import GrainDirectory.Proofs.Ring.Placement
set_option autoImplicit false

/-!
# What a change of the ring moves

A silo that joins the ring takes positions over and gives none to others, and a silo that leaves gives
its own positions away and no others.  So no position ever goes from one silo to another while both are
on the ring.

The owner of a position is the first of some candidates at or after it, or else the first candidate of
all.  A silo that is put into a list, at whatever place, becomes the first that passes a test or leaves
the first as it was; that is all that is needed of the ring, and the wrap at its end is one more test.

The main statement is `membership_moves_least`.
-/

namespace GrainDirectory

namespace Ring

variable {r r' : Ring} {s : Silo}

/-- The first silo to pass a test, after a silo has been put into a list. -/
theorem find?_insert (front back : List Silo) (s : Silo) (p : Silo → Bool) :
    (front ++ s :: back).find? p = some s ∨ (front ++ s :: back).find? p = (front ++ back).find? p := by
  rw [List.find?_append, List.find?_append, List.find?_cons]
  cases front.find? p with
  | some a => exact .inr rfl
  | none =>
    cases p s with
    | true => exact .inl rfl
    | false => exact .inr rfl

/-- The first silo to pass a test, after others have been taken out of a list. -/
theorem find?_filter_of_find? (silos : List Silo) (p keep : Silo → Bool)
    (h : ∀ a, silos.find? p = some a → keep a = true) :
    (silos.filter keep).find? p = silos.find? p := by
  induction silos with
  | nil => rfl
  | cons a rest ih =>
    cases hpass : p a with
    | true =>
      have hkeep : keep a = true := h a (by rw [List.find?_cons, hpass])
      rw [List.filter_cons_of_pos hkeep, List.find?_cons, List.find?_cons, hpass]
    | false =>
      have hrest : (rest.filter keep).find? p = rest.find? p :=
        ih fun b hb => h b (by rw [List.find?_cons, hpass, hb])
      rw [List.filter_cons, List.find?_cons, hpass, ← hrest]
      split
      · rw [List.find?_cons, hpass]
      · rfl

theorem owner?_of_insert? (h : r.insert? s = some r') (position : Int32) (excluded : Option Silo) :
    r'.owner? position excluded = some s ∨
      r'.owner? position excluded = r.owner? position excluded := by
  obtain ⟨-, rfl⟩ := insert?_eq_some_iff.mp h
  have hfirst := find?_insert (r.silos.takeWhile fun m => m.Before s)
    (r.silos.dropWhile fun m => m.Before s) s
  rw [List.takeWhile_append_dropWhile] at hfirst
  unfold owner?
  rcases hfirst fun m => position.toInt ≤ m.position.toInt ∧ Eligible excluded m with hs | hsame
  · rw [hs]
    exact .inl rfl
  · rw [hsame]
    cases r.silos.find? fun m => position.toInt ≤ m.position.toInt ∧ Eligible excluded m with
    | some a => exact .inr rfl
    | none => exact hfirst fun m => Eligible excluded m

theorem owner?_of_erase?_of_ne (h : r.erase? s = some r') {position : Int32}
    {excluded : Option Silo}
    (hother : ∀ owner, r.owner? position excluded = some owner → owner.id ≠ s.id) :
    r'.owner? position excluded = r.owner? position excluded := by
  obtain ⟨-, rfl⟩ := erase?_eq_some_iff.mp h
  unfold owner? at hother ⊢
  dsimp only
  have hfirst := find?_filter_of_find? r.silos
    (fun m => position.toInt ≤ m.position.toInt ∧ Eligible excluded m) fun m => m.id ≠ s.id
  -- The first test decides alone when a silo passes it, before the change and so also after it.
  cases hafter : r.silos.find? fun m => position.toInt ≤ m.position.toInt ∧ Eligible excluded m with
  | some a =>
    rw [hafter] at hother hfirst
    rw [hfirst fun b hb => decide_eq_true (hother b hb)]
  | none =>
    rw [hafter] at hother hfirst
    rw [hfirst nofun]
    exact find?_filter_of_find? r.silos _ _ fun b hb => decide_eq_true (hother b hb)

/-- A silo that has owned a position gives it to no other silo that was on the ring before. -/
theorem owner?_eq_of_membership (h : r.insert? s = some r' ∨ r.erase? s = some r')
    {position : Int32} {excluded : Option Silo} {a b : Silo}
    (ha : r.owner? position excluded = some a) (hb : r'.owner? position excluded = some b)
    (hstays : r'.contains a = true) (hwas : r.contains b = true) : b = a := by
  rcases h with hinsert | herase
  · obtain ⟨hnew, -⟩ := insert?_eq_some_iff.mp hinsert
    rcases owner?_of_insert? hinsert position excluded with hs | hsame
    · cases hb.symm.trans hs
      rw [hnew] at hwas
      cases hwas
    · exact Option.some.inj (hb.symm.trans (hsame.trans ha))
  · have hne : a.id ≠ s.id := by
      obtain ⟨m, hm, hid⟩ := contains_eq_true_iff.mp hstays
      rw [← hid]
      exact ((mem_of_erase? herase).mp hm).2
    have hsame : r'.owner? position excluded = r.owner? position excluded :=
      owner?_of_erase?_of_ne herase fun owner howner => by
        cases howner.symm.trans ha
        exact hne
    exact Option.some.inj (hb.symm.trans (hsame.trans ha))

end Ring

/-- What a silo that joins or leaves a ring moves. -/
structure MovesLeast (r : Ring) (s : Silo) : Prop where
  /-- A silo that joins becomes the owner of a position, or the position keeps its owner. -/
  joined : ∀ r', r.insert? s = some r' → ∀ position excluded,
    r'.owner? position excluded = some s ∨ r'.owner? position excluded = r.owner? position excluded
  /-- When a silo leaves, every position keeps its owner that another silo owns. -/
  left : ∀ r', r.erase? s = some r' → ∀ position excluded,
    (∀ owner, r.owner? position excluded = some owner → owner.id ≠ s.id) →
      r'.owner? position excluded = r.owner? position excluded
  /-- No position goes from one silo to another while both are on the ring. -/
  kept : ∀ r', r.insert? s = some r' ∨ r.erase? s = some r' → ∀ position excluded a b,
    r.owner? position excluded = some a → r'.owner? position excluded = some b →
      r'.contains a = true → r.contains b = true → b = a
  /-- Nor does a grain in the eyes of a silo, whether the silo is running or draining. -/
  resolved : ∀ r', r.insert? s = some r' ∨ r.erase? s = some r' → ∀ (q : Resolver) (g : Grain),
    q.ring = r → g.isSystemTarget = false → ∀ a b, q.owner? g = .ok (some a) →
      ({ q with ring := r' } : Resolver).owner? g = .ok (some b) →
        r'.contains a = true → r.contains b = true → b = a

/-- A change of the ring moves no more than it must. -/
theorem membership_moves_least (r : Ring) (s : Silo) : MovesLeast r s where
  joined _ hinsert := Ring.owner?_of_insert? hinsert
  left _ herase _ _ hother := Ring.owner?_of_erase?_of_ne herase hother
  kept _ hchange _ _ _ _ ha hb hstays hwas := Ring.owner?_eq_of_membership hchange ha hb hstays hwas
  resolved r' hchange q g hq hg a b ha hb hstays hwas := by
    subst hq
    have hmembers : q.ring.isEmpty = false := by
      obtain ⟨m, hm, -⟩ := Ring.contains_eq_true_iff.mp hwas
      exact List.isEmpty_eq_false_iff.mpr (List.ne_nil_of_mem hm)
    have hmembers' : r'.isEmpty = false := by
      obtain ⟨m, hm, -⟩ := Ring.contains_eq_true_iff.mp hstays
      exact List.isEmpty_eq_false_iff.mpr (List.ne_nil_of_mem hm)
    rw [Resolver.owner?_of_ordinary hg hmembers, Except.ok.injEq] at ha
    rw [Resolver.owner?_of_ordinary hg hmembers', Except.ok.injEq] at hb
    exact Ring.owner?_eq_of_membership hchange ha hb hstays hwas

end GrainDirectory

import GrainDirectory.Ownership
import GrainDirectory.Proofs.Ring.Order
set_option autoImplicit false

/-!
# Where grains are placed

A position of the ring belongs to the least silo at or after it, and where there is none, to the least
of all silos; least is meant in ring order, and a silo that is draining is not counted.  On a ring in
order this is the first silo that is met, so the choice depends on the members alone, and all silos with
one ring make the same choice.

A search finds the owner by place, without a look at the silos in front of the position; when it comes
to the end of the ring, it has at most one silo to pass over.

The main statement is `placement_agreed`.
-/

namespace GrainDirectory

/-! ## The least of some silos -/

namespace Silo

/-- Whether a silo is the least of some silos in ring order. -/
def Least (silos : List Silo) (s : Silo) : Prop := s ∈ silos ∧ ∀ m ∈ silos, m = s ∨ s.Before m

/-- The silos at or after a position. -/
def atOrAfter (position : Int32) (silos : List Silo) : List Silo :=
  silos.filter fun s => position.toInt ≤ s.position.toInt

/-- The silos among which the owner of a position is the least: those at or after the position or, where
there are none, all. -/
def contenders (position : Int32) (silos : List Silo) : List Silo :=
  if atOrAfter position silos = [] then silos else atOrAfter position silos

/-- Whether a position belongs to a silo among some. -/
def Receives (silos : List Silo) (position : Int32) (s : Silo) : Prop :=
  Least (contenders position silos) s

instance (silos : List Silo) (s : Silo) : Decidable (Least silos s) :=
  inferInstanceAs (Decidable (_ ∧ _))

instance (silos : List Silo) (position : Int32) (s : Silo) :
    Decidable (Receives silos position s) := inferInstanceAs (Decidable (Least _ s))

theorem Least.unique {silos : List Silo} {s s' : Silo} (h : Least silos s) (h' : Least silos s') :
    s = s' :=
  (h'.2 s h.1).resolve_right fun hbefore' =>
    (h.2 s' h'.1).elim (fun heq => before_irrefl s (heq ▸ hbefore')) fun hbefore =>
      before_asymm hbefore hbefore'

theorem mem_of_mem_contenders {position : Int32} {silos : List Silo} {s : Silo}
    (h : s ∈ contenders position silos) : s ∈ silos := by
  unfold contenders at h
  split at h
  · exact h
  · exact List.mem_of_mem_filter h

/-- A silo that contends among some silos with another does so wherever both are. -/
theorem mem_contenders {position : Int32} {silos silos' : List Silo} {s s' : Silo}
    (h : s ∈ contenders position silos) (hs : s ∈ silos') (h' : s' ∈ contenders position silos')
    (hs' : s' ∈ silos) : s ∈ contenders position silos' := by
  have hafter {l : List Silo} {x : Silo} : x ∈ atOrAfter position l ↔
      x ∈ l ∧ position.toInt ≤ x.position.toInt := by
    simp [atOrAfter]
  by_cases hle : position.toInt ≤ s.position.toInt
  · -- Whoever is at or after the position contends everywhere.
    have hmem : s ∈ atOrAfter position silos' := hafter.mpr ⟨hs, hle⟩
    rw [contenders, if_neg (List.ne_nil_of_mem hmem)]
    exact hmem
  · have hnone : atOrAfter position silos = [] := by
      by_contra hsome
      rw [contenders, if_neg hsome] at h
      exact hle (hafter.mp h).2
    have hle' : ¬ position.toInt ≤ s'.position.toInt := fun hle' =>
      List.ne_nil_of_mem (hafter.mpr ⟨hs', hle'⟩) hnone
    unfold contenders at h' ⊢
    split at h'
    · rename_i hnone'
      rw [if_pos hnone']
      exact hs
    · exact absurd (hafter.mp h').2 hle'

/-- If a position belongs to one silo among some and to another among others, and each is among both, they
are the same. -/
theorem Receives.unique_of_mem {silos silos' : List Silo} {position : Int32} {s s' : Silo}
    (h : Receives silos position s) (h' : Receives silos' position s') (hs : s ∈ silos')
    (hs' : s' ∈ silos) : s = s' := by
  have hcontends : s ∈ contenders position silos' := mem_contenders h.1 hs h'.1 hs'
  have hcontends' : s' ∈ contenders position silos := mem_contenders h'.1 hs' h.1 hs
  rcases h.2 s' hcontends' with heq | hbefore
  · exact heq.symm
  · exact (h'.2 s hcontends).resolve_right (before_asymm hbefore)

/-- A position belongs to a silo that is alone. -/
theorem receives_of_forall_eq {silos : List Silo} {s : Silo} (position : Int32) (hs : s ∈ silos)
    (hall : ∀ x ∈ silos, x = s) : Receives silos position s := by
  unfold Receives contenders
  split
  · exact ⟨hs, fun m hm => .inl (hall m hm)⟩
  · rename_i hsome
    have hmem : ∀ x ∈ atOrAfter position silos, x = s := fun x hx =>
      hall x (List.mem_of_mem_filter hx)
    obtain ⟨a, ha⟩ := List.exists_mem_of_ne_nil _ hsome
    exact ⟨hmem a ha ▸ ha, fun m hm => .inl (hmem m hm)⟩

/-- The least of some silos in ring order is the first of them. -/
theorem head?_eq_some_iff_least {silos : List Silo} (h : silos.Pairwise Before) {s : Silo} :
    silos.head? = some s ↔ Least silos s := by
  have hfirst (a : Silo) (rest : List Silo) (h : (a :: rest).Pairwise Before) :
      Least (a :: rest) a := by
    refine ⟨List.mem_cons_self, fun m hm => ?_⟩
    rcases List.mem_cons.mp hm with rfl | hm
    · exact .inl rfl
    · exact .inr ((List.pairwise_cons.mp h).1 m hm)
  cases silos with
  | nil => simp [Least]
  | cons a rest =>
    rw [List.head?_cons, Option.some.injEq]
    exact ⟨fun heq => heq ▸ hfirst a rest h, fun hleast => (hfirst a rest h).unique hleast⟩

end Silo

namespace Ring

variable {r r' : Ring} {position : Int32} {excluded : Option Silo} {s : Silo}

/-! ## The owner of a position -/

/-- The silos that may own positions when `excluded` is left out. -/
def candidates (r : Ring) (excluded : Option Silo) : List Silo :=
  r.silos.filter fun s => Eligible excluded s

@[simp] theorem candidates_none (r : Ring) : r.candidates none = r.silos := by
  simp [candidates, Eligible]

theorem candidates_some (r : Ring) (e : Silo) :
    r.candidates (some e) = r.silos.filter fun s => s.id ≠ e.id := by
  simp [candidates, Eligible]

/-- The owner is the first candidate at or after the position, or else the first of all. -/
theorem owner?_eq_head? (r : Ring) (position : Int32) (excluded : Option Silo) :
    r.owner? position excluded = (Silo.contenders position (r.candidates excluded)).head? := by
  have hall : r.silos.find? (fun s => Eligible excluded s) = (r.candidates excluded).head? :=
    List.head?_filter.symm
  have hafter : r.silos.find? (fun s => position.toInt ≤ s.position.toInt ∧ Eligible excluded s) =
      (Silo.atOrAfter position (r.candidates excluded)).head? := by
    rw [candidates, Silo.atOrAfter, List.filter_filter, List.head?_filter]
    simp only [Bool.decide_and]
  rw [owner?, hall, hafter, Silo.contenders]
  cases Silo.atOrAfter position (r.candidates excluded) <;> simp

theorem owner?_eq_some_iff (h : r.Ordered) :
    r.owner? position excluded = some s ↔ Silo.Receives (r.candidates excluded) position s := by
  have hsorted : (r.candidates excluded).Pairwise Silo.Before := h.sorted.filter _
  rw [owner?_eq_head?, Silo.Receives, Silo.contenders]
  split
  · exact Silo.head?_eq_some_iff_least hsorted
  · exact Silo.head?_eq_some_iff_least (hsorted.filter _)

theorem owner?_eq_none_iff : r.owner? position excluded = none ↔ r.candidates excluded = [] := by
  rw [owner?_eq_head?, List.head?_eq_none_iff, Silo.contenders]
  split
  · exact Iff.rfl
  · rename_i hafter
    refine ⟨fun h => absurd h hafter, fun h => ?_⟩
    rw [h]
    rfl

/-- To leave a silo out of the choice is to take it off the ring. -/
theorem owner?_of_erase? {e : Silo} (h : r.erase? e = some r') (position : Int32) :
    r'.owner? position none = r.owner? position (some e) := by
  obtain ⟨-, rfl⟩ := erase?_eq_some_iff.mp h
  rw [owner?_eq_head?, owner?_eq_head?, candidates_none, candidates_some]

/-! ## The search for the owner -/

/-- Where on a ring in order the silos at or after a position begin. -/
def start (r : Ring) (position : Int32) : Nat :=
  r.silos.countP fun s => s.position.toInt < position.toInt

/-- How an owner is found by place: among the silos from `start` on, or, when the end of the ring has
been reached, as the first silo or, if the first is left out, the second. -/
def search? (r : Ring) (position : Int32) (excluded : Option Silo) : Option Silo :=
  match (r.silos.drop (r.start position)).find? fun s => Eligible excluded s with
  | some s => some s
  | none =>
    match r.silos.head? with
    | none => none
    | some first => if Eligible excluded first then some first else r.silos[1]?

/-- On a ring in order the silos at or after a position are those from a place on. -/
theorem drop_start (h : r.silos.Pairwise Silo.Before) (position : Int32) :
    r.silos.drop (r.start position) = Silo.atOrAfter position r.silos := by
  obtain ⟨silos⟩ := r
  unfold start Silo.atOrAfter
  dsimp only at h ⊢
  induction silos with
  | nil => rfl
  | cons a rest ih =>
    obtain ⟨ha, hrest⟩ := List.pairwise_cons.mp h
    by_cases hlt : a.position.toInt < position.toInt
    · have hnot : ¬ position.toInt ≤ a.position.toInt := by omega
      rw [List.countP_cons_of_pos (by simpa using hlt), List.drop_succ_cons,
        List.filter_cons_of_neg (by simpa using hnot), ih hrest]
    · -- From `a` on all silos are at or after the position.
      have hall : ∀ m ∈ a :: rest, position.toInt ≤ m.position.toInt := by
        intro m hm
        rcases List.mem_cons.mp hm with rfl | hm
        · omega
        · have := Silo.position_le_of_before (ha m hm)
          omega
      have hnone : (a :: rest).countP (fun s => decide (s.position.toInt < position.toInt)) = 0 :=
        List.countP_eq_zero.mpr fun m hm => by simpa using hall m hm
      rw [hnone, List.drop_zero, List.filter_eq_self.mpr fun m hm => decide_eq_true (hall m hm)]

theorem search?_eq_owner? (h : r.Ordered) (position : Int32) (excluded : Option Silo) :
    r.search? position excluded = r.owner? position excluded := by
  have hafter : (r.silos.drop (r.start position)).find? (fun s => Eligible excluded s) =
      r.silos.find? (fun s => position.toInt ≤ s.position.toInt ∧ Eligible excluded s) := by
    rw [drop_start h.sorted, Silo.atOrAfter, List.find?_filter]
    simp only [Bool.decide_and, Bool.decide_eq_true]
  have hwrapped : r.silos.find? (fun s => Eligible excluded s) =
      match r.silos.head? with
      | none => none
      | some first => if Eligible excluded first then some first else r.silos[1]? := by
    obtain ⟨silos⟩ := r
    rcases silos with _ | ⟨first, _ | ⟨second, rest⟩⟩
    · rfl
    · simp
    · -- Only one silo is left out, and the second is another than the first.
      have hne : first.id ≠ second.id := (List.pairwise_cons.mp h.distinct).1 second List.mem_cons_self
      simp only [List.head?_cons]
      split
      · rename_i hfirst
        simp [hfirst]
      · rename_i hfirst
        have hsecond : Eligible excluded second := by
          intro e he heq
          refine hfirst fun e' he' hfirst' => hne ?_
          rw [Option.mem_unique he' he] at hfirst'
          exact hfirst'.trans heq.symm
        simp [hfirst, hsecond]
  rw [search?, owner?, hafter]
  cases r.silos.find? fun s => position.toInt ≤ s.position.toInt ∧ Eligible excluded s with
  | some s => rfl
  | none => exact hwrapped.symm

end Ring

/-! ## Resolvers -/

namespace Resolver

variable {q : Resolver} {g : Grain}

/-- The owner of an ordinary grain, while the ring has silos. -/
theorem owner?_of_ordinary (hg : g.isSystemTarget = false) (hring : q.ring.isEmpty = false) :
    q.owner? g = .ok (q.ring.owner? g.position (if q.running then none else some q.home)) := by
  simp [owner?, hg, ringOwner?, hring]

/-- While a silo is running, the owner of an ordinary grain is a matter of the ring alone. -/
theorem owner?_of_running (hg : g.isSystemTarget = false) (hring : q.ring.isEmpty = false)
    (hrunning : q.running = true) : q.owner? g = .ok (q.ring.owner? g.position none) := by
  rw [owner?_of_ordinary hg hring, if_pos hrunning]

end Resolver

/-- How all silos that have one ring place a grain. -/
structure Placement (r : Ring) (g : Grain) : Prop where
  /-- A silo that is running gives the grain to the silo of the ring that its position belongs to. -/
  running : ∀ q : Resolver, q.ring = r → q.running = true →
    ∃ owner, q.owner? g = .ok (some owner) ∧ Silo.Receives r.silos g.position owner
  /-- It does not matter which of them is asked. -/
  agreed : ∀ q q' : Resolver, q.ring = r → q'.ring = r → q.running = true → q'.running = true →
    q.owner? g = q'.owner? g
  /-- A silo that is draining chooses in the same way among the others. -/
  draining : ∀ q : Resolver, q.ring = r → q.running = false → (∃ m ∈ r.silos, m.id ≠ q.home.id) →
    ∃ owner, q.owner? g = .ok (some owner) ∧
      Silo.Receives (r.silos.filter fun m => m.id ≠ q.home.id) g.position owner
  /-- It finds nobody exactly if there are no others. -/
  alone : ∀ q : Resolver, q.ring = r → q.running = false →
    (q.owner? g = .ok none ↔ ∀ m ∈ r.silos, m.id = q.home.id)
  /-- What a draining silo chooses is what running silos choose that have taken it off the ring. -/
  departed : ∀ q q' : Resolver, q.ring = r → q.running = false → r.erase? q.home = some q'.ring →
    q'.ring.isEmpty = false → q'.running = true → q'.owner? g = q.owner? g
  /-- A position belongs to one silo only. -/
  unique : ∀ silos owner owner', Silo.Receives silos g.position owner →
    Silo.Receives silos g.position owner' → owner = owner'
  /-- The owner, whether a silo is left out or not, is the one that a search finds by place. -/
  found : ∀ excluded, r.search? g.position excluded = r.owner? g.position excluded

/-- Whatever ring has come out of additions and removals, the silos that have it agree on the owners of
ordinary grains, and the owner is the least silo at or after the grain. -/
theorem placement_agreed {changes : List Ring.Change}
    (hmembers : (Ring.ofChanges changes).isEmpty = false) {g : Grain}
    (hg : g.isSystemTarget = false) : Placement (Ring.ofChanges changes) g := by
  have hordered := Ring.ordered_ofChanges changes
  revert hmembers hordered
  generalize Ring.ofChanges changes = r
  intro hmembers hordered
  have howner {q : Resolver} (hq : q.ring = r) :
      q.owner? g = .ok (r.owner? g.position (if q.running then none else some q.home)) := by
    subst hq
    exact Resolver.owner?_of_ordinary hg hmembers
  have hfound (excluded : Option Silo) (h : r.candidates excluded ≠ []) :
      ∃ owner, r.owner? g.position excluded = some owner ∧
        Silo.Receives (r.candidates excluded) g.position owner := by
    obtain ⟨owner, hsome⟩ := Option.ne_none_iff_exists'.mp (mt Ring.owner?_eq_none_iff.mp h)
    exact ⟨owner, hsome, (Ring.owner?_eq_some_iff hordered).mp hsome⟩
  refine ⟨fun q hq hrun => ?_, fun q q' hq hq' hrun hrun' => ?_, fun q hq hrun hother => ?_,
    fun q hq hrun => ?_, fun q q' hq hrun herase hmembers' hrun' => ?_, fun _ _ _ => Silo.Least.unique,
    Ring.search?_eq_owner? hordered g.position⟩
  · obtain ⟨owner, hsome, hreceives⟩ := hfound none (by
      rw [Ring.candidates_none]
      exact List.isEmpty_eq_false_iff.mp hmembers)
    rw [Ring.candidates_none] at hreceives
    exact ⟨owner, by rw [howner hq, hrun, if_pos rfl, hsome], hreceives⟩
  · rw [howner hq, howner hq', hrun, hrun', if_pos rfl, if_pos rfl]
  · obtain ⟨owner, hsome, hreceives⟩ := hfound (some q.home) (by
      rw [Ring.candidates_some]
      obtain ⟨m, hm, hne⟩ := hother
      exact List.ne_nil_of_mem (List.mem_filter.mpr ⟨hm, decide_eq_true hne⟩))
    rw [Ring.candidates_some] at hreceives
    exact ⟨owner, by rw [howner hq, hrun, if_neg Bool.false_ne_true, hsome], hreceives⟩
  · rw [howner hq, hrun, if_neg Bool.false_ne_true, Except.ok.injEq, Ring.owner?_eq_none_iff,
      Ring.candidates_some, List.filter_eq_nil_iff]
    simp
  · rw [howner hq, Resolver.owner?_of_ordinary hg hmembers', hrun, hrun', if_pos rfl,
      if_neg Bool.false_ne_true, Ring.owner?_of_erase? herase]

/-- Silos come and go; the two that stay share a place below zero, and one of them has been offered at
another place too. -/
def sharedPlaceChanges : List Ring.Change :=
  [.add ⟨⟨.v4 1 1, 1⟩, 10⟩, .add ⟨⟨.v4 1 3, 1⟩, 0xffffffff⟩, .add ⟨⟨.v4 1 2, 1⟩, 0xffffffff⟩,
    .add ⟨⟨.v4 1 3, 1⟩, 10⟩, .remove ⟨⟨.v4 1 1, 1⟩, 10⟩]

theorem placement_agreed_sharedPlace :
    (Ring.ofChanges sharedPlaceChanges).isEmpty = false ∧
      (⟨⟨⟨"g"⟩, "k"⟩, 5⟩ : Grain).isSystemTarget = false ∧
      Placement (Ring.ofChanges sharedPlaceChanges) ⟨⟨⟨"g"⟩, "k"⟩, 5⟩ ∧
      (Ring.ofChanges sharedPlaceChanges).owner? 5 none = some ⟨⟨.v4 1 2, 1⟩, 0xffffffff⟩ :=
  ⟨by decide, by decide, placement_agreed (by decide) (by decide), by decide⟩

end GrainDirectory

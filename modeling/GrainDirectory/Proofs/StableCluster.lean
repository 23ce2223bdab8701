import GrainDirectory.Proofs.BatchRemoval
set_option autoImplicit false

/-!
# Clusters that have settled

In a stable cluster every service has the same ring, the ring is made of the services, and all of them
are running, active and attached.  Then everybody believes in the same owner of a grain, its site, and
the owner believes so too: an action comes to an end there after one forward at most, a batch has each
of its addresses removed there, and nothing fails.

The main statements are `Stable.call_action` and `Stable.call_batch`.
-/

namespace GrainDirectory

/-- A ring with silos on it gives every position to one of them. -/
theorem Ring.exists_owner {r : Ring} {silo : Silo} (h : silo ∈ r.silos) (position : Int32) :
    ∃ owner ∈ r.silos, r.owner? position none = some owner := by
  have heligible (s : Silo) : Ring.Eligible none s := fun _ he => nomatch he
  unfold Ring.owner?
  split
  · rename_i owner howner
    exact ⟨owner, List.mem_of_find?_eq_some howner, rfl⟩
  · cases hany : r.silos.find? fun s => Ring.Eligible none s with
    | some owner => exact ⟨owner, List.mem_of_find?_eq_some hany, rfl⟩
    | none =>
      have hnone := List.find?_eq_none.mp hany silo h
      exact absurd (decide_eq_true (heligible silo)) hnone

namespace Cluster

/-- Whether the services of a cluster have settled on a ring: all of them have this ring, it is made
of them, and all of them are running, attached and known to be active. -/
structure Stable (c : Cluster) (ring : Ring) : Prop where
  direct : c.wiring ≠ .framed
  shared : ∀ i < c.services.length, (c.service i).ring = ring
  members : ∀ silo, silo ∈ ring.silos ↔ ∃ i < c.services.length, (c.service i).home = silo
  running : ∀ i < c.services.length, (c.service i).running = true
  attached : ∀ i < c.services.length, c.reach? (c.service i).home = some i
  active : ∀ i < c.services.length, c.oracle.status (c.service i).home = .active
  valid : ∀ i < c.services.length, (c.service i).config.defect? = none

/-- The service that a position of a ring belongs to. -/
def site (c : Cluster) (ring : Ring) (position : Int32) : ServiceId :=
  ((ring.owner? position none).bind c.reach?).getD 0

theorem site_eq_of_outline {c c' : Cluster} (h : c'.outline = c.outline) (ring : Ring)
    (position : Int32) : c'.site ring position = c.site ring position := by
  have hreach : c'.reach? = c.reach? := funext (reach?_eq_of_outline h)
  rw [site, site, hreach]

namespace Stable

variable {c : Cluster} {ring : Ring} (h : Stable c ring)

include h

/-- Calls do not unsettle a cluster. -/
theorem of_outline {c' : Cluster} (hkeep : c'.outline = c.outline) : Stable c' ring := by
  have hlength := length_eq_of_outline hkeep
  have hhome := service_eq_of_outline hkeep Service.home fun _ => rfl
  have hring := service_eq_of_outline hkeep Service.ring fun _ => rfl
  have hrunning := service_eq_of_outline hkeep Service.running fun _ => rfl
  have hconfig := service_eq_of_outline hkeep Service.config fun _ => rfl
  have horacle : c'.oracle = c.oracle := congrArg Moment.oracle (moment_eq_of_outline hkeep)
  refine ⟨?_, fun i hi => ?_, fun silo => ?_, fun i hi => ?_, fun i hi => ?_, fun i hi => ?_,
    fun i hi => ?_⟩
  · rw [wiring_eq_of_outline hkeep]
    exact h.direct
  · rw [hring]
    exact h.shared i (hlength ▸ hi)
  · rw [h.members silo, hlength]
    simp only [hhome]
  · rw [hrunning]
    exact h.running i (hlength ▸ hi)
  · rw [reach?_eq_of_outline hkeep, hhome]
    exact h.attached i (hlength ▸ hi)
  · rw [horacle, hhome]
    exact h.active i (hlength ▸ hi)
  · rw [hconfig]
    exact h.valid i (hlength ▸ hi)

/-- Nor does time. -/
theorem elapse (time : Nat) : Stable (c.elapse time) ring :=
  ⟨h.direct, h.shared, h.members, h.running, h.attached, h.active, h.valid⟩

/-- The owner of a position is the silo of its site. -/
theorem owner?_eq (hn : 0 < c.services.length) (position : Int32) :
    c.site ring position < c.services.length ∧
      ring.owner? position none = some (c.service (c.site ring position)).home := by
  obtain ⟨owner, hmem, howner⟩ := Ring.exists_owner ((h.members _).mpr ⟨0, hn, rfl⟩) position
  obtain ⟨j, hj, rfl⟩ := (h.members owner).mp hmem
  have hsite : c.site ring position = j := by
    rw [site, howner, Option.bind_some, h.attached j hj]
    rfl
  rw [hsite]
  exact ⟨hj, howner⟩

/-- Everybody believes in the same owner of an ordinary grain. -/
theorem resolver_owner? {i : ServiceId} (hi : i < c.services.length) {g : Grain}
    (hg : g.isSystemTarget = false) :
    (c.service i).resolver.owner? g =
      .ok (some (c.service (c.site ring g.position)).home) := by
  have hn : 0 < c.services.length := Nat.zero_lt_of_lt hi
  obtain ⟨-, howner⟩ := h.owner?_eq hn g.position
  have hmember : (c.service 0).home ∈ ring.silos := (h.members _).mpr ⟨0, hn, rfl⟩
  have hempty : (c.service i).resolver.ring.isEmpty = false := by
    show (c.service i).ring.isEmpty = false
    rw [h.shared i hi]
    exact List.isEmpty_eq_false_iff.mpr (List.ne_nil_of_mem hmember)
  have hrunning : (c.service i).resolver.running = true := h.running i hi
  have hring : (c.service i).resolver.ring = ring := h.shared i hi
  unfold Resolver.owner? Resolver.ringOwner?
  rw [hg, hempty, hrunning, hring]
  exact congrArg Except.ok howner

theorem home_id_eq_iff {i j : ServiceId} (hi : i < c.services.length)
    (hj : j < c.services.length) : (c.service i).home.id = (c.service j).home.id ↔ i = j := by
  constructor
  · intro hid
    have hreach := reach?_eq_of_id_eq c hid
    rw [h.attached i hi, h.attached j hj] at hreach
    exact Option.some.inj hreach
  · rintro rfl
    rfl

theorem hopLimit_ne_zero {i : ServiceId} (hi : i < c.services.length) :
    (c.service i).config.hopLimit ≠ 0 := by
  intro hzero
  have hvalid := h.valid i hi
  rw [Config.defect?, if_pos hzero] at hvalid
  cases hvalid

/-- The site of a grain serves what is asked about it, whatever the hops. -/
theorem verdict_site (hn : 0 < c.services.length) {action : Action}
    (hg : action.grain.isSystemTarget = false) (hop : UInt32) :
    (c.service (c.site ring action.grain.position)).verdict c.oracle action hop = .serve := by
  obtain ⟨hsite, -⟩ := h.owner?_eq hn action.grain.position
  refine Service.serve_iff_answers.mpr ⟨_, h.resolver_owner? hsite hg, ?_⟩
  rintro _ ⟨⟩
  rfl

/-- Everybody else forwards it there. -/
theorem verdict_of_ne {i : ServiceId} (hi : i < c.services.length) {action : Action}
    (hg : action.grain.isSystemTarget = false) (hne : i ≠ c.site ring action.grain.position) :
    (c.service i).verdict c.oracle action 0 =
      .forward (c.service (c.site ring action.grain.position)).home := by
  obtain ⟨hsite, -⟩ := h.owner?_eq (Nat.zero_lt_of_lt hi) action.grain.position
  have hid : (c.service (c.site ring action.grain.position)).home.id ≠
      (c.service i).resolver.home.id := fun hid =>
    hne ((h.home_id_eq_iff hsite hi).mp hid).symm
  have hlimit : ¬ (c.service i).resolver.hopLimit ≤ 0 := fun hle =>
    h.hopLimit_ne_zero hi (UInt32.le_zero_iff.mp hle)
  have htrust : (c.service i).Trusts c.oracle
      (c.service (c.site ring action.grain.position)).home := by
    refine .inr ?_
    rw [Oracle.isFunctional, h.active _ hsite]
    rfl
  rw [Service.verdict, Resolver.checkForward, h.resolver_owner? hi hg]
  dsimp only
  rw [if_neg hid, if_neg hlimit]
  dsimp only
  rw [if_neg fun hand => hand.2 htrust]

/-- What is asked about an ordinary grain anywhere ends at its site. -/
theorem journey {i : ServiceId} (hi : i < c.services.length) (action : Action)
    (hg : action.grain.isSystemTarget = false) :
    ∃ before, Journey c action i 0 before (c.site ring action.grain.position) none := by
  have hn : 0 < c.services.length := Nat.zero_lt_of_lt hi
  obtain ⟨hsite, -⟩ := h.owner?_eq hn action.grain.position
  by_cases hself : i = c.site ring action.grain.position
  · have hserve := h.verdict_site hn hg 0
    rw [← hself] at hserve ⊢
    exact ⟨[], .served hserve⟩
  · exact ⟨[i], .onward (h.verdict_of_ne hi hg hself) (h.attached _ hsite)
      (.served (h.verdict_site hn hg _))⟩

theorem agrees_engage {i : ServiceId} (hi : i < c.services.length) : Agrees c (c.engage i) :=
  Agrees.engage (live_of_reach? (h.attached i hi))

/-! ## Calls -/

/-- An action on an ordinary grain succeeds and is applied at its site. -/
theorem call_action {i : ServiceId} (hi : i < c.services.length) {action : Action}
    (hg : action.grain.isSystemTarget = false) :
    ((call i (.single action 0)).run c).1 =
        .ok ((c.service (c.site ring action.grain.position)).partition.apply c.moment action).1 ∧
      ∀ j, (((call i (.single action 0)).run c).2.service j).partition =
        if j = c.site ring action.grain.position then
          ((c.service j).partition.apply c.moment action).2
        else (c.service j).partition := by
  obtain ⟨before, hjourney⟩ := h.journey hi action hg
  obtain ⟨before', last, failure, hjourney', hconcluded⟩ :=
    Cluster.call_action h.direct hi action 0
  obtain ⟨rfl, rfl, rfl⟩ := (hjourney.congr (h.agrees_engage hi)).unique hjourney'
  obtain ⟨hreply, hbooks⟩ := hconcluded
  refine ⟨hreply, fun j => ?_⟩
  have hpartition := congrArg Books.partition (congrFun hbooks j)
  by_cases hj : j = c.site ring action.grain.position
  · subst hj
    rw [Function.update_self] at hpartition
    rw [if_pos rfl]
    exact hpartition
  · rw [Function.update_of_ne hj] at hpartition
    rw [if_neg hj]
    exact hpartition

/-- A batch of ordinary grains succeeds, and each address is removed at its site. -/
theorem call_batch {i : ServiceId} (hi : i < c.services.length) {addresses : List GrainAddress}
    (hg : ∀ a ∈ addresses, a.grain.isSystemTarget = false) (cause : RemovalCause) :
    ((call i (.batch addresses cause 0)).run c).1 = .ok .done ∧
      ∃ log : List Removal, (Removal.addresses log).Perm addresses ∧
        (∀ r ∈ log, r.site = c.site ring r.address.grain.position) ∧
        ∀ j, (((call i (.batch addresses cause 0)).run c).2.service j).partition =
          (c.service j).partition.removeAll c.clock cause (Removal.portion log j) := by
  have hagrees := h.agrees_engage hi
  obtain ⟨log, ⟨hsub, hsites⟩, hbooks, hperm, hdone⟩ :=
    Cluster.call_batch h.direct hi addresses cause 0
  have hreply := hdone fun a ha => by
    obtain ⟨before, hjourney⟩ := h.journey hi (.unregister a cause) (hg a ha)
    exact ⟨before, _, hjourney.congr hagrees⟩
  refine ⟨hreply, log, hperm _ hreply, fun r hr => ?_, fun j => ?_⟩
  · have hmem : r.address ∈ addresses := hsub.subset (List.mem_map_of_mem hr)
    obtain ⟨before, hjourney⟩ :=
      h.journey hi (.unregister r.address cause) (hg r.address hmem)
    obtain ⟨before', hjourney'⟩ := hsites r hr
    exact ((hjourney.congr hagrees).unique hjourney').2.1
  · have hbook := congrFun hbooks j
    rw [Removal.applyAll_eq, Books.foldl_apply] at hbook
    exact congrArg Books.partition hbook

end Stable

end Cluster

end GrainDirectory

import GrainDirectory.Proofs.FastPath
import GrainDirectory.Proofs.Registrations
set_option autoImplicit false

/-!
# Whose place may be taken

An activation that is registered gives way to another one that does not name it if its silo is going
away.  Whether that is so the partition asks the oracle; whether to believe in a location the service
asks itself as well, and then its own silo is always trusted and an unknown one never.

So the two can differ about a silo (`Service.Disputes`), and only where they do not is an activation
replaced exactly when it is not trusted.  `Cluster.takeover_by_status` says what becomes of a registration
in any case.
-/

namespace GrainDirectory

namespace Service

variable (s : Service) (o : Oracle) (silo : Silo)

/-- Whether a service and its partition differ about a silo: the own silo while it is known to be going
away, and any other one of which nothing is known. -/
def Disputes : Prop :=
  (silo.id = s.home.id ∧ (o.status silo).isTerminating = true) ∨
    (silo.id ≠ s.home.id ∧ o.status silo = .none)

instance : Decidable (s.Disputes o silo) := inferInstanceAs (Decidable (_ ∨ _))

/-- A partition gives up on a silo that its service does not trust, unless they differ about it. -/
theorem terminating_iff_not_trusts {s : Service} {o : Oracle} {silo : Silo}
    (h : ¬ s.Disputes o silo) : (o.status silo).isTerminating = true ↔ ¬ s.Trusts o silo := by
  have hfunctional : o.isFunctional silo = true ↔
      o.status silo ≠ .none ∧ (o.status silo).isTerminating = false := (o.status silo).isFunctional_iff
  rw [Trusts, hfunctional]
  rw [Disputes, not_or] at h
  obtain ⟨hown, hother⟩ := h
  by_cases hhome : silo.id = s.home.id
  · exact iff_of_false (fun ht => hown ⟨hhome, ht⟩) fun ht => ht (.inl hhome)
  · have hknown : o.status silo ≠ .none := fun hn => hother ⟨hhome, hn⟩
    simp only [hhome, hknown, false_or, ne_eq, not_false_eq_true, true_and, Bool.not_eq_false]

/-- If they differ about it, the partition gives up on exactly the silo that the service trusts. -/
theorem terminating_iff_trusts {s : Service} {o : Oracle} {silo : Silo} (h : s.Disputes o silo) :
    (o.status silo).isTerminating = true ↔ s.Trusts o silo := by
  rcases h with ⟨hhome, hterminating⟩ | ⟨hhome, hnone⟩
  · exact iff_of_true hterminating (.inl hhome)
  · have hnot : ¬ s.Trusts o silo := by
      rintro (hid | hfunctional)
      · exact hhome hid
      · exact ((o.status silo).isFunctional_iff.mp hfunctional).1 hnone
    refine iff_of_false ?_ hnot
    rw [hnone]
    decide

end Service

namespace Partition

/-! ## What the partition does -/

section Rivals

variable {p : Partition} {o : Oracle} {r : Registration} {address : GrainAddress}
  {previous : Option GrainAddress} (hwatchful : p.watchful = true)
  (hr : p.registration? address.grain.id = some r) (hother : ¬ r.address.Matches address)
  (hprevious : ∀ a ∈ previous, ¬ r.address.Matches a)

include hwatchful hr hother hprevious

/-- Another activation that does not name the registered one is inserted exactly if the silo of that is
going away. -/
theorem inserts_iff_terminating :
    p.Inserts o address previous ↔ (o.status r.address.silo).isTerminating = true := by
  rw [p.inserts_iff o hr]
  constructor
  · rintro ⟨-, ⟨a, ha, hmatch⟩ | ⟨-, hterminating⟩⟩
    · exact absurd hmatch (hprevious a ha)
    · exact hterminating
  · exact fun hterminating => ⟨hother, .inr ⟨hwatchful, hterminating⟩⟩

theorem add_of_terminating (now : Nat) (h : (o.status r.address.silo).isTerminating = true) :
    p.add o now address previous = p.insert now address :=
  p.add_of_inserts o now ((inserts_iff_terminating hwatchful hr hother hprevious).mpr h)

theorem add_of_not_terminating (now : Nat) (h : (o.status r.address.silo).isTerminating = false) :
    p.add o now address previous = (r.answer, p) := by
  have hnot : ¬ p.Inserts o address previous := fun hinserts =>
    Bool.false_ne_true
      (h.symm.trans ((inserts_iff_terminating hwatchful hr hother hprevious).mp hinserts))
  rw [p.add_of_not_inserts o now hnot, lookup, hr]

/-- The newcomer is answered exactly if it has been inserted, as it is another activation. -/
theorem answered_iff_terminating (now : Nat) :
    (p.add o now address previous).1 = .found address p.nextTag ↔
      (o.status r.address.silo).isTerminating = true := by
  cases hstatus : (o.status r.address.silo).isTerminating with
  | true =>
    rw [add_of_terminating hwatchful hr hother hprevious now hstatus]
    exact iff_of_true rfl rfl
  | false =>
    rw [add_of_not_terminating hwatchful hr hother hprevious now hstatus]
    refine iff_of_false (fun h => hother ?_) Bool.false_ne_true
    have haddress : r.address = address := Option.some.inj (congrArg TaggedAddress.address h)
    exact haddress ▸ GrainAddress.Matches.refl address

end Rivals

end Partition

namespace Cluster

variable {c : Cluster} {i : ServiceId} {r : Registration} {address : GrainAddress}
  {previous : Option GrainAddress}

/-- What becomes of a registration when another activation asks for its place. -/
structure Contest (c : Cluster) (i : ServiceId) (r : Registration) (address : GrainAddress)
    (previous : Option GrainAddress) (hop : UInt32) (reply : Reply) (c' : Cluster) : Prop where
  /-- If its silo is going away, the other one gets the place and the next tag. -/
  taken : (c.oracle.status r.address.silo).isTerminating = true →
    reply = .ok (.located (.found address (c.service i).partition.nextTag)) ∧
      (c'.service i).partition = ((c.service i).partition.insert c.clock address).2
  /-- Otherwise it is answered with its tag, and nothing is registered. -/
  kept : (c.oracle.status r.address.silo).isTerminating = false →
    reply = .ok (.located r.answer) ∧ (c'.service i).partition = (c.service i).partition
  /-- The other one gets the place exactly if the service does not trust the silo, unless service and
  partition differ about it. -/
  undisputed : ¬ (c.service i).Disputes c.oracle r.address.silo →
    (reply = .ok (.located (.found address (c.service i).partition.nextTag)) ↔
      ¬ (c.service i).Trusts c.oracle r.address.silo)
  /-- Then it gets the place exactly if the service trusts the silo. -/
  disputed : (c.service i).Disputes c.oracle r.address.silo →
    (reply = .ok (.located (.found address (c.service i).partition.nextTag)) ↔
      (c.service i).Trusts c.oracle r.address.silo)
  /-- No other service has to do with that. -/
  others : ∀ j, j ≠ i → c'.service j = c.service j

/-- An activation that is registered with the owner of its grain gives way to another one that does not name
it exactly if its silo is going away.  That is whether the service does not trust the silo, unless it is
the own silo that is going away or another one of which nothing is known. -/
theorem takeover_by_status (hi : i < c.services.length) (howns : (c.service i).Owns address.grain)
    (hwatchful : (c.service i).partition.watchful = true)
    (hr : (c.service i).partition.registration? address.grain.id = some r)
    (hother : ¬ r.address.Matches address) (hprevious : ∀ a ∈ previous, ¬ r.address.Matches a)
    (hop : UInt32) :
    Contest c i r address previous hop
      ((call i (.single (.register address previous) hop)).run c).1
      ((call i (.single (.register address previous) hop)).run c).2 := by
  obtain ⟨hreply, hpartition, hothers⟩ :=
    call_of_answers hi (.register address previous) hop (Service.answers_of_owns howns)
  have hwon : ((call i (.single (.register address previous) hop)).run c).1 =
        .ok (.located (.found address (c.service i).partition.nextTag)) ↔
      (c.oracle.status r.address.silo).isTerminating = true := by
    rw [hreply, Except.ok.injEq]
    refine Iff.trans ?_
      (Partition.answered_iff_terminating hwatchful hr hother hprevious c.clock)
    exact ⟨Outcome.located.inj, congrArg Outcome.located⟩
  exact
    { taken := fun h => by
        have hadd := Partition.add_of_terminating hwatchful hr hother hprevious c.clock h
        exact ⟨hwon.mpr h, hpartition.trans (congrArg Prod.snd hadd)⟩
      kept := fun h => by
        have hadd := Partition.add_of_not_terminating hwatchful hr hother hprevious c.clock h
        exact ⟨hreply.trans (congrArg (fun t => Except.ok (Outcome.located t)) (congrArg Prod.fst hadd)),
          hpartition.trans (congrArg Prod.snd hadd)⟩
      undisputed := fun h => hwon.trans (Service.terminating_iff_not_trusts h)
      disputed := fun h => hwon.trans (Service.terminating_iff_trusts h)
      others := hothers }

/-! ### An activation on a silo of some status -/

/-- The silo of the service. -/
def ownSilo : Silo := ⟨⟨.v4 1 1, 1⟩, 10⟩

/-- A silo that is not on its ring. -/
def otherSilo : Silo := ⟨⟨.v4 1 2, 1⟩, 50⟩

/-- An activation of one grain on some silo. -/
def activationOn (activation : ActivationId) (silo : Silo) : GrainAddress :=
  ⟨⟨⟨⟨"user"⟩, "a"⟩, 5⟩, activation, silo⟩

/-- A running service that owns every grain, and has the first activation of one registered at some silo
of which some status is reported, if any is. -/
def registeredOn (silo : Silo) (status : SiloStatus) : Cluster :=
  { oracle := if status = .none then {} else Oracle.setStatus {} silo status
    services :=
      [{ label := "a"
         home := ownSilo
         config := {}
         ring := Ring.ofList [ownSilo]
         running := true
         partition :=
          { entries := Table.empty.put ⟨activationOn ⟨1⟩ silo, 1, 0⟩, nextTag := 2, lazyDelay := 0 }
         cache := {} }] }

theorem takeover_by_status_registeredOn :
    let c := registeredOn otherSilo .stopping
    let r : Registration := ⟨activationOn ⟨1⟩ otherSilo, 1, 0⟩
    let address := activationOn ⟨2⟩ ownSilo
    let previous := some (activationOn ⟨3⟩ otherSilo)
    0 < c.services.length ∧ (c.service 0).Owns address.grain ∧
      (c.service 0).partition.watchful = true ∧
      (c.service 0).partition.registration? address.grain.id = some r ∧
      ¬ r.address.Matches address ∧ (∀ a ∈ previous, ¬ r.address.Matches a) ∧
      ¬ (c.service 0).Disputes c.oracle r.address.silo ∧
      Contest c 0 r address previous 0
        ((call 0 (.single (.register address previous) 0)).run c).1
        ((call 0 (.single (.register address previous) 0)).run c).2 :=
  ⟨by decide, by decide, rfl, by decide, by decide, by decide, by decide,
    takeover_by_status (by decide) (by decide) rfl (by decide) (by decide) (by decide) 0⟩

/-- An activation on a silo of which nothing is known is not trusted, and keeps its place all the same;
one on the own silo is trusted, and loses its place as soon as that silo is reported to go away. -/
theorem exists_disputed_takeover :
    let unknown := registeredOn otherSilo .none
    let leaving := registeredOn ownSilo .shuttingDown
    ((unknown.service 0).running = true ∧ (unknown.service 0).Owns (activationOn ⟨2⟩ ownSilo).grain ∧
      (unknown.service 0).partition.registration? (activationOn ⟨2⟩ ownSilo).grain.id =
        some ⟨activationOn ⟨1⟩ otherSilo, 1, 0⟩ ∧
      ¬ (unknown.service 0).Trusts unknown.oracle otherSilo ∧
      ((call 0 (.single (.register (activationOn ⟨2⟩ ownSilo) none) 0)).run unknown).1 =
        .ok (.located (.found (activationOn ⟨1⟩ otherSilo) 1))) ∧
    ((leaving.service 0).running = true ∧ (leaving.service 0).Owns (activationOn ⟨2⟩ ownSilo).grain ∧
      (leaving.service 0).partition.registration? (activationOn ⟨2⟩ ownSilo).grain.id =
        some ⟨activationOn ⟨1⟩ ownSilo, 1, 0⟩ ∧
      (leaving.service 0).Trusts leaving.oracle ownSilo ∧
      ((call 0 (.single (.register (activationOn ⟨2⟩ ownSilo) none) 0)).run leaving).1 =
        .ok (.located (.found (activationOn ⟨2⟩ ownSilo) 2))) :=
  ⟨⟨rfl, by decide, by decide, by decide, rfl⟩, ⟨rfl, by decide, by decide, by decide, rfl⟩⟩

end Cluster

end GrainDirectory

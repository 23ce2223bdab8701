import GrainDirectory.Proofs.Ring.Placement
import GrainDirectory.Proofs.Scenes
set_option autoImplicit false

/-!
# Whose grains a service has registered

A service registers a grain only while its ring gives the grain to its own silo, or while it is the last
that is left.  Silos that leave its ring do not change that, and a silo that joins does: the grains that
the newcomer takes over stay registered, unless they were registered on an older incarnation of the
newcomer.  To hand them over is not the service's own business.

So whatever a running service has registered belongs to its own silo or to one that has joined its ring
since the registration.  What every beat preserves is `Stock.Houses`; the main statement is
`owner_is_home_or_newcomer`.
-/

namespace GrainDirectory

/-! ## Silos that answer for grains -/

namespace Stock

variable {s s' : Stock}

/-- A silo that answers for a grain receives it on its ring. -/
theorem receives_of_answers (hordered : s.resolver.ring.Ordered)
    (hhome : s.resolver.home ∈ s.resolver.ring.silos) {g : Grain} (hg : g.isSystemTarget = false)
    {target : Option Silo} (howner : s.resolver.owner? g = .ok target)
    (hanswers : ∀ owner ∈ target, owner.id = s.resolver.home.id) :
    Silo.Receives s.resolver.ring.silos g.position s.resolver.home := by
  have hring : s.resolver.ring.isEmpty = false :=
    List.isEmpty_eq_false_iff.mpr (List.ne_nil_of_mem hhome)
  rw [Resolver.owner?_of_ordinary hg hring, Except.ok.injEq] at howner
  cases hrunning : s.resolver.running with
  | true =>
    rw [hrunning, if_pos rfl] at howner
    cases htarget : target with
    | none =>
      rw [htarget, Ring.owner?_eq_none_iff, Ring.candidates_none] at howner
      rw [howner] at hhome
      cases hhome
    | some owner =>
      subst htarget
      have hreceives := (Ring.owner?_eq_some_iff hordered).mp howner
      rw [Ring.candidates_none] at hreceives
      have hmem : owner ∈ s.resolver.ring.silos := Silo.mem_of_mem_contenders hreceives.1
      rwa [hordered.eq_of_id hmem hhome (hanswers owner rfl)] at hreceives
  | false =>
    rw [hrunning, if_neg Bool.false_ne_true] at howner
    cases htarget : target with
    | none =>
      -- Nobody else is left on the ring.
      rw [htarget, Ring.owner?_eq_none_iff, Ring.candidates_some, List.filter_eq_nil_iff] at howner
      refine Silo.receives_of_forall_eq _ hhome fun x hx => hordered.eq_of_id hx hhome ?_
      simpa using howner x hx
    | some owner =>
      subst htarget
      have hreceives := (Ring.owner?_eq_some_iff hordered).mp howner
      have hmem : owner ∈ s.resolver.ring.candidates (some s.resolver.home) :=
        Silo.mem_of_mem_contenders hreceives.1
      rw [Ring.candidates_some, List.mem_filter, decide_eq_true_eq] at hmem
      exact absurd (hanswers owner rfl) hmem.2

/-! ## The invariant -/

/-- Whether a stock has its own silo on its ring, and every ordinary grain that is registered was received
by this silo on a ring that nobody else has joined since. -/
structure Houses (joined : GrainId → Registration → Silo → Prop) (s : Stock) : Prop where
  ordered : s.resolver.ring.Ordered
  home : s.resolver.home ∈ s.resolver.ring.silos
  received : ∀ id r, s.partition.registration? id = some r →
    r.address.grain.isSystemTarget = false → ∃ known : List Silo,
      Silo.Receives known r.address.grain.position s.resolver.home ∧
        ∀ x ∈ s.resolver.ring.silos, x ∈ known ∨ joined id r x

namespace Houses

variable {joined joined' : GrainId → Registration → Silo → Prop} (h : Houses joined s)

include h

theorem mono (hjoined : ∀ id r x, joined id r x → joined' id r x) : Houses joined' s := by
  refine ⟨h.ordered, h.home, fun id r hr hg => ?_⟩
  obtain ⟨known, hreceives, hmembers⟩ := h.received id r hr hg
  exact ⟨known, hreceives, fun x hx => (hmembers x hx).imp_right (hjoined id r x)⟩

/-- What is served is received on the ring as it is. -/
theorem served {asks : Action → Prop} (hserves : ServesAll asks s s') : Houses joined s' := by
  have hresolver := hserves.resolver_eq
  refine ⟨hresolver ▸ h.ordered, hresolver ▸ h.home, fun id r hr hg => ?_⟩
  rw [hresolver]
  rcases hserves.registration?_cases hr with hold | ⟨-, target, howner, hanswers⟩
  · exact h.received id r hold hg
  · exact ⟨s.resolver.ring.silos, receives_of_answers h.ordered h.home hg howner hanswers,
      fun x hx => .inl hx⟩

/-- Whoever is new on a ring that is reshaped has joined since what is registered was registered. -/
theorem reshaped (hreshapes : Reshapes s s') (hstays : s.resolver.home ∈ s'.resolver.ring.silos)
    (hjoined : ∀ id r x, joined id r x → joined' id r x)
    (hnew : ∀ id r x, s.partition.registration? id = some r → s.resolver.ring.contains x = false →
      joined' id r x) : Houses joined' s' := by
  refine ⟨hreshapes.ordered h.ordered, hreshapes.home ▸ hstays, fun id r hr hg => ?_⟩
  have hbefore := hreshapes.within id r hr
  obtain ⟨known, hreceives, hmembers⟩ := h.received id r hbefore hg
  refine ⟨known, hreshapes.home ▸ hreceives, fun x hx => ?_⟩
  rcases hreshapes.newcomers x hx with hold | habsent
  · exact (hmembers x hold).imp_right (hjoined id r x)
  · exact .inr (hnew id r x hbefore habsent)

/-- A grain that is registered belongs to the own silo or to one that has joined since. -/
theorem owner_cases (hrunning : s.resolver.running = true) {id : GrainId} {r : Registration}
    (hr : s.partition.registration? id = some r) (hg : r.address.grain.isSystemTarget = false) :
    ∃ owner, s.resolver.owner? r.address.grain = .ok (some owner) ∧
      (owner = s.resolver.home ∨ joined id r owner) := by
  have hring : s.resolver.ring.isEmpty = false :=
    List.isEmpty_eq_false_iff.mpr (List.ne_nil_of_mem h.home)
  have howner := Resolver.owner?_of_running hg hring hrunning
  cases htarget : s.resolver.ring.owner? r.address.grain.position none with
  | none =>
    rw [Ring.owner?_eq_none_iff, Ring.candidates_none] at htarget
    exact absurd h.home (htarget ▸ List.not_mem_nil)
  | some owner =>
    refine ⟨owner, howner.trans (congrArg Except.ok htarget), ?_⟩
    have hreceives := (Ring.owner?_eq_some_iff h.ordered).mp htarget
    rw [Ring.candidates_none] at hreceives
    obtain ⟨known, hknown, hmembers⟩ := h.received id r hr hg
    rcases hmembers owner (Silo.mem_of_mem_contenders hreceives.1) with hold | hjoined
    · exact .inl (hreceives.unique_of_mem hknown hold h.home)
    · exact .inr hjoined

end Houses

end Stock

/-! ## Histories -/

namespace Scene

/-- Whether, in the course of some beats, a silo was missing on the ring of a service when something was
registered there already. -/
def JoinedSince (n : ServiceId) (s : Scene) (beats : List Beat) (id : GrainId) (r : Registration)
    (x : Silo) : Prop :=
  ∃ early late, beats = early ++ late ∧
    ((s.after early).service n).partition.registration? id = some r ∧
    ((s.after early).service n).ring.contains x = false

variable {n : ServiceId} {s : Scene} {beats : List Beat} {id : GrainId} {r : Registration} {x : Silo}

theorem JoinedSince.concat (h : JoinedSince n s beats id r x) (beat : Beat) :
    JoinedSince n s (beats ++ [beat]) id r x := by
  obtain ⟨early, late, rfl, hr, hx⟩ := h
  exact ⟨early, late ++ [beat], List.append_assoc .., hr, hx⟩

/-- Whether no command that begins takes silos off the ring of a service without asking the service. -/
def Unforced (n : ServiceId) (beats : List Beat) : Prop :=
  ∀ command moment, Beat.begins command moment ∈ beats → ¬ command.Overrules n

/-- A service houses what it registers, from when it was built. -/
theorem houses_after {b : Blueprint} {built : Nat} (hstaged : Staged n s)
    (hbuild : b.build built = .ok (s.service n)) (hbeats : Unforced n beats) :
    Stock.Houses (JoinedSince n s beats) ((s.after beats).service n).stock := by
  induction beats using List.reverseRecOn with
  | nil =>
    have hpost := Cluster.post_of_build hbuild
    have hhome : (s.service n).stock.resolver.home = b.home := congrArg Post.home hpost
    have hring : (s.service n).stock.resolver.ring = ⟨[b.home]⟩ := congrArg Post.ring hpost
    refine ⟨hring ▸ Ring.ordered_ofList [b.home], ?_, fun id r hr => ?_⟩
    · show (s.service n).stock.resolver.home ∈ (s.service n).stock.resolver.ring.silos
      rw [hhome, hring]
      exact List.mem_singleton_self _
    · have hempty : (s.service n).partition.registration? id = none := by
        rw [Partition.registration?, (Service.empty_of_build hbuild).1, Table.find?_empty]
      cases hempty.symm.trans hr
  | append_singleton past beat ih =>
    have hpast := ih fun command moment hmem => hbeats command moment (List.mem_append_left _ hmem)
    have hlast := ((hstaged.after past).next beat).2
    rw [after_concat]
    have hmono : ∀ id r x, JoinedSince n s past id r x → JoinedSince n s (past ++ [beat]) id r x :=
      fun id r x h => h.concat beat
    cases hlast with
    | idle h =>
      rw [h]
      exact hpast.mono hmono
    | resumed _ h => exact (hpast.served h).mono hmono
    | @begun command moment h =>
      cases h with
      | served h => exact (hpast.served h).mono hmono
      | reshaped h _ hstays =>
        have hunforced : ¬ command.Overrules n := hbeats command moment (by simp)
        exact hpast.reshaped h (hstays hunforced hpast.home) hmono fun id r x hr hx =>
          ⟨past, [_], rfl, hr, hx⟩

/-- What a service keeps registered in the course of some beats. -/
structure KeepsHouse (n : ServiceId) (s : Scene) (beats : List Beat) : Prop where
  /-- While the service is running, an ordinary grain that is registered belongs to the own silo, or to one
  that has joined the ring since. -/
  owned : ((s.after beats).service n).running = true →
    ∀ id r, ((s.after beats).service n).partition.registration? id = some r →
      r.address.grain.isSystemTarget = false →
        ∃ owner, ((s.after beats).service n).owner? r.address.grain = .ok (some owner) ∧
          (owner = ((s.after beats).service n).home ∨ JoinedSince n s beats id r owner)
  /-- A silo that joins takes with it what is registered on its older incarnations, and leaves all else
  registered, whoever owns the grains from then on. -/
  adjusted : ∀ now x, (((s.after beats).service n).addSilo now x).1 = true → ∀ id,
    (((s.after beats).service n).addSilo now x).2.partition.registration? id =
      (((s.after beats).service n).partition.registration? id).filter fun r =>
        ¬ r.address.silo.Precedes x

/-- Whatever is asked of a service from when it was built, whatever it hears of other silos, and however
often it is started and stopped: an ordinary grain that it has registered while it is running belongs to
its own silo, or to one that has joined its ring since the registration. -/
theorem owner_is_home_or_newcomer {c : Cluster} {b : Blueprint} {built : Nat}
    (hn : n < c.services.length) (hbuild : b.build built = .ok (c.service n))
    (hbeats : Unforced n beats) : KeepsHouse n c.scene beats where
  owned hrunning _ _ hr hg :=
    (houses_after (staged_of_present hn) hbuild hbeats).owner_cases hrunning hr hg
  adjusted _ _ hjoined id := Service.registration?_addSilo hjoined id

/-- Silos named for their places. -/
def silo10 : Silo := ⟨⟨.v4 1 1, 1⟩, 10⟩

def silo50 : Silo := ⟨⟨.v4 1 2, 1⟩, 50⟩

/-- A service at place 10, as it is built. -/
def aloneAt10 : Cluster :=
  match ({} : Cluster).install { label := "a", home := silo10 } with
  | .ok c => c
  | .error _ => {}

/-- An activation of a grain at place 40. -/
def activation40 : GrainAddress := ⟨⟨⟨⟨"user"⟩, "k"⟩, 40⟩, ⟨1⟩, silo10⟩

/-- The service starts and registers the activation, and then hears that the silo at 50 is active. -/
def silo50Joins : List Beat :=
  [.begins (.start 0) 0, .begins (.call 0 (.single (.register activation40 none) 0)) 0,
    .begins (.report silo50 .active) 0, .begins (.deliver 0) 0]

theorem unforced_silo50Joins : Unforced 0 silo50Joins := by
  intro command moment h
  simp only [silo50Joins, List.mem_cons, Beat.begins.injEq, List.not_mem_nil, or_false] at h
  rcases h with ⟨rfl, -⟩ | ⟨rfl, -⟩ | ⟨rfl, -⟩ | ⟨rfl, -⟩ <;> exact id

theorem owner_is_home_or_newcomer_silo50Joins :
    0 < aloneAt10.services.length ∧
      ({ label := "a", home := silo10 } : Blueprint).build 0 = .ok (aloneAt10.service 0) ∧
      Unforced 0 silo50Joins ∧ KeepsHouse 0 aloneAt10.scene silo50Joins ∧
      ((aloneAt10.scene.after silo50Joins).service 0).running = true ∧
      ((aloneAt10.scene.after silo50Joins).service 0).partition.registration? activation40.grain.id =
        some ⟨activation40, 1, 0⟩ := by
  have hbuild : ({ label := "a", home := silo10 } : Blueprint).build 0 = .ok (aloneAt10.service 0) := rfl
  exact ⟨by decide, hbuild, unforced_silo50Joins,
    owner_is_home_or_newcomer (by decide) hbuild unforced_silo50Joins, by decide, by decide⟩

/-- The grain stays registered at the first silo although the newcomer owns it. -/
theorem exists_registration_of_newcomer :
    ¬ ∀ (c : Cluster) (n : ServiceId) (b : Blueprint) (built : Nat) (beats : List Beat),
      n < c.services.length → b.build built = .ok (c.service n) → Unforced n beats →
        ((c.scene.after beats).service n).running = true →
          ∀ id r,
            ((c.scene.after beats).service n).partition.registration? id = some r →
              r.address.grain.isSystemTarget = false →
                ((c.scene.after beats).service n).Owns r.address.grain := by
  intro h
  have howns := h aloneAt10 0 { label := "a", home := silo10 } 0 silo50Joins (by decide) rfl
    unforced_silo50Joins (by decide) activation40.grain.id ⟨activation40, 1, 0⟩ (by decide) (by decide)
  revert howns
  decide

end Scene

end GrainDirectory

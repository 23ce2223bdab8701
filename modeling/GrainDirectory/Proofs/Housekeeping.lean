import GrainDirectory.Proofs.Turns
set_option autoImplicit false

/-!
# What services do outside calls

A service that follows membership, starts or stops, or is asked what it knows itself, may drop
registrations, and makes none; the tag that comes next is what it was.  Of the counts of calls it touches
one alone: a lookup that is answered without the owner counts as served.  Nobody is called, so nothing is
logged.

`Service.Tidies` says so of a service and `Cluster.Tidies` of all services of a cluster;
`Cluster.tidies_perform` goes through the commands that do not have to wait.
-/

namespace GrainDirectory

/-- The one count of calls that a service touches outside calls. -/
abbrev Meter.answeredHere : Meter := .call .lookup .served

namespace Service

/-- Whether a service has at most dropped registrations, and counted no calls but lookups that it
answered itself. -/
structure Tidies (s t : Service) : Prop where
  partition : ∃ keep : Registration → Bool,
    t.partition = { s.partition with entries := s.partition.entries.filter keep }
  counts : ∀ operation role, Meter.call operation role ≠ .answeredHere →
    t.metrics.get (.call operation role) = s.metrics.get (.call operation role)

variable {s t u : Service}

theorem Tidies.of_stores (hpartition : t.partition = s.partition) (hmetrics : t.metrics = s.metrics) :
    s.Tidies t where
  partition := ⟨fun _ => true, by
    rw [Table.filter_eq_self fun _ _ => rfl, hpartition]⟩
  counts _ _ _ := by rw [hmetrics]

theorem Tidies.refl (s : Service) : s.Tidies s := .of_stores rfl rfl

theorem Tidies.trans (h : s.Tidies t) (h' : t.Tidies u) : s.Tidies u where
  partition := by
    obtain ⟨keep, hkeep⟩ := h.partition
    obtain ⟨keep', hkeep'⟩ := h'.partition
    refine ⟨fun r => keep' r && keep r, ?_⟩
    rw [hkeep', hkeep, Table.filter_filter]
  counts operation role hother := (h'.counts operation role hother).trans (h.counts operation role hother)

/-- A count that is no count of calls does not matter. -/
theorem tidies_count (s : Service) (meter : Meter) (n : UInt64)
    (h : ∀ operation role, Meter.call operation role ≠ .answeredHere →
      Meter.call operation role ≠ meter) : s.Tidies (s.count meter n) where
  partition := (Tidies.refl s).partition
  counts operation role hother := by
    show (s.metrics.add meter n).get _ = _
    rw [Metrics.get_add, if_neg (h operation role hother)]

/-- Registrations that are dropped count as evicted. -/
theorem tidies_adjustPartition (s : Service) (now : Nat) (changed : Silo) (left : Bool) :
    s.Tidies (s.adjustPartition now changed left) := by
  refine Tidies.trans (t := { s with
    partition := (s.partition.evict now fun a => Stale changed left a.silo).2 }) ?_
    (tidies_count _ .partitionEvictions _ fun _ _ _ => nofun)
  refine ⟨⟨fun r => !decide (Stale changed left r.address.silo), ?_⟩, fun _ _ _ => rfl⟩
  dsimp only
  rw [Partition.evict_eq]

theorem tidies_adjust (s : Service) (now : Nat) (changed : Silo) (left : Bool) :
    s.Tidies ((s.adjustPartition now changed left).adjustCache now changed left) := by
  refine (s.tidies_adjustPartition now changed left).trans ?_
  generalize s.adjustPartition now changed left = s
  refine ⟨(Tidies.refl s).partition, fun operation role _ => ?_⟩
  show (s.metrics.add .cacheEvictions _).get _ = _
  rw [Metrics.get_add, if_neg nofun]

variable (s)

theorem tidies_tell (now : Nat) (news : News) : s.Tidies (s.tell now news) := by
  unfold tell
  split <;> exact .of_stores rfl rfl

theorem tidies_addSilo (now : Nat) (silo : Silo) : s.Tidies (s.addSilo now silo).2 := by
  unfold addSilo
  split
  · exact .refl s
  · rename_i ring _
    have hringed : s.Tidies { s with ring := ring } := .of_stores rfl rfl
    refine (hringed.trans (tidies_tell _ now (.joined silo))).trans ?_
    exact (tidies_adjust _ now silo false).trans
      (tidies_count _ .silosAdded _ fun _ _ _ => nofun)

theorem tidies_removeSilo (now : Nat) (silo : Silo) (status : SiloStatus) :
    s.Tidies (s.removeSilo now silo status).2 := by
  have htold := s.tidies_tell now (.leaving silo status s.ring (s.catalog s.ring silo status))
  unfold removeSilo
  dsimp only
  split
  · exact htold
  · rename_i ring _
    refine (htold.trans (u := { s.tell now _ with ring := ring }) (.of_stores rfl rfl)).trans ?_
    exact (tidies_adjust _ now silo true).trans
      (tidies_count _ .silosRemoved _ fun _ _ _ => nofun)

theorem tidies_follow (now : Nat) (e : StatusEvent) : s.Tidies (s.follow now e) := by
  unfold follow
  split
  · exact .refl s
  · split
    · exact s.tidies_removeSilo now _ _
    · split
      · exact s.tidies_addSilo now _
      · exact .refl s

theorem tidies_addAll (now : Nat) (silos : List Silo) :
    s.Tidies (silos.foldl (fun s silo => (s.addSilo now silo).2) s) := by
  induction silos generalizing s with
  | nil => exact .refl s
  | cons silo rest ih => exact (s.tidies_addSilo now silo).trans (ih _)

theorem tidies_start (m : Moment) : s.Tidies (s.start m).1 := by
  unfold start
  split
  · exact .refl s
  · refine Tidies.trans ?_ (tidies_addAll _ m.now _)
    exact .of_stores rfl rfl

theorem tidies_stop (m : Moment) : s.Tidies (s.stop m).1 := by
  refine ⟨⟨fun _ => false, ?_⟩, fun _ _ _ => rfl⟩
  have hnone : s.partition.entries.filter (fun _ => false) = .empty := by
    simp only [Table.filter, Table.empty, List.filter_false]
  rw [hnone]
  rfl

theorem tidies_release (o : Oracle) : s.Tidies (s.release o).1 := by
  unfold release
  split <;> exact .of_stores rfl rfl

theorem tidies_cachedAddress (m : Moment) (g : Grain) : s.Tidies (s.cachedAddress m g).2 := by
  refine ⟨(Tidies.refl s).partition, fun operation role _ => ?_⟩
  show (s.metrics.cacheLookup _).get _ = _
  unfold Metrics.cacheLookup
  dsimp only
  split
  · rw [Metrics.get_add, if_neg nofun, Metrics.get_add, if_neg nofun]
  · rw [Metrics.get_add, if_neg nofun]

/-- A lookup that is answered without the owner counts as served, and never as anything else. -/
theorem tidies_localLookup (m : Moment) (g : Grain) : s.Tidies (s.localLookup m g).2 := by
  have hlooked := s.tidies_cachedAddress m g
  unfold localLookup
  split
  · exact .refl s
  · exact .refl s
  · split
    · rename_i hcached
      rw [hcached] at hlooked
      exact hlooked
    · rename_i looked hcached
      rw [hcached] at hlooked
      split
      · exact hlooked
      · have hserved := hlooked.trans (tidies_count looked .answeredHere 1 fun _ _ h => h)
        dsimp only
        split
        · exact hserved
        · exact hserved.trans (tidies_count _ .localLookupSuccesses _ fun _ _ _ => nofun)

end Service

namespace Cluster

/-- Whether all services of a cluster have at most tidied up, and nobody has been called. -/
structure Tidies (c c' : Cluster) : Prop where
  wiring : c'.wiring = c.wiring
  calls : c'.calls = c.calls
  length : c'.services.length = c.services.length
  service : ∀ n, (c.service n).Tidies (c'.service n)

instance : IsPreorder Cluster Tidies where
  refl _ := ⟨rfl, rfl, rfl, fun _ => .refl _⟩
  trans _ _ _ h h' := ⟨h'.wiring.trans h.wiring, h'.calls.trans h.calls, h'.length.trans h.length,
    fun n => (h.service n).trans (h'.service n)⟩

variable {c c' : Cluster} {i : ServiceId} {f : Service → Service}

theorem Tidies.adjust (h : (c.service i).Tidies (f (c.service i))) : Tidies c (c.adjust i f) := by
  refine ⟨rfl, rfl, c.length_adjust i f, fun n => ?_⟩
  rw [service_adjust]
  split
  · rename_i hin
    rw [← hin.1]
    exact h
  · exact .refl _

theorem Tidies.of_services (hservices : c'.services = c.services) (hwiring : c'.wiring = c.wiring)
    (hcalls : c'.calls = c.calls) : Tidies c c' := by
  refine ⟨hwiring, hcalls, congrArg List.length hservices, fun n => ?_⟩
  have hservice : c'.service n = c.service n := by
    rw [Cluster.service, Cluster.service, hservices]
  rw [hservice]
  exact .refl _

theorem tidies_dismiss (c : Cluster) (label : String) : Tidies c (c.dismiss label) := by
  unfold dismiss
  split
  · rename_i i _
    refine trans_of Tidies (.adjust (.of_stores rfl rfl)) (foldl_preorder (fun c j => ?_) _ _)
    split
    · exact refl_of Tidies c
    · have hgiven : Tidies c { c with oracle := ((c.service j).release c.oracle).2 } :=
        .of_services rfl rfl rfl
      exact trans_of Tidies hgiven (.adjust (Service.tidies_release _ _))
  · exact refl_of Tidies c

theorem tidies_kill (c : Cluster) (i : ServiceId) : Tidies c (c.kill i) := by
  have hgone : Tidies c ((c.report (c.service i).home .dead).detach (c.service i).home).2 :=
    .of_services rfl rfl rfl
  exact trans_of Tidies hgone (foldl_preorder
    (f := fun c j => c.adjust j fun s => (s.removeSilo c.clock _ .dead).2)
    (fun c j => .adjust (Service.tidies_removeSilo _ _ _ _)) _ _)

/-- A command that does not have to wait leaves all services at most tidied up; a service that it
installs, it adds. -/
theorem tidies_perform {command : Command} (hconverses : ¬ command.Converses) :
    Tidies c (command.perform.run c).2 ∨
      ∃ b s, command = .install b ∧ b.build c.clock = .ok s ∧ (command.perform.run c).2 =
        { c.dismiss b.label with services := (c.dismiss b.label).services ++ [s] } := by
  have hadjust {i : ServiceId} {f : Service → Service} {o : Oracle}
      (h : (c.service i).Tidies (f (c.service i))) :
      Tidies c ({ c with oracle := o }.adjust i f) := by
    have hgiven : Tidies c { c with oracle := o } := .of_services rfl rfl rfl
    exact trans_of Tidies hgiven (.adjust h)
  cases command with
  | call => exact absurd trivial hconverses
  | serve => exact absurd trivial hconverses
  | unregisterNonexistent => exact absurd trivial hconverses
  | awaitMember => exact absurd trivial hconverses
  | install b =>
    rw [Command.perform, Activity.run_act]
    split
    · exact .inl (refl_of Tidies c)
    · rename_i hinstall
      obtain ⟨s, hbuild, heq⟩ := install_eq_ok hinstall
      exact .inr ⟨b, s, rfl, hbuild, heq⟩
  | suggest i grain silo => exact .inl (.adjust (.of_stores rfl rfl))
  | localLookup i grain =>
    rw [Command.perform, Activity.run_bind]
    exact .inl (.adjust (f := fun _ => _) (Service.tidies_localLookup _ _ _))
  | cachedAddress i grain =>
    rw [Command.perform, Activity.run_bind]
    exact .inl (.adjust (f := fun _ => _) (Service.tidies_cachedAddress _ _ _))
  | forget i grain =>
    rw [Command.perform, Command.run_flagged]
    exact .inl (.adjust (f := fun _ => _) (.of_stores rfl rfl))
  | forgetAddress i address =>
    rw [Command.perform, Command.run_flagged]
    exact .inl (.adjust (f := fun _ => _) (.of_stores rfl rfl))
  | follow i event => exact .inl (.adjust (Service.tidies_follow _ _ _))
  | addSilo i silo =>
    rw [Command.perform, Command.run_flagged]
    exact .inl (.adjust (f := fun _ => _) (Service.tidies_addSilo _ _ _))
  | removeSilo i silo status =>
    rw [Command.perform, Command.run_flagged]
    exact .inl (.adjust (f := fun _ => _) (Service.tidies_removeSilo _ _ _ _))
  | deliver i =>
    refine .inl ?_
    show Tidies c (c.deliver i)
    unfold deliver
    split
    · exact refl_of Tidies c
    · split
      · exact refl_of Tidies c
      · exact hadjust (Service.tidies_follow _ _ _)
  | start i => exact .inl (hadjust (Service.tidies_start _ _))
  | stop i => exact .inl (hadjust (Service.tidies_stop _ _))
  | dismiss label => exact .inl (tidies_dismiss c label)
  | kill i => exact .inl (tidies_kill c i)
  | attach i => exact .inl (.of_services rfl rfl rfl)
  | detach silo => exact .inl (.of_services rfl rfl rfl)
  | script silo answer => exact .inl (.of_services rfl rfl rfl)
  | unscript silo => exact .inl (.of_services rfl rfl rfl)
  | report silo status => exact .inl (.of_services rfl rfl rfl)
  | elapse time => exact .inl (.of_services rfl rfl rfl)

end Cluster

end GrainDirectory

import GrainDirectory.Proofs.Serving
set_option autoImplicit false

/-!
# What commands make of the registrations of a service

A command that a client waits for, a call above all, makes the services that it comes to serve what it
asks for, and leaves their rings alone.  All other commands are over at once; they may change the ring
of a service and drop registrations, and register nothing.  `Turn` says so of the stock of one service,
and `turn_perform` goes through all commands once.
-/

namespace GrainDirectory

/-! ## Changes of a stock -/

namespace Stock

/-- Whether nothing has been registered, and whoever is new on the ring was not on it before. -/
structure Reshapes (s s' : Stock) : Prop where
  home : s'.resolver.home = s.resolver.home
  ordered : s.resolver.ring.Ordered → s'.resolver.ring.Ordered
  newcomers : ∀ x ∈ s'.resolver.ring.silos,
    x ∈ s.resolver.ring.silos ∨ s.resolver.ring.contains x = false
  within : s'.partition.Within s.partition

/-- Whether nothing has been registered, and silos have at most left the ring. -/
structure Sheds (s s' : Stock) : Prop where
  home : s'.resolver.home = s.resolver.home
  running : s'.resolver.running = s.resolver.running
  ordered : s.resolver.ring.Ordered → s'.resolver.ring.Ordered
  members : ∀ x ∈ s'.resolver.ring.silos, x ∈ s.resolver.ring.silos
  within : s'.partition.Within s.partition

variable {s s' s'' : Stock}

theorem Sheds.refl (s : Stock) : Sheds s s := ⟨rfl, rfl, id, fun _ => id, .refl _⟩

theorem Sheds.trans (h : Sheds s s') (h' : Sheds s' s'') : Sheds s s'' where
  home := h'.home.trans h.home
  running := h'.running.trans h.running
  ordered := h'.ordered ∘ h.ordered
  members x hx := h.members x (h'.members x hx)
  within := h'.within.trans h.within

theorem Sheds.reshapes (h : Sheds s s') : Reshapes s s' :=
  ⟨h.home, h.ordered, fun x hx => .inl (h.members x hx), h.within⟩

end Stock

namespace Service

variable (s : Service) (now : Nat)

theorem running_tell (news : News) : (s.tell now news).running = s.running := by
  unfold tell
  split <;> rfl

theorem running_addSilo (silo : Silo) : (s.addSilo now silo).2.running = s.running := by
  unfold addSilo
  split
  · rfl
  · exact running_tell _ _ _

theorem running_removeSilo (silo : Silo) (status : SiloStatus) :
    (s.removeSilo now silo status).2.running = s.running := by
  have htold := s.running_tell now (.leaving silo status s.ring (s.catalog s.ring silo status))
  unfold removeSilo
  dsimp only
  split <;> exact htold

theorem running_follow (e : StatusEvent) : (s.follow now e).running = s.running := by
  unfold follow
  split
  · rfl
  · split
    · exact s.running_removeSilo now _ _
    · split
      · exact s.running_addSilo now _
      · rfl

theorem running_start {s : Service} (hstopped : s.subscription = none) (m : Moment) :
    (s.start m).1.running = true := by
  have hadded (silos : List Silo) (t : Service) (ht : t.running = true) :
      (silos.foldl (fun s silo => (s.addSilo m.now silo).2) t).running = true :=
    List.foldlRecOn (motive := fun t : Service => t.running = true) silos _ ht fun t ht silo _ =>
      (t.running_addSilo m.now silo).trans ht
  unfold start
  rw [hstopped]
  exact hadded _ _ rfl

variable {s now} {t : Service} {ring : Ring} {subscription : Option Nat}

/-- What has become of the post of a service says what has become of its ring. -/
theorem reshapes_of_post (hpost : t.post = ⟨s.home, ring, subscription⟩)
    (hordered : s.ring.Ordered → ring.Ordered)
    (hnew : ∀ x ∈ ring.silos, x ∈ s.ring.silos ∨ s.ring.contains x = false)
    (hwithin : t.partition.Within s.partition) : Stock.Reshapes s.stock t.stock := by
  have hring : t.stock.resolver.ring = ring := congrArg Post.ring hpost
  exact ⟨congrArg Post.home hpost, hring ▸ hordered, hring ▸ hnew, hwithin⟩

theorem reshapes_addSilo (silo : Silo) : Stock.Reshapes s.stock (s.addSilo now silo).2.stock :=
  reshapes_of_post (s.post_addSilo now silo) (fun h => h.change (.add silo))
    (fun _ => Ring.mem_insert) (s.within_addSilo now silo)

theorem reshapes_follow (e : StatusEvent) : Stock.Reshapes s.stock (s.follow now e).stock :=
  reshapes_of_post (s.post_follow now e) (fun h => h.follow s.home e) (fun _ => Ring.mem_follow)
    (s.within_follow now e)

theorem reshapes_start (hstopped : s.subscription = none) (m : Moment) :
    Stock.Reshapes s.stock (s.start m).1.stock :=
  reshapes_of_post (post_start hstopped m) (fun h => h.foldl_insert _)
    (fun _ => Ring.mem_foldl_insert) (s.within_start m)

theorem reshapes_stop (m : Moment) : Stock.Reshapes s.stock (s.stop m).1.stock :=
  ⟨rfl, id, fun _ => .inl, s.within_stop m⟩

theorem sheds_removeSilo (silo : Silo) (status : SiloStatus) :
    Stock.Sheds s.stock (s.removeSilo now silo status).2.stock := by
  have hpost := s.post_removeSilo now silo status
  have hring : (s.removeSilo now silo status).2.stock.resolver.ring = s.ring.change (.remove silo) :=
    congrArg Post.ring hpost
  exact ⟨congrArg Post.home hpost, s.running_removeSilo now silo status,
    fun h => hring ▸ Ring.Ordered.change h (.remove silo),
    fun x hx => Ring.mem_change_remove (hring ▸ hx), s.within_removeSilo now silo status⟩

/-! ### What a change of the ring drops -/

theorem registration?_adjustPartition (s : Service) (changed : Silo) (left : Bool) (id : GrainId) :
    (s.adjustPartition now changed left).partition.registration? id =
      (s.partition.registration? id).filter fun r => ¬ Stale changed left r.address.silo := by
  simp only [decide_not]
  exact s.partition.registration?_evict now _ id

/-- A silo that joins makes its older incarnations stale, and nobody else. -/
theorem registration?_addSilo {silo : Silo} (h : (s.addSilo now silo).1 = true) (id : GrainId) :
    (s.addSilo now silo).2.partition.registration? id =
      (s.partition.registration? id).filter fun r => ¬ r.address.silo.Precedes silo := by
  unfold addSilo at h ⊢
  split at h
  · cases h
  · rename_i ring _
    refine (registration?_adjustPartition (({ s with ring := ring } : Service).tell now _) silo false
      id).trans ?_
    rw [partition_tell]
    simp only [Stale, Bool.false_eq_true, false_and, false_or]

/-- A silo that leaves is stale itself, and so are its older incarnations. -/
theorem registration?_removeSilo {silo : Silo} {status : SiloStatus}
    (h : (s.removeSilo now silo status).1 = true) (id : GrainId) :
    (s.removeSilo now silo status).2.partition.registration? id =
      (s.partition.registration? id).filter fun r =>
        ¬ (r.address.silo.id = silo.id ∨ r.address.silo.Precedes silo) := by
  have htold := s.partition_tell now (.leaving silo status s.ring (s.catalog s.ring silo status))
  unfold removeSilo at h ⊢
  dsimp only at h ⊢
  split at h
  · cases h
  · refine (registration?_adjustPartition _ silo true id).trans ?_
    rw [← htold]
    simp only [Stale, true_and]

theorem stock_localLookup (m : Moment) (g : Grain) : (s.localLookup m g).2.stock = s.stock := by
  rcases s.service_localLookup m g with hsame | ⟨metrics, hsame⟩ <;> rw [hsame]
  rfl

theorem stock_release (o : Oracle) : (s.release o).1.stock = s.stock := by
  unfold release
  split <;> rfl

end Service

/-! ## Commands -/

/-- The actions that a command asks for. -/
def Command.actions : Command → List Action
  | .call _ request => request.actions
  | .serve _ frame =>
    match Frame.decode Format.request frame with
    | .ok request => request.actions
    | .error _ => []
  | .unregisterNonexistent _ address _ => [.unregister address .nonexistentActivation]
  | _ => []

/-- Whether a command asks for an action, as it is or as a frame carries it. -/
def Command.Asks (command : Command) (action : Action) : Prop :=
  ∃ asked ∈ command.actions, action = asked ∨ action = asked.unscoped

theorem Command.asks_of_mem {command : Command} {action : Action} (h : action ∈ command.actions) :
    command.Asks action := ⟨action, h, .inl rfl⟩

theorem Command.asks_unscoped {command : Command} {action : Action} (h : command.Asks action) :
    command.Asks action.unscoped := by
  obtain ⟨asked, hmem, h⟩ := h
  refine ⟨asked, hmem, .inr ?_⟩
  rcases h with rfl | rfl
  · rfl
  · exact asked.unscoped_unscoped

/-- Whether a command takes silos off the ring of a service whatever the service thinks of it. -/
def Command.Overrules (n : ServiceId) : Command → Prop
  | .removeSilo i _ _ => i = n
  | .kill _ => True
  | _ => False

/-- Whether a command may have to wait before it ends. -/
def Command.Converses : Command → Prop
  | .call _ _ => True
  | .serve _ _ => True
  | .unregisterNonexistent _ _ _ => True
  | .awaitMember .. => True
  | _ => False

/-- What a command makes of the stock of a service. -/
inductive Turn (n : ServiceId) (command : Command) (s : Stock) : Stock → Prop
  /-- The service serves what the command asks for. -/
  | served {s' : Stock} (h : Stock.ServesAll command.Asks s s') : Turn n command s s'
  /-- The service changes its ring. -/
  | reshaped {s' : Stock} (h : Stock.Reshapes s s')
      (hrunning : command ≠ .start n → command ≠ .stop n →
        s'.resolver.running = s.resolver.running)
      (hstays : ¬ command.Overrules n → s.resolver.home ∈ s.resolver.ring.silos →
        s.resolver.home ∈ s'.resolver.ring.silos) : Turn n command s s'

namespace Turn

variable {n : ServiceId} {command : Command} {s s' : Stock}

theorem refl (s : Stock) : Turn n command s s := .served .refl

theorem of_sheds (h : Stock.Sheds s s') (hoverrules : command.Overrules n) :
    Turn n command s s' :=
  .reshaped h.reshapes (fun _ _ => h.running) fun hnot => absurd hoverrules hnot

theorem running_eq (h : Turn n command s s') (hstart : command ≠ .start n)
    (hstop : command ≠ .stop n) : s'.resolver.running = s.resolver.running := by
  cases h with
  | served h => rw [h.resolver_eq]
  | reshaped _ hrunning _ => exact hrunning hstart hstop

theorem addSilo {s : Service} (now : Nat) (silo : Silo) :
    Turn n command s.stock (s.addSilo now silo).2.stock := by
  refine .reshaped (Service.reshapes_addSilo silo) (fun _ _ => s.running_addSilo now silo)
    fun _ hhome => ?_
  have hring : (s.addSilo now silo).2.stock.resolver.ring = s.ring.insert silo :=
    congrArg Post.ring (s.post_addSilo now silo)
  rw [hring]
  exact Ring.mem_insert_of_mem silo hhome

theorem follow {s : Service} (now : Nat) (e : StatusEvent) :
    Turn n command s.stock (s.follow now e).stock := by
  refine .reshaped (Service.reshapes_follow e) (fun _ _ => s.running_follow now e)
    fun _ hhome => ?_
  have hring : (s.follow now e).stock.resolver.ring = s.ring.follow s.home e :=
    congrArg Post.ring (s.post_follow now e)
  rw [hring]
  exact Ring.mem_follow_home hhome

theorem start {s : Service} (m : Moment) : Turn n (.start n) s.stock (s.start m).1.stock := by
  cases hsubscription : s.subscription with
  | some id =>
    rw [Service.start_of_subscribed hsubscription]
    exact .refl _
  | none =>
    refine .reshaped (Service.reshapes_start hsubscription m) (fun hstart => absurd rfl hstart)
      fun _ hhome => ?_
    have hring : (s.start m).1.stock.resolver.ring = _ :=
      congrArg Post.ring (Service.post_start hsubscription m)
    rw [hring]
    exact Ring.mem_foldl_insert_of_mem _ hhome

theorem stop {s : Service} (m : Moment) : Turn n (.stop n) s.stock (s.stop m).1.stock :=
  .reshaped (Service.reshapes_stop m) (fun _ hstop => absurd rfl hstop) fun _ hhome => hhome

end Turn

namespace Cluster

variable {n : ServiceId} {c : Cluster}

/-! ### What clients ask for -/

theorem serving_elapse {asks : Action → Prop} (c : Cluster) (time : Nat) :
    Serving asks n c (c.elapse time) := ⟨rfl, .refl⟩

section Asked

variable {asks : Action → Prop} (hclosed : ∀ action, asks action → asks action.unscoped)

include hclosed

theorem obeys_call (i : ServiceId) {request : Request}
    (hasks : ∀ action ∈ request.actions, asks action) :
    (call i request).Obeys (Serving asks n) (fun _ _ => True) c :=
  peersObey_perform hclosed maxForwards i request hasks c

theorem obeys_unregisterNonexistent (i : ServiceId) {address : GrainAddress} (origin : Option Silo)
    (hasks : asks (.unregister address .nonexistentActivation)) :
    (unregisterNonexistent i address origin).Obeys (Serving asks n) (fun _ _ => True) c := by
  have hrequest : ∀ action ∈ (Request.single (.unregister address .nonexistentActivation) 0).actions,
      asks action := fun action haction => List.mem_singleton.mp haction ▸ hasks
  refine obeys_attended fun c => Activity.Obeys.bind (Activity.obeys_look ?_)
  split
  · exact obeys_call hclosed i hrequest
  · split
    · exact obeys_call hclosed i hrequest
    · split
      · exact Activity.obeys_pure trivial
      · rename_i peer hpeer
        exact waysObey_ways (peersObey_perform hclosed maxForwards) hclosed _ _ peer hpeer _ hrequest _

omit hclosed in
theorem obeys_lookForMember (i : ServiceId) (silo : Silo) (interval looks : Nat) :
    (lookForMember i silo interval looks).Obeys (Serving asks n) (fun _ _ => True) c := by
  induction looks generalizing c with
  | zero => trivial
  | succ looks ih =>
    show Activity.Obeys _ (if _ then _ else _) _ c
    split
    · trivial
    · exact fun _ => ih

omit hclosed in
theorem obeys_awaitMember (i : ServiceId) (silo : Silo) (patience looks interval : Nat) :
    (awaitMember i silo patience looks interval).Obeys (Serving asks n) (fun _ _ => True) c := by
  refine obeys_attended fun c => Activity.Obeys.bind ?_
  refine (obeys_lookForMember i silo interval looks).mono fun seen c _ => ?_
  split
  · exact Activity.obeys_pure trivial
  · exact Activity.Obeys.bind
      (Activity.obeys_update (serving_elapse c _) (Activity.obeys_pure trivial))

end Asked

/-- Where a command may have to wait, it serves what it asks for, whatever happens meanwhile. -/
theorem obeys_perform {command : Command} (h : command.Converses) :
    command.perform.Obeys (Serving command.Asks n) (fun _ _ => True) c := by
  have hclosed : ∀ action, command.Asks action → command.Asks action.unscoped :=
    fun _ => Command.asks_unscoped
  have hasked : ∀ action ∈ command.actions, command.Asks action := fun _ => Command.asks_of_mem
  cases command with
  | call i request =>
    exact Activity.Obeys.bind ((obeys_call hclosed i hasked).mono fun _ _ _ =>
      Activity.obeys_pure trivial)
  | serve i frame =>
    refine Activity.Obeys.bind (Activity.Obeys.mono (Q := fun _ _ => True) ?_ fun _ _ _ =>
      Activity.obeys_pure trivial)
    refine obeys_serveFrame (peersObey_perform hclosed maxForwards) i fun request h action haction => ?_
    refine hasked action ?_
    rw [Command.actions, h]
    exact haction
  | unregisterNonexistent i address origin =>
    exact Activity.Obeys.bind ((obeys_unregisterNonexistent hclosed i origin
      (hasked _ List.mem_cons_self)).mono fun _ _ _ => Activity.obeys_pure trivial)
  | awaitMember i silo patience looks interval =>
    exact Activity.Obeys.bind ((obeys_awaitMember i silo patience looks interval).mono fun _ _ _ =>
      Activity.obeys_pure trivial)
  | _ => exact h.elim

/-- All other commands end at once. -/
theorem advance_perform {command : Command} (h : ¬ command.Converses) (now : Nat) :
    Progress.advance now command.perform c =
      (.ended (command.perform.run c).1, (command.perform.run c).2) := by
  cases command with
  | call => exact absurd trivial h
  | serve => exact absurd trivial h
  | unregisterNonexistent => exact absurd trivial h
  | awaitMember => exact absurd trivial h
  | _ => rfl

/-! ### What commands do to services -/

theorem turn_adjust {command : Command} {i : ServiceId} {f : Service → Service}
    (h : i = n → Turn n command (c.service i).stock (f (c.service i)).stock) :
    Turn n command (c.service n).stock ((c.adjust i f).service n).stock := by
  rw [service_adjust]
  split
  · rename_i hin
    obtain ⟨rfl, -⟩ := hin
    exact h rfl
  · exact .refl _

theorem foldl_preorder {R : Cluster → Cluster → Prop} [IsPreorder Cluster R]
    {f : Cluster → ServiceId → Cluster} (hf : ∀ c j, R c (f c j)) (ids : List ServiceId)
    (c : Cluster) : R c (ids.foldl f c) := by
  induction ids generalizing c with
  | nil => exact refl_of R c
  | cons j rest ih => exact trans_of R (hf c j) (ih _)

theorem serving_dismiss {asks : Action → Prop} (c : Cluster) (label : String) :
    Serving asks n c (c.dismiss label) := by
  unfold dismiss
  split
  · rename_i i _
    refine trans_of (Serving asks n) (.of_stock rfl) (foldl_preorder (fun c j => ?_) _ _)
    split
    · exact .refl c
    · have hgiven : Serving asks n c { c with oracle := ((c.service j).release c.oracle).2 } :=
        ⟨rfl, .refl⟩
      exact trans_of (Serving asks n) hgiven (.of_stock (Service.stock_release _))
  · exact .refl c

/-- Whether silos have at most left the ring of a service. -/
structure Shedding (n : ServiceId) (c c' : Cluster) : Prop where
  length : c'.services.length = c.services.length
  stock : Stock.Sheds (c.service n).stock (c'.service n).stock

instance (n : ServiceId) : IsPreorder Cluster (Shedding n) where
  refl _ := ⟨rfl, .refl _⟩
  trans _ _ _ h h' := ⟨h'.length.trans h.length, h.stock.trans h'.stock⟩

theorem shedding_kill (c : Cluster) (i : ServiceId) : Shedding n c (c.kill i) := by
  have hgone : Shedding n c ((c.report (c.service i).home .dead).detach (c.service i).home).2 :=
    ⟨rfl, .refl _⟩
  refine trans_of (Shedding n) hgone (foldl_preorder
    (f := fun c j => c.adjust j fun s => (s.removeSilo c.clock _ .dead).2) (fun c j => ?_) _ _)
  refine ⟨length_adjust _ _ _, ?_⟩
  rw [service_adjust]
  split
  · exact Service.sheds_removeSilo _ _
  · exact .refl _

/-- Every command takes its turn with a service, which is there afterwards too. -/
theorem turn_perform (hn : n < c.services.length) (command : Command) :
    n < (command.perform.run c).2.services.length ∧
      Turn n command (c.service n).stock ((command.perform.run c).2.service n).stock := by
  have hserving {c' : Cluster} (h : Serving command.Asks n c c') : n < c'.services.length ∧
      Turn n command (c.service n).stock (c'.service n).stock :=
    ⟨h.length ▸ hn, .served h.stock⟩
  have hconverses (h : command.Converses) := hserving (obeys_perform h).run.1
  have hadjust {i : ServiceId} {f : Service → Service} {o : Oracle}
      (h : i = n → Turn n command (c.service i).stock (f (c.service i)).stock) :
      n < ({ c with oracle := o }.adjust i f).services.length ∧
        Turn n command (c.service n).stock (({ c with oracle := o }.adjust i f).service n).stock :=
    ⟨by rw [length_adjust]; exact hn, turn_adjust (c := { c with oracle := o }) h⟩
  cases command with
  | follow i event => exact hadjust fun _ => .follow c.clock event
  | addSilo i silo =>
    rw [Command.perform, Command.run_flagged]
    exact hadjust fun _ => .addSilo c.clock silo
  | removeSilo i silo status =>
    rw [Command.perform, Command.run_flagged]
    exact hadjust fun hin => .of_sheds (Service.sheds_removeSilo silo status) hin
  | deliver i =>
    show n < (c.deliver i).services.length ∧ Turn n _ _ ((c.deliver i).service n).stock
    unfold deliver
    split
    · exact ⟨hn, .refl _⟩
    · split
      · exact ⟨hn, .refl _⟩
      · exact hadjust fun _ => .follow c.clock _
  | install b =>
    rw [Command.perform, Activity.run_act]
    split
    · exact ⟨hn, .refl _⟩
    · rename_i c' hinstall
      obtain ⟨s, -, rfl⟩ := install_eq_ok hinstall
      obtain ⟨hpresent, hturn⟩ := hserving (serving_dismiss c b.label)
      refine ⟨Nat.lt_of_lt_of_le hpresent (by simp), ?_⟩
      rw [service_append, if_neg (Nat.ne_of_lt hpresent)]
      exact hturn
  | start i =>
    refine hadjust fun hin => ?_
    subst hin
    exact .start c.moment
  | stop i =>
    refine hadjust fun hin => ?_
    subst hin
    exact .stop c.moment
  | dismiss label => exact hserving (serving_dismiss c label)
  | kill i =>
    have hshed := shedding_kill (n := n) c i
    exact ⟨hshed.length ▸ hn, .of_sheds hshed.stock trivial⟩
  | localLookup i grain =>
    rw [Command.perform, Activity.run_bind]
    exact hserving (.of_stock (f := fun _ => _) (Service.stock_localLookup _ _))
  | cachedAddress i grain =>
    rw [Command.perform, Activity.run_bind]
    exact hserving (.of_stock (f := fun _ => _) rfl)
  | suggest i grain silo => exact hserving (.of_stock rfl)
  | forget i grain =>
    rw [Command.perform, Command.run_flagged]
    exact hserving (.of_stock (f := fun _ => _) rfl)
  | forgetAddress i address =>
    rw [Command.perform, Command.run_flagged]
    exact hserving (.of_stock (f := fun _ => _) rfl)
  | attach i => exact ⟨hn, .refl _⟩
  | detach silo => exact ⟨hn, .refl _⟩
  | script silo answer => exact ⟨hn, .refl _⟩
  | unscript silo => exact ⟨hn, .refl _⟩
  | report silo status => exact ⟨hn, .refl _⟩
  | elapse time => exact ⟨hn, .refl _⟩
  | call i request => exact hconverses trivial
  | serve i frame => exact hconverses trivial
  | unregisterNonexistent i address origin => exact hconverses trivial
  | awaitMember => exact hconverses trivial

/-- A service that is left its ring goes on running if it runs, and rests if it rests. -/
theorem running_perform (hn : n < c.services.length) {command : Command}
    (hleaves : c.LeavesRing n command) :
    ((command.perform.run c).2.service n).running = (c.service n).running := by
  by_cases hstart : command = .start n
  · subst hstart
    obtain ⟨id, hid⟩ := Option.ne_none_iff_exists'.mp (hleaves rfl)
    show ((c.start n).service n).running = _
    rw [start, Service.start_of_subscribed hid]
    exact congrArg Service.running (service_adjust_self (c := c) hn _)
  · refine (turn_perform hn command).2.running_eq hstart ?_
    rintro rfl
    exact hleaves rfl

end Cluster

end GrainDirectory

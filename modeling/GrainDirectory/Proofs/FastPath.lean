import GrainDirectory.Proofs.Coherence
import GrainDirectory.Proofs.Commands
import GrainDirectory.Proofs.Forwarding
set_option autoImplicit false

/-!
# The fast path agrees with the slow path

A service that owns a grain can be asked about it in two ways: it looks the grain up in its cache
first, or it serves a lookup from its partition.  Both give the same address, whatever has been asked of
the service and of the others since it was started, and however membership has changed, as long as
every grain is used with one place, nobody but the owners of grains tells the cache where they are, and
whoever answers in the place of a service answers about the grain that was asked about.

What every command preserves is `Truthful`: the service is coherent, and everybody has registered grains
at their places alone, so that what the service learns from others is about the grain it asked about.
The main statement is `fast_path_agrees`.
-/

namespace GrainDirectory

/-! ## What travels -/

/-- What is carried to a service asks about the same grain. -/
theorem Wiring.exists_carry_single (w : Wiring) (action : Action) (hop : UInt32) :
    ∃ carried, w.carry (.single action hop) = .single carried hop ∧ carried.grain = action.grain := by
  cases w with
  | framed => exact ⟨action.unscoped, rfl, Action.grain_unscoped action⟩
  | direct => exact ⟨action, rfl, rfl⟩
  | logged => exact ⟨action, rfl, rfl⟩

/-- A reply that is brought back is about the same grain. -/
theorem Reply.About.bring {g : Grain} {reply : Reply} (h : reply.About g) (w : Wiring)
    (op : Operation) : (w.bring op reply).About g := by
  cases w with
  | direct => exact h
  | logged => exact h
  | framed =>
    intro answer hanswer address haddress
    unfold Wiring.bring at hanswer
    dsimp only at hanswer
    cases hframe : Frame.encode Format.reply reply with
    | error e =>
      rw [hframe] at hanswer
      cases hanswer
    | ok frame =>
      rw [hframe, Frame.interpret, Frame.decode_encode Format.carries_reply hframe] at hanswer
      cases reply with
      | error e => cases hanswer
      | ok o =>
        simp only [Reply.unscoped, Reply.checked] at hanswer
        split at hanswer
        · cases o with
          | done => cases hanswer
          | located t =>
            cases hanswer
            obtain ⟨a, ha, rfl⟩ := Option.map_eq_some_iff.mp haddress
            exact h t rfl a ha
        · cases hanswer

/-- What a caller makes of a frame is of the kind that answers its operation. -/
theorem Frame.fits_of_interpret {op : Operation} {answer : Except Error Bytes} {o : Outcome}
    (h : interpret op answer = .ok o) : o.Fits op := by
  unfold interpret at h
  split at h
  · cases h
  · split at h
    · cases h
    · rename_i reply _
      cases reply with
      | error e => cases h
      | ok o' =>
        unfold Reply.checked at h
        dsimp only at h
        split at h
        · rename_i hfits
          rw [← Except.ok.inj h]
          exact hfits
        · cases h

/-- A service answers for the grains that it owns. -/
theorem Service.answers_of_owns {s : Service} {g : Grain} (h : s.Owns g) : s.Answers g := by
  obtain ⟨owner, howner, hhome⟩ := owner_of_owns h
  refine ⟨some owner, howner, ?_⟩
  rintro _ ⟨⟩
  exact hhome

/-- A service that forwards an action does not own its grain. -/
theorem Service.not_owns_of_forward {s : Service} {o : Oracle} {action : Action} {hop : UInt32}
    {owner : Silo} (h : s.verdict o action hop = .forward owner) : ¬ s.Owns action.grain := by
  intro howns
  obtain ⟨howner, hid, -⟩ := owner_of_checkForward (checkForward_of_forward h)
  obtain ⟨owner', howner', hhome⟩ := owner_of_owns howns
  cases howner'.symm.trans howner
  exact hid hhome

namespace Cluster

/-- Whether a request is about grains at their places alone, and whatever a script answers to it is about
the grain that was asked about. -/
structure Admits (place : GrainId → UInt32) (c : Cluster) (request : Request) : Prop where
  placed : ∀ g ∈ request.errand.grains, g.Placed place
  honest : c.wiring = .framed → ∀ silo script, c.scripts.find? silo = some script →
    ∀ g ∈ request.errand.grains,
      Reply.About g (Frame.interpret request.errand.operation script.answer)

/-- A request that asks less of the same may be sent on. -/
theorem Admits.of_errand {place : GrainId → UInt32} {c c' : Cluster} {request request' : Request}
    (h : c.Admits place request) (hwiring : c'.wiring = c.wiring) (hscripts : c'.scripts = c.scripts)
    (hoperation : request'.errand.operation = request.errand.operation)
    (hgrains : ∀ g ∈ request'.errand.grains, g ∈ request.errand.grains) :
    c'.Admits place request' where
  placed g hg := h.placed g (hgrains g hg)
  honest hframed silo script hscript g hg := by
    rw [hoperation]
    exact h.honest (hwiring ▸ hframed) silo script (hscripts ▸ hscript) g (hgrains g hg)

/-- Between services that reach each other directly no script answers. -/
theorem admits_of_ne_framed {place : GrainId → UInt32} {c : Cluster} {request : Request}
    (hwiring : c.wiring ≠ .framed) (hplaced : ∀ g ∈ request.errand.grains, g.Placed place) :
    c.Admits place request := ⟨hplaced, fun hframed => absurd hframed hwiring⟩

/-- Nothing that answers a removal locates anything. -/
theorem admits_unregister {place : GrainId → UInt32} (c : Cluster) {address : GrainAddress}
    (h : address.grain.Placed place) (cause : RemovalCause) (hop : UInt32) :
    c.Admits place (.single (.unregister address cause) hop) where
  placed g hg := by
    rw [List.mem_singleton.mp hg]
    exact h
  honest _ _ _ _ _ _ _ ht := (Frame.fits_of_interpret ht).elim

/-- Whether a service of a cluster is coherent, in the midst of services that have registered grains at
their places alone. -/
structure Truthful (place : GrainId → UInt32) (n : ServiceId) (c : Cluster) : Prop where
  present : n < c.services.length
  coherent : (c.service n).Coherent place c.clock
  placed : ∀ j, (c.service j).partition.Placed place

namespace Truthful

variable {place : GrainId → UInt32} {n i : ServiceId} {c : Cluster} (h : Truthful place n c)

include h

/-- What goes on around the services does not matter. -/
theorem congr {c' : Cluster} (hservices : c'.services = c.services) (hclock : c.clock ≤ c'.clock) :
    Truthful place n c' := by
  have hservice (j : ServiceId) : c'.service j = c.service j := by
    rw [service, service, hservices]
  exact ⟨hservices ▸ h.present, hservice n ▸ h.coherent.later hclock,
    fun j => hservice j ▸ h.placed j⟩

theorem engage (j : ServiceId) : Truthful place n (c.engage j) := h.congr rfl (Nat.le_refl _)

theorem disengage (j : ServiceId) : Truthful place n (c.disengage j) :=
  h.congr rfl (Nat.le_refl _)

theorem log (target : Silo) (request : Request) : Truthful place n (c.log target request) :=
  h.congr rfl (Nat.le_refl _)

theorem elapse (time : Nat) : Truthful place n (c.elapse time) :=
  h.congr rfl (Nat.le_add_right _ _)

/-- Nor does what is known of the silos. -/
theorem inform (o : Oracle) : Truthful place n { c with oracle := o } :=
  h.congr rfl (Nat.le_refl _)

/-- What it takes to change a service. -/
theorem adjust {f : Service → Service}
    (hplaced : (c.service i).partition.Placed place → (f (c.service i)).partition.Placed place)
    (hcoherent : i = n → (c.service i).Coherent place c.moment.now →
      (f (c.service i)).Coherent place c.moment.now) :
    Truthful place n (c.adjust i f) where
  present := by
    rw [length_adjust]
    exact h.present
  coherent := by
    show ((c.adjust i f).service n).Coherent place c.clock
    rw [service_adjust]
    split
    · rename_i hin
      obtain ⟨rfl, -⟩ := hin
      exact hcoherent rfl h.coherent
    · exact h.coherent
  placed j := by
    rw [service_adjust]
    split
    · rename_i hij
      obtain ⟨rfl, -⟩ := hij
      exact hplaced (h.placed i)
    · exact h.placed j

/-- A service may be changed in a way that registers nothing and keeps coherence. -/
theorem adjust_within {f : Service → Service}
    (hwithin : (f (c.service i)).partition.Within (c.service i).partition)
    (hcoherent : (c.service i).Coherent place c.moment.now →
      (f (c.service i)).Coherent place c.moment.now) :
    Truthful place n (c.adjust i f) :=
  h.adjust (fun hplaced => hplaced.of_within hwithin) fun _ => hcoherent

/-! ## The steps of a call -/

theorem accepted (action : Action) (hop : UInt32) : Truthful place n (c.accepted i action hop) :=
  h.adjust_within (.of_eq (Service.partition_accept _ _ _ _)) fun hcoherent =>
    hcoherent.accept action hop

theorem entered (hop : UInt32) : Truthful place n (c.entered i hop) :=
  h.adjust_within (.refl _) fun hcoherent => hcoherent.of_stores rfl rfl rfl

theorem dispatched (action : Action) : Truthful place n (c.dispatched i action) :=
  h.adjust_within (.of_eq (Service.partition_dispatched _ _ _)) fun hcoherent =>
    hcoherent.dispatched action

theorem served {action : Action} (haction : action.grain.Placed place) :
    Truthful place n (c.served i action) := by
  refine h.adjust (fun hplaced => ?_) fun _ hcoherent => hcoherent.serve haction
  rw [Service.partition_serve]
  exact hplaced.apply c.moment haction

theorem learned {action : Action} (haction : action.grain.Placed place)
    (howns : i = n → ¬ (c.service i).Owns action.grain) {reply : Reply}
    (hreply : reply.About action.grain) : Truthful place n (c.learned i action reply) := by
  refine h.adjust (fun hplaced => ?_) fun hin hcoherent =>
    hcoherent.learn (howns hin) haction hreply
  rw [Service.partition_learn]
  exact hplaced

theorem apportioned (cause : RemovalCause) {split : Service.Split}
    (hhere : ∀ a ∈ split.here, a.grain.Placed place) :
    Truthful place n (c.apportioned i cause split) := by
  have hremoved : Truthful place n
      (c.adjust i fun s => s.removeAllHere c.moment cause split.here) :=
    h.adjust_within (Service.within_removeAllHere _ _ _ _) fun hcoherent =>
      hcoherent.removeAllHere cause hhere
  exact hremoved.adjust_within (.refl _) fun hcoherent => hcoherent.count _ _

theorem noted (target : Silo) (request : Request) : Truthful place n (c.noted target request) := by
  unfold Cluster.noted
  split
  · exact h
  · exact h.log target request

end Truthful

/-! ## Calls -/

/-- The ending that keeps a service truthful, with a reply that is about the grain in question. -/
def KeepsTruth (place : GrainId → UInt32) (n : ServiceId) : Ending := fun c _ request reply c' =>
  c.Admits place request → Truthful place n c →
    Truthful place n c' ∧ ∀ action hop, request = .single action hop → reply.About action.grain

variable {place : GrainId → UInt32} {n : ServiceId}

theorem truthful_of_sent {c c' : Cluster} {target : Silo} {request : Request} {reply : Reply}
    (hsent : Sent (KeepsTruth place n) c target request reply c') (hadmits : c.Admits place request)
    (h : Truthful place n c) :
    Truthful place n c' ∧ ∀ action hop, request = .single action hop → reply.About action.grain := by
  cases hsent with
  | oversized _ _ => exact ⟨h, fun _ _ _ => nofun⟩
  | scripted hframed _ hscript =>
    refine ⟨h.log target request, fun action hop heq => ?_⟩
    subst heq
    exact hadmits.honest hframed _ _ hscript action.grain (List.mem_singleton_self _)
  | unreachable _ _ => exact ⟨h, fun _ _ _ => nofun⟩
  | @reached j reply d _ _ _ hend =>
    have harrived : Truthful place n ((c.noted target request).engage j) :=
      (h.noted target request).engage j
    have herrand := Wiring.errand_carry c.wiring request
    have hscripts : (c.noted target request).scripts = c.scripts :=
      scripts_eq_of_outline (outline_noted target request)
    have hcarried : ((c.noted target request).engage j).Admits place (c.wiring.carry request) :=
      hadmits.of_errand (wiring_noted target request) hscripts (by rw [herrand]) fun g hg =>
        herrand ▸ hg
    obtain ⟨hafter, habout⟩ := hend hcarried harrived
    refine ⟨hafter.disengage j, fun action hop heq => ?_⟩
    subst heq
    obtain ⟨carried, hsame, hgrain⟩ := c.wiring.exists_carry_single action hop
    exact (hgrain ▸ habout carried hop hsame).bring c.wiring _

theorem truthful_of_sentAll {c c' : Cluster} {cause : RemovalCause} {hop : UInt32}
    {away : List (Silo × List GrainAddress)} {replies : List Reply}
    (hsent : SentAll (KeepsTruth place n) cause hop c away replies c')
    (hadmits : ∀ owner batch, (owner, batch) ∈ away →
      c.Admits place (.batch batch cause (hop + 1)))
    (h : Truthful place n c) : Truthful place n c' := by
  induction hsent with
  | nil c => exact h
  | cons hkeep hfirst _ ih =>
    have hsecond := (truthful_of_sent hfirst (hadmits _ _ List.mem_cons_self) h).1
    refine ih (fun owner batch hb => ?_) hsecond
    exact (hadmits owner batch (List.mem_cons_of_mem _ hb)).of_errand (wiring_eq_of_outline hkeep)
      (scripts_eq_of_outline hkeep) rfl fun g hg => hg

/-- Every call keeps a service truthful. -/
theorem attended_keepsTruth : Attended (KeepsTruth place n) where
  refused := by
    intro c i action hop e _ _ _ h
    exact ⟨h.accepted action hop, fun _ _ _ => nofun⟩
  served := by
    intro c i action hop _ _ hadmits h
    have haction : action.grain.Placed place := hadmits.placed _ (List.mem_singleton_self _)
    have haccepted := h.accepted (i := i) action hop
    refine ⟨haccepted.served haction, fun action' hop' heq => ?_⟩
    cases heq
    rw [Service.outcome_serve]
    exact (haccepted.placed i).about_apply c.moment haction
  forwarded := by
    intro c i action hop owner reply c' _ hverdict hkeep hsent hadmits h
    have haction : action.grain.Placed place := hadmits.placed _ (List.mem_singleton_self _)
    have hready := (h.accepted (i := i) action hop).dispatched (i := i) action
    have hforward : ((c.accepted i action hop).dispatched i action).Admits place
        (.single action (hop + 1)) := hadmits.of_errand rfl rfl rfl fun g hg => hg
    obtain ⟨hafter, habout⟩ := truthful_of_sent hsent hforward hready
    have hreply := habout action (hop + 1) rfl
    have hforwards : ¬ (c'.service i).Owns action.grain := by
      rw [Service.owns_iff_of_resolver (resolver_eq_of_outline hkeep i)]
      exact Service.not_owns_of_forward hverdict
    refine ⟨hafter.learned haction (fun _ => hforwards) hreply, fun action' hop' heq => ?_⟩
    cases heq
    exact hreply
  batchRefused := by
    intro c i addresses cause hop e _ _ _ h
    exact ⟨h.entered hop, fun _ _ heq => nomatch heq⟩
  batchSplit := by
    intro c i addresses cause hop split replies c' _ hsplit hsent hadmits h
    have hready := (h.entered (i := i) hop).apportioned (i := i) cause fun a ha =>
      hadmits.placed _ (List.mem_map_of_mem ((Service.mem_here hsplit).mp ha).1)
    refine ⟨truthful_of_sentAll hsent (fun owner batch hb => ?_) hready,
      fun _ _ heq => nomatch heq⟩
    refine hadmits.of_errand rfl rfl rfl fun g hg => ?_
    obtain ⟨a, ha, rfl⟩ := List.mem_map.mp hg
    exact List.mem_map_of_mem (Service.destination?_of_mem_away hsplit hb ha).1

namespace Truthful

variable {i : ServiceId} {c : Cluster} (h : Truthful place n c)

include h

theorem call (hi : i < c.services.length) {request : Request} (hadmits : c.Admits place request) :
    Truthful place n ((Cluster.call i request).run c).2 := by
  obtain ⟨reply, c', hrun, -, hend⟩ := attended_keepsTruth.call hi request
  rw [hrun]
  have hengaged : (c.engage i).Admits place request := hadmits.of_errand rfl rfl rfl fun g hg => hg
  exact (hend hengaged (h.engage i)).1.disengage i

theorem transmit (target : Silo) {request : Request} (hadmits : c.Admits place request) :
    Truthful place n ((Cluster.transmit (ways Cluster.call) target request).run c).2 := by
  refine (truthful_of_sent (sent_transmit fun j hj => ?_) hadmits h).1
  have hlive : (c.noted target request).Live j :=
    (live_iff_of_outline (outline_noted target request) j).mpr (live_of_reach? hj)
  exact attended_keepsTruth.call hlive.1 (c.wiring.carry request)

/-! ## What happens around calls -/

/-- What one change preserves, changes of several services preserve. -/
theorem foldl {f : Cluster → ServiceId → Cluster}
    (hstep : ∀ {c} j, Truthful place n c → Truthful place n (f c j)) (ids : List ServiceId) :
    Truthful place n (ids.foldl f c) := by
  induction ids generalizing c with
  | nil => exact h
  | cons j rest ih => exact ih (hstep j h)

theorem release (j : ServiceId) : Truthful place n (c.release j) := by
  have hrelease : ((c.service j).release c.oracle).1.partition = (c.service j).partition ∧
      ((c.service j).release c.oracle).1.cache = (c.service j).cache ∧
      ((c.service j).release c.oracle).1.resolver = (c.service j).resolver := by
    unfold Service.release
    split <;> exact ⟨rfl, rfl, rfl⟩
  obtain ⟨hpartition, hcache, hresolver⟩ := hrelease
  exact (h.inform _).adjust_within (.of_eq hpartition) fun hcoherent =>
    hcoherent.of_stores hresolver hpartition hcache

theorem dismiss (label : String) : Truthful place n (c.dismiss label) := by
  unfold Cluster.dismiss
  split
  · rename_i j _
    have hunlisted : Truthful place n (c.adjust j fun s => { s with listed := false }) :=
      h.adjust_within (.refl _) fun hcoherent => hcoherent.of_stores rfl rfl rfl
    refine hunlisted.foldl (fun k hk => ?_) _
    split
    · exact hk
    · exact hk.release k
  · exact h

theorem deliver (j : ServiceId) : Truthful place n (c.deliver j) := by
  unfold Cluster.deliver
  split
  · exact h
  · split
    · exact h
    · rename_i event oracle _
      exact (h.inform oracle).adjust_within (Service.within_follow _ _ event) fun hcoherent =>
        hcoherent.follow event

theorem start (j : ServiceId) : Truthful place n (c.start j) :=
  (h.adjust_within (Service.within_start (c.service j) c.moment) fun hcoherent =>
    hcoherent.start).inform _

/-- Another service may be stopped. -/
theorem stop {j : ServiceId} (hj : j ≠ n) : Truthful place n (c.stop j) :=
  (h.inform _).adjust (fun hplaced => hplaced.of_within (Service.within_stop _ _)) fun hjn =>
    absurd hjn hj

theorem kill (j : ServiceId) : Truthful place n (c.kill j) := by
  have hgone : Truthful place n
      ((c.report (c.service j).home .dead).detach (c.service j).home).2 :=
    h.congr rfl (Nat.le_refl _)
  exact hgone.foldl (fun k hk => hk.adjust_within (Service.within_removeSilo _ _ _ _)
    fun hcoherent => hcoherent.removeSilo _ _) _

/-- A service that is built has registered nothing. -/
theorem install {b : Blueprint} {c' : Cluster} (hinstall : c.install b = .ok c') :
    Truthful place n c' := by
  have hrest := h.dismiss b.label
  unfold Cluster.install at hinstall
  split at hinstall
  · cases hinstall
  · rename_i s hbuild
    rw [← Except.ok.inj hinstall]
    generalize c.dismiss b.label = d at hrest
    refine ⟨?_, ?_, fun j => ?_⟩
    · exact Nat.lt_of_lt_of_le hrest.present (by simp)
    · rw [service_append, if_neg (Nat.ne_of_lt hrest.present)]
      exact hrest.coherent
    · rw [service_append]
      split
      · exact Service.placed_of_build hbuild
      · exact hrest.placed j

end Truthful

/-! ## Runs -/

/-- Whether a command, in the state that it meets, asks nothing but what is admitted, tells the cache of
a service no location and leaves the service running. -/
def Proper (place : GrainId → UInt32) (n : ServiceId) (c : Cluster) : Command → Prop
  | .call i request => i < c.services.length ∧ c.Admits place request
  | .serve i frame => i < c.services.length ∧
    ∀ request, Frame.decode Format.request frame = .ok request → c.Admits place request
  | .unregisterNonexistent i address _ => i < c.services.length ∧ address.grain.Placed place
  | .suggest i _ _ => i ≠ n
  | .stop i => i ≠ n
  | _ => True

/-- Whether every command of a run is proper in the state that it meets. -/
def AllProper (place : GrainId → UInt32) (n : ServiceId) : Cluster → List Command → Prop
  | _, [] => True
  | c, command :: rest => c.Proper place n command ∧ AllProper place n (command.perform.run c).2 rest

namespace Truthful

variable {i : ServiceId} {c : Cluster} (h : Truthful place n c)

include h

theorem serve (hi : i < c.services.length) {frame : Bytes}
    (hframe : ∀ request, Frame.decode Format.request frame = .ok request →
      c.Admits place request) :
    Truthful place n ((Cluster.serve i frame).run c).2 := by
  unfold Cluster.serve serveFrame
  split
  · exact h
  · rename_i request hrequest
    rw [Activity.run_bind]
    exact h.call hi (hframe request hrequest)

theorem unregisterNonexistent (hi : i < c.services.length) {address : GrainAddress}
    (haddress : address.grain.Placed place) (origin : Option Silo) :
    Truthful place n ((Cluster.unregisterNonexistent i address origin).run c).2 := by
  have hadmits := admits_unregister (c.engage i) haddress .nonexistentActivation 0
  have hengaged := h.engage i
  have hcall := hengaged.call hi hadmits
  unfold Cluster.unregisterNonexistent
  rw [run_attended]
  refine disengage ?_ i
  dsimp only
  rw [Activity.run_bind, Activity.run_look]
  dsimp only
  split
  · exact hcall
  · rename_i silo
    split
    · exact hcall
    · have hsent := hengaged.transmit silo hadmits
      rw [run_transmit] at hsent
      split
      · rename_i e hways
        rw [hways] at hsent
        exact hsent
      · rename_i peer hways
        rw [hways] at hsent
        exact hsent

theorem awaitMember (silo : Silo) (patience looks interval : Nat) :
    Truthful place n ((Cluster.awaitMember i silo patience looks interval).run c).2 := by
  obtain ⟨time, heq⟩ := exists_elapse_awaitMember i silo patience looks interval c
  rw [heq]
  exact h.elapse time

/-- What a proper command leaves behind. -/
theorem perform {command : Command} (hproper : c.Proper place n command) :
    Truthful place n (command.perform.run c).2 := by
  cases command with
  | call i request =>
    rw [Command.perform, Command.run_replied]
    exact h.call hproper.1 hproper.2
  | serve i frame =>
    rw [Command.perform, Activity.run_bind]
    exact h.serve hproper.1 hproper.2
  | unregisterNonexistent i address origin =>
    rw [Command.perform, Command.run_replied]
    exact h.unregisterNonexistent hproper.1 hproper.2 origin
  | localLookup i grain =>
    rw [Command.perform, Activity.run_bind]
    exact h.adjust_within (Service.within_localLookup _ _ _) fun hcoherent =>
      hcoherent.localLookup grain
  | cachedAddress i grain =>
    rw [Command.perform, Activity.run_bind]
    exact h.adjust_within (.refl _) fun hcoherent => hcoherent.cachedAddress grain
  | suggest i grain silo =>
    exact h.adjust (fun hplaced => hplaced) fun hin => absurd hin hproper
  | forget i grain =>
    rw [Command.perform, Command.run_flagged]
    exact h.adjust_within (.refl _) fun hcoherent => hcoherent.forget grain
  | forgetAddress i address =>
    rw [Command.perform, Command.run_flagged]
    exact h.adjust_within (.refl _) fun hcoherent => hcoherent.forgetAddress address
  | awaitMember i silo patience looks interval =>
    rw [Command.perform, Activity.run_bind]
    exact h.awaitMember silo patience looks interval
  | follow i event =>
    exact h.adjust_within (Service.within_follow _ _ _) fun hcoherent => hcoherent.follow event
  | addSilo i silo =>
    rw [Command.perform, Command.run_flagged]
    exact h.adjust_within (Service.within_addSilo _ _ _) fun hcoherent => hcoherent.addSilo silo
  | removeSilo i silo status =>
    rw [Command.perform, Command.run_flagged]
    exact h.adjust_within (Service.within_removeSilo _ _ _ _) fun hcoherent =>
      hcoherent.removeSilo silo status
  | deliver i => exact h.deliver i
  | install blueprint =>
    rw [Command.perform, Activity.run_act]
    split
    · exact h
    · rename_i hinstall
      exact h.install hinstall
  | start i => exact h.start i
  | stop i => exact h.stop hproper
  | dismiss label => exact h.dismiss label
  | attach i => exact h.congr rfl (Nat.le_refl _)
  | detach silo => exact h.congr rfl (Nat.le_refl _)
  | script silo answer => exact h.congr rfl (Nat.le_refl _)
  | unscript silo => exact h.congr rfl (Nat.le_refl _)
  | report silo status => exact h.inform _
  | kill i => exact h.kill i
  | elapse time => exact h.elapse time

/-- What a run of proper commands leaves behind. -/
theorem afterAll {commands : List Command} (hproper : AllProper place n c commands) :
    Truthful place n (c.afterAll commands) := by
  induction commands generalizing c with
  | nil => exact h
  | cons command rest ih => exact ih (h.perform hproper.1) hproper.2

end Truthful

/-! ## Both ways -/

/-- A service answers a lookup of a grain that it owns by what it has registered. -/
theorem call_lookup_of_owns {c : Cluster} {i : ServiceId} (hi : i < c.services.length) {g : Grain}
    (howns : (c.service i).Owns g) :
    ((Cluster.call i (.single (.lookup g) 0)).run c).1 =
      .ok (.located ((c.service i).partition.lookup g)) :=
  (call_of_answers hi (.lookup g) 0 (Service.answers_of_owns howns)).1

/-- Whether the two ways to ask a service about a grain agree: what its cache says is what its partition
has registered, tag included, and both find the address that is registered, or nothing. -/
structure FastPathAgrees (c : Cluster) (n : ServiceId) (g : Grain) : Prop where
  cached : ∀ e, (c.service n).cache.find? c.clock g.id = some e →
    ∃ r, (c.service n).partition.registration? g.id = some r ∧ r.address = e.address ∧ r.tag = e.tag
  fast : ∃ answer, ((c.service n).localLookup c.moment g).1 = .ok answer ∧
    (answer.isSome ↔ ((c.service n).registered? g).isSome) ∧
    ∀ t, answer = some t → t.address = (c.service n).registered? g
  slow : ∃ t, ((Cluster.call n (.single (.lookup g) 0)).run c).1 = .ok (.located t) ∧
    t.address = (c.service n).registered? g

/-- Whether a service of a cluster is as it was built, in the midst of services that have registered
grains at their places alone. -/
structure Pristine (place : GrainId → UInt32) (n : ServiceId) (c : Cluster) : Prop where
  present : n < c.services.length
  built : ∃ (b : Blueprint) (time : Nat), b.build time = .ok (c.service n)
  placed : ∀ j, (c.service j).partition.Placed place

theorem Pristine.start {c : Cluster} (h : Pristine place n c) : Truthful place n (c.start n) := by
  obtain ⟨b, time, hbuild⟩ := h.built
  have hservice (j : ServiceId) : (c.start n).service j =
      (c.adjust n fun _ => ((c.service n).start c.moment).1).service j := rfl
  refine ⟨?_, ?_, fun j => ?_⟩
  · show n < (c.adjust n _).services.length
    rw [length_adjust]
    exact h.present
  · rw [hservice, service_adjust_self h.present]
    exact Service.coherent_start_of_build (m := c.moment) hbuild
  · rw [hservice, service_adjust]
    split
    · exact (h.placed n).of_within (Service.within_start _ _)
    · exact h.placed j

/-- Whatever happens to a service that was started as it was built, the two ways to ask it about a grain
that it owns agree. -/
theorem fast_path_agrees {c : Cluster} (hpristine : Pristine place n c) {commands : List Command}
    (hproper : AllProper place n (c.start n) commands) {g : Grain} (hg : g.Placed place)
    (howns : (((c.start n).afterAll commands).service n).Owns g) :
    FastPathAgrees ((c.start n).afterAll commands) n g := by
  have h := hpristine.start.afterAll hproper
  refine ⟨fun e he => h.coherent.confirmed_of_owns hg howns he, ?_, ?_⟩
  · exact Service.Coherent.localLookup_of_owns (m := Cluster.moment _) h.coherent hg howns
  · exact ⟨_, call_lookup_of_owns h.present howns, Service.address_lookup _ _⟩

/-- A service that runs at place 20, and one that has just been installed at place 10. -/
def secondInstalled : Cluster :=
  let silo20 : Silo := ⟨⟨.v4 1 1, 1⟩, 20⟩
  let silo10 : Silo := ⟨⟨.v4 1 2, 1⟩, 10⟩
  let c : Cluster :=
    { oracle := .ofActive [silo20, silo10]
      services := [freshService silo20 ⟨[silo20]⟩]
      routes := (Table.empty.put ⟨silo20, 0⟩).put ⟨silo10, 1⟩ }
  match c.install { label := "b", home := silo10 } with
  | .ok c => c
  | .error _ => c

/-- Activations of a grain at place 15, on the silo of the service that was installed. -/
def activationAt15 (number : BitVec 128) : GrainAddress :=
  ⟨⟨⟨⟨"g"⟩, "k"⟩, 15⟩, ⟨number⟩, (secondInstalled.service 1).home⟩

/-- The service that was installed learns of the activation that the other one has registered; the other
one dies, and another activation is registered. -/
def ownerDies : List Command :=
  [.call 0 (.single (.register (activationAt15 1) none) 0),
    .call 1 (.single (.lookup (activationAt15 1).grain) 0),
    .follow 1 ⟨(secondInstalled.service 0).home, .dead⟩,
    .call 1 (.single (.register (activationAt15 2) none) 0)]

theorem fast_path_agrees_ownerDies :
    Pristine (fun _ => 15) 1 secondInstalled ∧ AllProper (fun _ => 15) 1 (secondInstalled.start 1) ownerDies ∧
      (activationAt15 2).grain.Placed (fun _ => 15) ∧
      (((secondInstalled.start 1).afterAll ownerDies).service 1).Owns (activationAt15 2).grain ∧
      FastPathAgrees ((secondInstalled.start 1).afterAll ownerDies) 1 (activationAt15 2).grain ∧
      (((secondInstalled.start 1).afterAll ownerDies).service 1).cache.find? 0 (activationAt15 2).grain.id =
        some ⟨activationAt15 2, 1, 0⟩ := by
  have hpristine : Pristine (fun _ => 15) 1 secondInstalled := by
    refine ⟨by decide, ⟨{ label := "b", home := (secondInstalled.service 1).home }, 0, rfl⟩, ?_⟩
    intro j id r hr
    rcases j with _ | _ | j <;> cases hr
  have hproper : AllProper (fun _ => 15) 1 (secondInstalled.start 1) ownerDies :=
    ⟨⟨by decide, admits_of_ne_framed (by decide) (by decide)⟩,
      ⟨by decide, admits_of_ne_framed (by decide) (by decide)⟩, trivial,
      ⟨by decide, admits_of_ne_framed (by decide) (by decide)⟩, trivial⟩
  have howns : (((secondInstalled.start 1).afterAll ownerDies).service 1).Owns (activationAt15 2).grain := by
    decide
  exact ⟨hpristine, hproper, rfl, howns, fast_path_agrees hpristine hproper rfl howns, by decide⟩

end Cluster

end GrainDirectory

import Mathlib.Logic.Relation
import GrainDirectory.Proofs.Coherence
import GrainDirectory.Proofs.Forwarding
import GrainDirectory.Proofs.Interleaving
import GrainDirectory.Proofs.Membership.Noninterference
set_option autoImplicit false

/-!
# What services serve

The stock of a service is what its resolver sees and what its partition has registered.  Whatever calls
are made of the service or pass through it, and wherever they come from, its stock changes by actions
that it serves, each in a state in which it answers for the grain (`Stock.Serves`).  That is so whatever
others do while a call waits; `peersObey_perform` says it of all calls.
-/

namespace GrainDirectory

/-! ## Stocks -/

/-- What decides over the registrations of a service, and the registrations. -/
structure Stock where
  resolver : Resolver
  partition : Partition

/-- The stock of a service. -/
def Service.stock (s : Service) : Stock := ⟨s.resolver, s.partition⟩

/-- What is registered after an action was before, or the action asks to register it. -/
theorem Partition.registration?_apply_cases {p : Partition} {m : Moment} {action : Action}
    {id : GrainId} {r : Registration} (h : (p.apply m action).2.registration? id = some r) :
    p.registration? id = some r ∨ ∃ previous, action = .register r.address previous := by
  cases action with
  | register address previous =>
    rcases p.registration?_add_cases m.oracle m.now h with hold | ⟨-, hnew⟩
    · exact .inl hold
    · exact .inr ⟨previous, by rw [hnew]⟩
  | unregister address cause => exact .inl (p.within_removeActivation m.now address cause id r h)
  | lookup grain => exact .inl h
  | delete grain => exact .inl (p.within_removeGrain grain id r h)

namespace Stock

/-- One action of those in question is served, for a grain that the service answers for. -/
inductive Serves (asks : Action → Prop) (s : Stock) : Stock → Prop
  | served {action : Action} {target : Option Silo} (m : Moment) (hasks : asks action)
      (howner : s.resolver.owner? action.grain = .ok target)
      (hhome : ∀ owner ∈ target, owner.id = s.resolver.home.id) :
      Serves asks s { s with partition := (s.partition.apply m action).2 }

/-- Actions in question are served one after the other. -/
abbrev ServesAll (asks : Action → Prop) : Stock → Stock → Prop := Relation.ReflTransGen (Serves asks)

theorem ServesAll.resolver_eq {asks : Action → Prop} {s s' : Stock} (h : ServesAll asks s s') :
    s'.resolver = s.resolver := by
  induction h with
  | refl => rfl
  | tail _ hlast ih =>
    cases hlast
    exact ih

/-- What is registered in the end was before, or it has been asked to be registered, for a grain that the
service answers for. -/
theorem ServesAll.registration?_cases {asks : Action → Prop} {s s' : Stock} (h : ServesAll asks s s')
    {id : GrainId} {r : Registration} (hr : s'.partition.registration? id = some r) :
    s.partition.registration? id = some r ∨ (∃ previous, asks (.register r.address previous)) ∧
      ∃ target, s.resolver.owner? r.address.grain = .ok target ∧
        ∀ owner ∈ target, owner.id = s.resolver.home.id := by
  induction h with
  | refl => exact .inl hr
  | @tail t _ hbefore hlast ih =>
    cases hlast with
    | served m hasks howner hhome =>
      rcases Partition.registration?_apply_cases hr with hold | ⟨previous, rfl⟩
      · exact ih hold
      · rw [ServesAll.resolver_eq hbefore] at howner hhome
        exact .inr ⟨⟨previous, hasks⟩, _, howner, hhome⟩

end Stock

/-! ## What requests ask for -/

/-- The actions that a request asks for. -/
def Request.actions : Request → List Action
  | .single action _ => [action]
  | .batch addresses cause _ => addresses.map fun a => .unregister a cause

theorem Request.actions_unscoped (request : Request) :
    request.unscoped.actions = request.actions.map Action.unscoped := by
  cases request with
  | single action hop => rfl
  | batch addresses cause hop =>
    simp only [unscoped, actions, List.map_map]
    rfl

theorem Action.unscoped_unscoped (action : Action) : action.unscoped.unscoped = action.unscoped := by
  have haddress (a : GrainAddress) : a.unscoped.unscoped = a.unscoped := by
    simp only [GrainAddress.unscoped, Silo.unscoped_unscoped]
  cases action with
  | register address previous =>
    simp only [unscoped, haddress, Option.map_map, Function.comp_def]
  | unregister address cause => simp only [unscoped, haddress]
  | lookup grain => rfl
  | delete grain => rfl

namespace Cluster

variable {asks : Action → Prop} {n : ServiceId}

/-- Whether nothing has become of the stock of a service but that it has served actions in question. -/
structure Serving (asks : Action → Prop) (n : ServiceId) (c c' : Cluster) : Prop where
  length : c'.services.length = c.services.length
  stock : Stock.ServesAll asks (c.service n).stock (c'.service n).stock

instance (asks : Action → Prop) (n : ServiceId) : IsPreorder Cluster (Serving asks n) where
  refl _ := ⟨rfl, .refl⟩
  trans _ _ _ h h' := ⟨h'.length.trans h.length, h.stock.trans h'.stock⟩

theorem Serving.refl (c : Cluster) : Serving asks n c c := refl_of _ c

/-- A service that serves actions leaves the others alone. -/
theorem Serving.adjust {c : Cluster} {i : ServiceId} {f : Service → Service}
    (h : Stock.ServesAll asks (c.service i).stock (f (c.service i)).stock) :
    Serving asks n c (c.adjust i f) := by
  refine ⟨c.length_adjust i f, ?_⟩
  rw [service_adjust]
  split
  · rename_i hin
    rw [← hin.1]
    exact h
  · exact .refl

/-- What changes no stock. -/
theorem Serving.of_stock {c : Cluster} {i : ServiceId} {f : Service → Service}
    (h : (f (c.service i)).stock = (c.service i).stock) : Serving asks n c (c.adjust i f) :=
  .adjust (h ▸ .refl)

end Cluster

namespace Service

variable (s : Service) (m : Moment)

theorem stock_of_outline {t : Service} (h : t.outline = s.outline)
    (hpartition : t.partition = s.partition) : t.stock = s.stock := by
  have hresolver : t.outline.resolver = s.outline.resolver := by rw [h]
  exact congrArg₂ Stock.mk hresolver hpartition

theorem stock_accept (action : Action) (hop : UInt32) :
    (s.accept m action hop).stock = s.stock :=
  stock_of_outline s (outline_accept s m action hop) (s.partition_accept m action hop)

theorem stock_dispatch {t : Service} {action : Action} {owner : Silo}
    (h : s.dispatch m action owner = .ok t) : t.stock = s.stock := by
  refine stock_of_outline s (outline_dispatch h) ?_
  unfold dispatch at h
  split at h
  · split at h
    · rw [← Except.ok.inj h]
      rfl
    · cases h
  · rw [← Except.ok.inj h]
    rfl
  · rw [← Except.ok.inj h]
    rfl

theorem stock_learn (action : Action) (reply : Reply) : (s.learn m action reply).stock = s.stock :=
  stock_of_outline s (outline_learn s m action reply) (s.partition_learn m action reply)

theorem stock_serve (action : Action) :
    (s.serve m action).2.stock =
      { s.stock with partition := (s.partition.apply m action).2 } := by
  have hresolver : (s.serve m action).2.outline.resolver = s.outline.resolver := by
    rw [outline_serve]
  exact congrArg₂ Stock.mk hresolver (s.partition_serve m action)

variable {s m} {asks : Action → Prop}

theorem serves_serve {action : Action} (hanswers : s.Answers action.grain) (hasks : asks action) :
    Stock.ServesAll asks s.stock (s.serve m action).2.stock := by
  obtain ⟨target, howner, hhome⟩ := hanswers
  rw [stock_serve]
  exact .single (.served m hasks howner hhome)

/-- The part of a batch that stays is served address by address. -/
theorem serves_removeAllHere {cause : RemovalCause} {addresses : List GrainAddress}
    (hanswers : ∀ a ∈ addresses, s.Answers a.grain)
    (hasks : ∀ a ∈ addresses, asks (.unregister a cause)) :
    Stock.ServesAll asks s.stock (s.removeAllHere m cause addresses).stock := by
  unfold removeAllHere
  induction addresses generalizing s with
  | nil => exact .refl
  | cons a rest ih =>
    obtain ⟨target, howner, hhome⟩ := hanswers a List.mem_cons_self
    have hfirst : Stock.Serves asks s.stock (s.removeHere m cause a).stock :=
      .served m (hasks a List.mem_cons_self) howner hhome
    exact .head hfirst (ih (s := s.removeHere m cause a)
      (fun b hb => hanswers b (List.mem_cons_of_mem a hb)) fun b hb =>
        hasks b (List.mem_cons_of_mem a hb))

end Service

namespace Cluster

/-! ## Calls serve what they are asked for -/

section Calls

variable {α : Type} {asks : Action → Prop} {n : ServiceId} {c : Cluster}

theorem obeys_inspect {i : ServiceId} {f : Service → Moment → α} {Q : α → Cluster → Prop}
    (h : Q (f (c.service i) c.moment) c) : (inspect i f).Obeys (Serving asks n) Q c := h

/-- A change that touches no stock. -/
theorem obeys_revise {i : ServiceId} {f : Service → Moment → Service} {Q : Unit → Cluster → Prop}
    (hf : ∀ s m, (f s m).stock = s.stock) (h : ∀ c, Q () c) :
    (revise i f).Obeys (Serving asks n) Q c :=
  Activity.obeys_update (.of_stock (hf _ _)) (h _)

theorem obeys_waitToRetry (i : ServiceId) {Q : Unit → Cluster → Prop} (h : ∀ c, Q () c) :
    (waitToRetry i).Obeys (Serving asks n) Q c :=
  Activity.Obeys.bind (obeys_inspect (Activity.obeys_wait _ h))

theorem obeys_attended {i : ServiceId} {p : Activity Cluster α}
    (h : ∀ c, p.Obeys (Serving asks n) (fun _ _ => True) c) :
    (attended i p).Obeys (Serving asks n) (fun _ _ => True) c := by
  refine Activity.Obeys.bind (Activity.obeys_update ⟨rfl, .refl⟩ (Activity.Obeys.bind ?_))
  refine (h _).mono fun a c _ => ?_
  exact Activity.Obeys.bind (Activity.obeys_update ⟨rfl, .refl⟩ trivial)

/-- Where an action goes is what the resolver says in the end. -/
theorem obeys_resolve {i : ServiceId} {action : Action} {hop : UInt32}
    {Q : Except Error (Option Silo) → Cluster → Prop}
    (h : ∀ c, Q ((c.service i).resolver.checkForward action.grain hop action.operation.name) c) :
    (resolve i action hop).Obeys (Serving asks n) Q c := by
  refine Activity.Obeys.bind (obeys_inspect ?_)
  split
  · split
    · exact Activity.obeys_pure (h c)
    · exact Activity.Obeys.bind (obeys_waitToRetry i fun c => obeys_inspect (h c))
  · exact Activity.obeys_pure (h c)

/-- Whether everybody reached over some ways serves nothing but what is in question. -/
def WaysObey (asks : Action → Prop) (n : ServiceId) (ways : Ways) : Prop :=
  ∀ c target peer, ways c target = .ok peer → ∀ request, (∀ action ∈ request.actions, asks action) →
    ∀ c, (peer request).Obeys (Serving asks n) (fun _ _ => True) c

section Handling

variable {ways : Ways} (hways : WaysObey asks n ways)

include hways

theorem obeys_forward (i : ServiceId) {action : Action} (hasks : asks action) (hop : UInt32)
    (owner : Silo) : (forward ways i action hop owner).Obeys (Serving asks n) (fun _ _ => True) c := by
  refine Activity.Obeys.bind (Activity.obeys_act ?_ ?_)
  · refine .of_stock (f := fun _ => _) ?_
    dsimp only
    split
    · rfl
    · rename_i hdispatch
      exact Service.stock_dispatch _ _ hdispatch
  · dsimp only
    split
    · exact Activity.obeys_pure trivial
    · refine Activity.Obeys.bind (Activity.obeys_look ?_)
      split
      · exact Activity.obeys_pure trivial
      · rename_i peer hpeer
        refine Activity.Obeys.bind ((hways _ _ _ hpeer _ ?_ _).mono fun reply c _ => ?_)
        · intro a ha
          rw [List.mem_singleton.mp ha]
          exact hasks
        · exact Activity.Obeys.bind (obeys_revise (fun s m => s.stock_learn m action reply)
            fun c => Activity.obeys_pure trivial)

theorem obeys_handleAction (i : ServiceId) {action : Action} (hasks : asks action) (hop : UInt32) :
    (handleAction ways i action hop).Obeys (Serving asks n) (fun _ _ => True) c := by
  refine Activity.Obeys.bind (obeys_revise (fun s m => s.stock_accept m action hop) fun c => ?_)
  refine Activity.Obeys.bind (obeys_resolve fun c => ?_)
  split
  · exact Activity.obeys_pure trivial
  · rename_i hcheck
    refine Activity.Obeys.bind (Activity.obeys_act (.adjust ?_) (Activity.obeys_pure trivial))
    exact Service.serves_serve (Service.answers_of_checkForward hcheck) hasks
  · exact obeys_forward hways i hasks hop _

/-- Every part of a batch is part of what the batch asks for. -/
theorem obeys_deliverAway (i : ServiceId) {cause : RemovalCause} (hop : UInt32)
    {away : List (Silo × List GrainAddress)}
    (hasks : ∀ p ∈ away, ∀ a ∈ p.2, asks (.unregister a cause)) :
    (deliverAway ways i cause hop away).Obeys (Serving asks n) (fun _ _ => True) c := by
  refine Activity.Obeys.bind (obeys_revise (fun _ _ => rfl) fun c => ?_)
  refine Activity.Obeys.bind (Activity.obeys_look ?_)
  refine Activity.Obeys.bind (Activity.obeys_all ?_ fun _ _ => Activity.obeys_pure trivial)
  intro p hp c'
  obtain ⟨a, ha, rfl⟩ := List.mem_map.mp hp
  unfold deliverTo
  split
  · exact Activity.obeys_pure trivial
  · rename_i peer hpeer
    refine hways _ _ _ hpeer _ ?_ c'
    intro action haction
    obtain ⟨b, hb, rfl⟩ := List.mem_map.mp haction
    exact hasks a ha b hb

theorem obeys_handleBatch (i : ServiceId) {addresses : List GrainAddress} {cause : RemovalCause}
    (hasks : ∀ a ∈ addresses, asks (.unregister a cause)) (hop : UInt32) :
    (handleBatch ways i addresses cause hop).Obeys (Serving asks n) (fun _ _ => True) c := by
  -- What a split leaves here is served in the state that is split.
  have hremove {c : Cluster} {batch : List GrainAddress} {split : Service.Split}
      (hbatch : ∀ a ∈ batch, asks (.unregister a cause))
      (hsplit : (c.service i).split hop batch = .ok split) :
      Serving asks n c (c.adjust i fun s => s.removeAllHere c.moment cause split.here) := by
    refine .adjust (Service.serves_removeAllHere (fun a ha => ?_) fun a ha => ?_)
    · obtain ⟨hmem, hnone⟩ := (Service.mem_here hsplit).mp ha
      have hresolves := Service.resolves_of_split hsplit a hmem
      rw [Service.Resolves, hnone] at hresolves
      exact Service.answers_of_checkForward hresolves
    · exact hbatch a ((Service.mem_here hsplit).mp ha).1
  have haway {c : Cluster} {batch : List GrainAddress} {split : Service.Split}
      (hbatch : ∀ a ∈ batch, asks (.unregister a cause))
      (hsplit : (c.service i).split hop batch = .ok split) :
      ∀ p ∈ split.away, ∀ a ∈ p.2, asks (.unregister a cause) := fun p hp a ha =>
    hbatch a (Service.destination?_of_mem_away hsplit hp ha).1
  refine Activity.Obeys.bind (obeys_revise (fun _ _ => rfl) fun c => ?_)
  refine Activity.Obeys.bind (obeys_inspect ?_)
  split
  · exact Activity.obeys_pure trivial
  · rename_i split hsplit
    refine Activity.Obeys.bind (Activity.obeys_update (hremove hasks hsplit) ?_)
    split
    · exact obeys_deliverAway hways i hop (haway hasks hsplit)
    · refine Activity.Obeys.bind (obeys_waitToRetry i fun c' => ?_)
      refine Activity.Obeys.bind (obeys_inspect ?_)
      split
      · exact Activity.obeys_pure trivial
      · rename_i again hagain
        have hpending : ∀ a ∈ split.pending, asks (.unregister a cause) := by
          intro a ha
          obtain ⟨p, hp, ha⟩ := List.mem_flatMap.mp ha
          exact haway hasks hsplit p hp a ha
        exact Activity.Obeys.bind (Activity.obeys_update (hremove hpending hagain)
          (obeys_deliverAway hways i hop (haway hpending hagain)))

theorem obeys_handle (i : ServiceId) {request : Request}
    (hasks : ∀ action ∈ request.actions, asks action) :
    (handle ways i request).Obeys (Serving asks n) (fun _ _ => True) c := by
  cases request with
  | single action hop => exact obeys_handleAction hways i (hasks action List.mem_cons_self) hop
  | batch addresses cause hop =>
    exact obeys_handleBatch hways i (fun a ha => hasks _ (List.mem_map_of_mem ha)) hop

end Handling

/-- Whether services serve nothing but what they are asked for, where that is in question. -/
def PeersObey (asks : Action → Prop) (n : ServiceId) (peer : ServiceId → Peer) : Prop :=
  ∀ i request, (∀ action ∈ request.actions, asks action) →
    ∀ c, (peer i request).Obeys (Serving asks n) (fun _ _ => True) c

section Ways

variable {peer : ServiceId → Peer} (hpeer : PeersObey asks n peer)

include hpeer

theorem obeys_serveFrame (i : ServiceId) {frame : Bytes}
    (hasks : ∀ request, Frame.decode Format.request frame = .ok request →
      ∀ action ∈ request.actions, asks action) :
    (serveFrame peer i frame).Obeys (Serving asks n) (fun _ _ => True) c := by
  unfold serveFrame
  split
  · exact Activity.obeys_pure trivial
  · rename_i request hrequest
    exact Activity.Obeys.bind ((hpeer i request (hasks request hrequest) c).mono fun _ _ _ =>
      Activity.obeys_pure trivial)

/-- What travels in a frame asks for the same without the scopes of its addresses. -/
theorem obeys_callFramed (hclosed : ∀ action, asks action → asks action.unscoped) (target : Silo)
    {request : Request} (hasks : ∀ action ∈ request.actions, asks action) :
    (callFramed peer target request).Obeys (Serving asks n) (fun _ _ => True) c := by
  unfold callFramed
  split
  · exact Activity.obeys_pure trivial
  · rename_i frame hframe
    have hcarried : ∀ carried, Frame.decode Format.request frame = .ok carried →
        ∀ action ∈ carried.actions, asks action := by
      intro carried hcarried action haction
      rw [Frame.decode_encode Format.carries_request hframe] at hcarried
      rw [← Except.ok.inj hcarried, Request.actions_unscoped] at haction
      obtain ⟨b, hb, rfl⟩ := List.mem_map.mp haction
      exact hclosed b (hasks b hb)
    have hexchange : (exchange peer target request frame).Obeys (Serving asks n)
        (fun _ _ => True) c := by
      refine Activity.Obeys.bind (Activity.obeys_look ?_)
      split
      · exact Activity.Obeys.bind
          (Activity.obeys_update ⟨rfl, .refl⟩ (Activity.obeys_pure trivial))
      · split
        · exact Activity.obeys_pure trivial
        · exact Activity.Obeys.bind
            (Activity.obeys_update ⟨rfl, .refl⟩ (obeys_serveFrame hpeer _ hcarried))
    exact Activity.Obeys.bind (hexchange.mono fun _ _ _ => Activity.obeys_pure trivial)

theorem waysObey_ways (hclosed : ∀ action, asks action → asks action.unscoped) :
    WaysObey asks n (ways peer) := by
  intro c target way hway request hasks c'
  unfold ways at hway
  split at hway
  · rw [← Except.ok.inj hway]
    exact obeys_callFramed hpeer hclosed target hasks
  · split at hway
    · rw [← Except.ok.inj hway]
      exact Activity.Obeys.bind
        (Activity.obeys_update ⟨rfl, .refl⟩ (hpeer _ request hasks _))
    · cases hway
  · split at hway
    · rw [← Except.ok.inj hway]
      exact hpeer _ request hasks c'
    · cases hway

end Ways

theorem waysObey_noWays : WaysObey asks n noWays := by
  intro c target peer h
  cases h

/-- A call serves what it asks for, however often it may be forwarded and whatever happens at other
services or while it waits. -/
theorem peersObey_perform (hclosed : ∀ action, asks action → asks action.unscoped) (forwards : Nat) :
    PeersObey asks n (perform forwards) := by
  induction forwards with
  | zero =>
    intro i request hasks c
    exact obeys_attended fun c => obeys_handle waysObey_noWays i hasks
  | succ forwards ih =>
    intro i request hasks c
    exact obeys_attended fun c => obeys_handle (waysObey_ways ih hclosed) i hasks

end Calls

end Cluster

end GrainDirectory

import GrainDirectory.Cluster.Calls
set_option autoImplicit false

/-!
# What calls leave alone

A directory call changes registrations, cached entries and counts, and it may be logged.  Everything
else about a cluster stays as it was; this is its outline.  Where a call goes is read off the outline
alone: the resolvers of the services, the ways to silos and what the oracle says.  So every decision is
the same before, during and after any other call.

The proof goes along the activity of a call: `Activity.Keeps` says that carrying an activity out leaves
what a view shows of the state as it was, and each combinator keeps what its parts keep.
-/

namespace GrainDirectory

namespace Activity

variable {σ α β γ : Type}

/-- Whether an activity, carried out at once, leaves what `view` shows of the state as it was. -/
def Keeps (view : σ → γ) (p : Activity σ α) : Prop := ∀ s, view (p.run s).2 = view s

theorem keeps_pure (view : σ → γ) (a : α) : (pure a : Activity σ α).Keeps view := fun _ => rfl

theorem keeps_look (view : σ → γ) : (look : Activity σ σ).Keeps view := fun _ => rfl

theorem keeps_wait (view : σ → γ) (time : Nat) : (wait time : Activity σ Unit).Keeps view :=
  fun _ => rfl

theorem keeps_update {view : σ → γ} {f : σ → σ} (h : ∀ s, view (f s) = view s) :
    (update f).Keeps view := h

theorem keeps_act {view : σ → γ} {f : σ → α × σ} (h : ∀ s, view (f s).2 = view s) :
    (act f).Keeps view := h

theorem Keeps.bind {view : σ → γ} {p : Activity σ α} {k : α → Activity σ β}
    (hp : p.Keeps view) (hk : ∀ a, (k a).Keeps view) : (p >>= k).Keeps view := by
  intro s
  rw [run_bind]
  exact (hk _ _).trans (hp s)

theorem keeps_all {view : σ → γ} {branches : List (Activity σ α)}
    (h : ∀ p ∈ branches, p.Keeps view) : (all branches).Keeps view := by
  induction branches with
  | nil => intro s; rfl
  | cons p rest ih =>
    intro s
    rw [run_all_cons]
    have hrest := ih (fun q hq => h q (List.mem_cons_of_mem p hq))
    exact (hrest _).trans (h p List.mem_cons_self s)

end Activity

/-! ## Outlines of the stores -/

/-- A partition without its registrations and the count of its tags. -/
def Partition.outline (p : Partition) : Partition := { p with entries := .empty, nextTag := 1 }

namespace Partition

@[simp] theorem outline_add (p : Partition) (o : Oracle) (now : Nat) (address : GrainAddress)
    (previous : Option GrainAddress) : (p.add o now address previous).2.outline = p.outline := by
  unfold add
  split
  · rfl
  · split
    · rfl
    · split <;> rfl

@[simp] theorem outline_removeActivation (p : Partition) (now : Nat) (g : Grain)
    (activation : ActivationId) (cause : RemovalCause) :
    (p.removeActivation now g activation cause).2.outline = p.outline := by
  unfold removeActivation
  split
  · rfl
  · split <;> rfl

@[simp] theorem outline_removeGrain (p : Partition) (g : Grain) :
    (p.removeGrain g).2.outline = p.outline := by
  unfold removeGrain
  split <;> rfl

end Partition

/-- A cache without its entries and what it has noted for its upkeep. -/
def Cache.outline (c : Cache) : Cache := { c with entries := .empty, upkeep := {} }

namespace Cache

@[simp] theorem outline_noteRead (c : Cache) (now : Nat) : (c.noteRead now).outline = c.outline := by
  unfold noteRead
  split
  · rfl
  · split <;> rfl

@[simp] theorem outline_noteWrite (c : Cache) (now : Nat) (storing : Option GrainId) :
    (c.noteWrite now storing).outline = c.outline := by
  unfold noteWrite
  split
  · rfl
  · split <;> rfl

@[simp] theorem outline_add (c : Cache) (now : Nat) (address : GrainAddress) (tag : Int32) :
    (c.add now address tag).outline = c.outline := by
  unfold add
  split
  · exact outline_noteWrite _ _ _
  · rfl

@[simp] theorem outline_remove (c : Cache) (now : Nat) (g : GrainId) :
    (c.remove now g).outline = c.outline := by
  unfold remove
  split
  · exact outline_noteWrite _ _ _
  · rfl

@[simp] theorem outline_removeAddress (c : Cache) (now : Nat) (address : GrainAddress) :
    (c.removeAddress now address).outline = c.outline := by
  unfold removeAddress
  split <;> simp

end Cache

/-! ## The outline of a service -/

/-- A service without what calls change of it. -/
def Service.outline (s : Service) : Service :=
  { s with partition := s.partition.outline, cache := s.cache.outline, metrics := {} }

namespace Service

/-- The outline does not show new contents of the stores, nor the counts. -/
theorem outline_update (s : Service) {p : Partition} {c : Cache} {m : Metrics}
    (hp : p.outline = s.partition.outline) (hc : c.outline = s.cache.outline) :
    ({ s with partition := p, cache := c, metrics := m } : Service).outline = s.outline := by
  simp only [outline, hp, hc]

@[simp] theorem outline_count (s : Service) (meter : Meter) (n : UInt64) :
    (s.count meter n).outline = s.outline := rfl

@[simp] theorem outline_accept (s : Service) (m : Moment) (action : Action) (hop : UInt32) :
    (s.accept m action hop).outline = s.outline := by
  unfold accept
  split
  · split
    · exact outline_update s rfl (Cache.outline_remove _ _ _)
    · rfl
  · rfl

@[simp] theorem outline_serve (s : Service) (m : Moment) (action : Action) :
    (s.serve m action).2.outline = s.outline := by
  unfold serve
  cases action with
  | register address previous =>
    refine outline_update s (Partition.outline_add _ _ _ _ _) ?_
    split
    · exact Cache.outline_add _ _ _ _
    · rfl
  | unregister address cause =>
    refine outline_update s (Partition.outline_removeActivation _ _ _ _ _) ?_
    split
    · exact Cache.outline_removeAddress _ _ _
    · rfl
  | lookup grain =>
    dsimp only
    split <;> rfl
  | delete grain =>
    exact outline_update s (Partition.outline_removeGrain _ _) (Cache.outline_remove _ _ _)

theorem outline_dispatch {s t : Service} {m : Moment} {action : Action} {owner : Silo}
    (h : s.dispatch m action owner = .ok t) : t.outline = s.outline := by
  unfold dispatch at h
  split at h
  · split at h
    · rw [← Except.ok.inj h]
      rfl
    · cases h
  · rw [← Except.ok.inj h]
    exact outline_update s rfl (Cache.outline_remove _ _ _)
  · rw [← Except.ok.inj h]
    rfl

@[simp] theorem outline_learn (s : Service) (m : Moment) (action : Action) (reply : Reply) :
    (s.learn m action reply).outline = s.outline := by
  unfold learn
  split
  · split
    · exact outline_update s rfl (Cache.outline_add _ _ _ _)
    · rfl
  · split
    · split
      · exact outline_update s rfl (Cache.outline_add _ _ _ _)
      · rfl
    · rfl
  · rfl

@[simp] theorem outline_removeHere (s : Service) (m : Moment) (cause : RemovalCause)
    (address : GrainAddress) : (s.removeHere m cause address).outline = s.outline := by
  have hcache (removed : Bool) :
      (if removed then s.cache.removeAddress m.now address else s.cache).outline =
        s.cache.outline := by
    cases removed
    · rfl
    · exact Cache.outline_removeAddress _ _ _
  exact outline_update s (Partition.outline_removeActivation _ _ _ _ _) (hcache _)

@[simp] theorem outline_removeAllHere (s : Service) (m : Moment) (cause : RemovalCause)
    (addresses : List GrainAddress) :
    (s.removeAllHere m cause addresses).outline = s.outline := by
  unfold removeAllHere
  induction addresses generalizing s with
  | nil => rfl
  | cons a rest ih =>
    rw [List.foldl_cons, ih]
    exact outline_removeHere s m cause a

/-- For how long an entry is seen is read off the outline. -/
theorem fresh_iff_of_outline {s t : Service} (h : t.outline = s.outline) (now : Nat)
    (e : CacheEntry) : t.cache.Fresh now e ↔ s.cache.Fresh now e := by
  have hlife : t.outline.cache.timeToLive = s.outline.cache.timeToLive := by rw [h]
  have hlife' : t.cache.timeToLive = s.cache.timeToLive := hlife
  rw [Cache.Fresh, Cache.Fresh, hlife']

end Service

/-! ## The outline of a cluster -/

/-- A cluster without what calls change of its services, and without the log of calls. -/
def Cluster.outline (c : Cluster) : Cluster :=
  { c with services := c.services.map Service.outline, calls := [] }

namespace Cluster

theorem service_outline (c : Cluster) (i : ServiceId) :
    c.outline.service i = (c.service i).outline := by
  have hdefault : (default : Service) = (default : Service).outline := rfl
  simp only [outline, service, List.getD_eq_getElem?_getD, List.getElem?_map]
  cases c.services[i]? with
  | none => exact hdefault
  | some s => rfl

theorem outline_adjust {c : Cluster} {i : ServiceId} {f : Service → Service}
    (h : (f (c.service i)).outline = (c.service i).outline) :
    (c.adjust i f).outline = c.outline := by
  have hmap : (c.services.modify i f).map Service.outline = c.services.map Service.outline := by
    apply List.ext_getElem?
    intro j
    rw [List.getElem?_map, List.getElem?_map, List.getElem?_modify]
    by_cases hij : i = j
    · subst hij
      cases hs : c.services[i]? with
      | none => rfl
      | some s =>
        have hservice : c.service i = s := by simp [service, hs]
        rw [hservice] at h
        simp [h]
    · simp [hij]
  simp only [outline, adjust, hmap]

@[simp] theorem outline_log (c : Cluster) (target : Silo) (request : Request) :
    (c.log target request).outline = c.outline := rfl

@[simp] theorem outline_disengage (c : Cluster) (i : ServiceId) :
    (c.disengage i).outline = c.outline.disengage i := rfl

@[simp] theorem outline_engage (c : Cluster) (i : ServiceId) :
    (c.engage i).outline = c.outline.engage i := rfl

/-! ### What is read off the outline -/

section SameOutline

variable {c c' : Cluster} (h : c'.outline = c.outline)

include h

theorem length_eq_of_outline : c'.services.length = c.services.length := by
  have := congrArg (fun c : Cluster => c.services.length) h
  simpa [outline] using this

/-- What the outline of a cluster shows is the same. -/
theorem eq_of_outline {α : Type} (f : Cluster → α) (hf : ∀ c : Cluster, f c.outline = f c) :
    f c' = f c := by
  rw [← hf c', h, hf]

theorem moment_eq_of_outline : c'.moment = c.moment :=
  eq_of_outline h Cluster.moment fun _ => rfl

theorem wiring_eq_of_outline : c'.wiring = c.wiring :=
  eq_of_outline h Cluster.wiring fun _ => rfl

theorem scripts_eq_of_outline : c'.scripts = c.scripts :=
  eq_of_outline h Cluster.scripts fun _ => rfl

/-- What the outline of a service shows is the same. -/
theorem service_eq_of_outline {α : Type} (f : Service → α) (hf : ∀ s : Service, f s.outline = f s)
    (i : ServiceId) : f (c'.service i) = f (c.service i) := by
  rw [← hf (c'.service i), ← service_outline, h, service_outline, hf]

theorem outline_service_eq_of_outline (i : ServiceId) :
    (c'.service i).outline = (c.service i).outline :=
  service_eq_of_outline h Service.outline (fun _ => rfl) i

theorem resolver_eq_of_outline (i : ServiceId) :
    (c'.service i).resolver = (c.service i).resolver :=
  service_eq_of_outline h Service.resolver (fun _ => rfl) i

theorem live_iff_of_outline (i : ServiceId) : c'.Live i ↔ c.Live i := by
  have hlisted := service_eq_of_outline h Service.listed (fun _ => rfl) i
  have hkept := service_eq_of_outline h Service.kept (fun _ => rfl) i
  have hengaged : c'.engaged = c.engaged := eq_of_outline h Cluster.engaged fun _ => rfl
  simp only [Live, length_eq_of_outline h, hlisted, hkept, hengaged]

theorem reach?_eq_of_outline (silo : Silo) : c'.reach? silo = c.reach? silo := by
  have hroutes : c'.routes = c.routes := eq_of_outline h Cluster.routes fun _ => rfl
  simp only [reach?, hroutes, live_iff_of_outline h]

end SameOutline

/-! ### Calls keep the outline -/

section Activities

variable {α : Type}

theorem keeps_inspect (i : ServiceId) (f : Service → Moment → α) :
    (inspect i f).Keeps outline := fun _ => rfl

theorem keeps_change {i : ServiceId} {f : Service → Moment → α × Service}
    (h : ∀ s m, (f s m).2.outline = s.outline) : (change i f).Keeps outline :=
  Activity.keeps_act fun _ => outline_adjust (h _ _)

theorem keeps_revise {i : ServiceId} {f : Service → Moment → Service}
    (h : ∀ s m, (f s m).outline = s.outline) : (revise i f).Keeps outline :=
  Activity.keeps_update fun _ => outline_adjust (h _ _)

theorem keeps_waitToRetry (i : ServiceId) : (waitToRetry i).Keeps outline :=
  (keeps_inspect i _).bind fun _ => Activity.keeps_wait outline _

theorem keeps_log (target : Silo) (request : Request) :
    (Activity.update fun c : Cluster => c.log target request).Keeps outline :=
  Activity.keeps_update fun c => c.outline_log target request

theorem keeps_attended {i : ServiceId} {p : Activity Cluster α} (h : p.Keeps outline) :
    (attended i p).Keeps outline := by
  intro c
  rw [run_attended, outline_disengage, h, outline_engage, disengage_engage]

end Activities

/-- Whether everybody reached over some ways keeps the outline. -/
def WaysKeep (ways : Ways) : Prop :=
  ∀ c target peer, ways c target = .ok peer → ∀ request, (peer request).Keeps outline

section Handling

variable {ways : Ways} (hways : WaysKeep ways)

include hways

theorem keeps_forward (i : ServiceId) (action : Action) (hop : UInt32) (owner : Silo) :
    (forward ways i action hop owner).Keeps outline := by
  refine (keeps_change ?_).bind fun dispatched => ?_
  · intro s m
    split
    · rfl
    · rename_i t h
      exact Service.outline_dispatch h
  · split
    · exact Activity.keeps_pure outline _
    · refine (Activity.keeps_look outline).bind fun c => ?_
      split
      · exact Activity.keeps_pure outline _
      · rename_i peer h
        refine (hways c owner peer h _).bind fun reply => ?_
        exact (keeps_revise fun s m => s.outline_learn m action reply).bind fun _ =>
          Activity.keeps_pure outline _

omit hways in
theorem keeps_resolve (i : ServiceId) (action : Action) (hop : UInt32) :
    (resolve i action hop).Keeps outline := by
  refine (keeps_inspect i _).bind fun first => ?_
  split
  · split
    · exact Activity.keeps_pure outline _
    · exact (keeps_waitToRetry i).bind fun _ => keeps_inspect i _
  · exact Activity.keeps_pure outline _

theorem keeps_handleAction (i : ServiceId) (action : Action) (hop : UInt32) :
    (handleAction ways i action hop).Keeps outline := by
  refine (keeps_revise fun s m => s.outline_accept m action hop).bind fun _ => ?_
  refine (keeps_resolve i action hop).bind fun target => ?_
  split
  · exact Activity.keeps_pure outline _
  · exact (keeps_change fun s m => s.outline_serve m action).bind fun _ =>
      Activity.keeps_pure outline _
  · exact keeps_forward hways i action hop _

theorem keeps_deliverAway (i : ServiceId) (cause : RemovalCause) (hop : UInt32)
    (away : List (Silo × List GrainAddress)) :
    (deliverAway ways i cause hop away).Keeps outline := by
  refine (keeps_revise fun s m => s.outline_count _ _).bind fun _ => ?_
  refine (Activity.keeps_look outline).bind fun c => ?_
  refine (Activity.keeps_all ?_).bind fun _ => Activity.keeps_pure outline _
  intro p hp
  obtain ⟨a, -, rfl⟩ := List.mem_map.mp hp
  unfold deliverTo
  split
  · exact Activity.keeps_pure outline _
  · rename_i peer h
    exact hways c a.1 peer h _

theorem keeps_handleBatch (i : ServiceId) (addresses : List GrainAddress) (cause : RemovalCause)
    (hop : UInt32) : (handleBatch ways i addresses cause hop).Keeps outline := by
  refine (keeps_revise ?_).bind fun _ => ?_
  · intro s m
    rfl
  refine (keeps_inspect i _).bind fun split => ?_
  cases split with
  | error e => exact Activity.keeps_pure outline _
  | ok split =>
    refine (keeps_revise fun s m => s.outline_removeAllHere m cause split.here).bind fun _ => ?_
    split
    · exact keeps_deliverAway hways i cause hop split.away
    · refine (keeps_waitToRetry i).bind fun _ => ?_
      refine (keeps_inspect i _).bind fun again => ?_
      cases again with
      | error e => exact Activity.keeps_pure outline _
      | ok again =>
        exact (keeps_revise fun s m => s.outline_removeAllHere m cause again.here).bind fun _ =>
          keeps_deliverAway hways i cause hop again.away

theorem keeps_handle (i : ServiceId) (request : Request) :
    (handle ways i request).Keeps outline := by
  cases request with
  | single action hop => exact keeps_handleAction hways i action hop
  | batch addresses cause hop => exact keeps_handleBatch hways i addresses cause hop

end Handling

theorem keeps_serveFrame {peer : ServiceId → Peer}
    (h : ∀ j request, (peer j request).Keeps outline) (i : ServiceId) (frame : Bytes) :
    (serveFrame peer i frame).Keeps outline := by
  unfold serveFrame
  split
  · exact Activity.keeps_pure outline _
  · exact (h i _).bind fun _ => Activity.keeps_pure outline _

theorem waysKeep_ways {peer : ServiceId → Peer}
    (h : ∀ j request, (peer j request).Keeps outline) : WaysKeep (ways peer) := by
  intro c target way hway request
  unfold ways at hway
  split at hway
  · rw [← Except.ok.inj hway]
    unfold callFramed
    split
    · exact Activity.keeps_pure outline _
    · refine ((Activity.keeps_look outline).bind fun c => ?_).bind fun _ =>
        Activity.keeps_pure outline _
      split
      · exact (keeps_log target request).bind fun _ => Activity.keeps_pure outline _
      · split
        · exact Activity.keeps_pure outline _
        · exact (keeps_log target request).bind fun _ => keeps_serveFrame h _ _
  · split at hway
    · rw [← Except.ok.inj hway]
      exact (keeps_log target request).bind fun _ => h _ request
    · cases hway
  · split at hway
    · rw [← Except.ok.inj hway]
      exact h _ request
    · cases hway

/-- A call keeps the outline of the cluster, however often it may be forwarded. -/
theorem keeps_perform (forwards : Nat) (i : ServiceId) (request : Request) :
    (perform forwards i request).Keeps outline := by
  induction forwards generalizing i request with
  | zero =>
    refine keeps_attended (keeps_handle ?_ i request)
    intro c target peer h
    cases h
  | succ forwards ih => exact keeps_attended (keeps_handle (waysKeep_ways ih) i request)

theorem outline_call (i : ServiceId) (request : Request) (c : Cluster) :
    ((call i request).run c).2.outline = c.outline := keeps_perform maxForwards i request c

end Cluster

end GrainDirectory

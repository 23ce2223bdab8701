import GrainDirectory.Proofs.BatchDelivery
import GrainDirectory.Proofs.Newcomers
set_option autoImplicit false

/-!
# What a draining service takes

A service that has been stopped leaves itself out when it looks for the owner of a grain.  As long as its
ring has another silo, it therefore finds one for every ordinary grain, wherever on the ring the grain
and the silos are (`Resolver.owner?_of_drains`), and has nothing to serve: what comes to it is passed on,
or refused because it has been passed on too often.

That is so at every moment from when the service is stopped to when it is started again, whatever is
asked of it, whatever silos come and go, and also for what had been begun before.  So no ordinary grain
is registered at a draining service, whatever was registered when it stopped; the main statement is
`draining_takes_nothing`.
-/

namespace GrainDirectory

/-! ## Owners other than the own silo -/

namespace Resolver

variable {q : Resolver} {g : Grain}

/-- Whether a silo does not run while its ring has others. -/
def Drains (q : Resolver) : Prop := q.running = false ∧ ∃ m ∈ q.ring.silos, m.id ≠ q.home.id

instance (q : Resolver) : Decidable q.Drains := inferInstanceAs (Decidable (_ ∧ _))

/-- A draining silo gives every ordinary grain to another silo of its ring. -/
theorem owner?_of_drains (h : q.Drains) (hg : g.isSystemTarget = false) :
    ∃ owner ∈ q.ring.silos, owner.id ≠ q.home.id ∧ q.owner? g = .ok (some owner) := by
  obtain ⟨hresting, m, hm, hother⟩ := h
  have hring : q.ring.isEmpty = false := List.isEmpty_eq_false_iff.mpr (List.ne_nil_of_mem hm)
  have hcandidate : q.ring.candidates (some q.home) ≠ [] := by
    rw [Ring.candidates_some]
    exact List.ne_nil_of_mem (List.mem_filter.mpr ⟨hm, decide_eq_true hother⟩)
  have hsome : q.ring.owner? g.position (some q.home) ≠ none :=
    mt Ring.owner?_eq_none_iff.mp hcandidate
  obtain ⟨owner, howner⟩ := Option.ne_none_iff_exists'.mp hsome
  have hmem : owner ∈ q.ring.candidates (some q.home) := by
    rw [Ring.owner?_eq_head?] at howner
    exact Silo.mem_of_mem_contenders (List.mem_of_mem_head? howner)
  rw [Ring.candidates_some, List.mem_filter, decide_eq_true_eq] at hmem
  refine ⟨owner, hmem.1, hmem.2, ?_⟩
  rw [owner?_of_ordinary hg hring, hresting, if_neg Bool.false_ne_true, howner]

/-- So there the grain goes, or it goes nowhere because it has been forwarded too often. -/
theorem checkForward_of_drains (h : q.Drains) (hg : g.isSystemTarget = false) (hop : UInt32)
    (operation : String) :
    ∃ owner ∈ q.ring.silos, owner.id ≠ q.home.id ∧
      (q.checkForward g hop operation = .ok (some owner) ∨
        q.checkForward g hop operation =
          .error (.hopLimitExceeded operation g q.home owner hop)) := by
  obtain ⟨owner, hmem, hother, howner⟩ := owner?_of_drains h hg
  refine ⟨owner, hmem, hother, ?_⟩
  rw [checkForward, howner]
  dsimp only
  rw [if_neg hother]
  by_cases hlimit : q.hopLimit ≤ hop
  · exact .inr (if_pos hlimit)
  · exact .inl (if_neg hlimit)

/-- A system target goes nowhere else. -/
theorem checkForward_of_systemTarget (q : Resolver) {operation : String} {hop : UInt32}
    {target : Option Silo} (hg : g.isSystemTarget = true)
    (h : q.checkForward g hop operation = .ok target) : target = none := by
  unfold checkForward owner? at h
  rw [if_pos hg] at h
  split at h
  · cases h
  · exact (Except.ok.inj h).symm
  · rename_i owner howner
    split at howner
    · cases howner
    · rw [← Option.some.inj (Except.ok.inj howner), if_pos rfl] at h
      exact (Except.ok.inj h).symm

end Resolver

namespace Service

variable {s : Service} {hop : UInt32} {addresses : List GrainAddress}

/-- Whether an address is that of an ordinary grain. -/
def ordinary (a : GrainAddress) : Bool := !a.grain.isSystemTarget

theorem destination?_isNone_iff (h : s.resolver.Drains) {a : GrainAddress} (ha : s.Resolves hop a) :
    (s.destination? hop a).isNone = true ↔ a.grain.isSystemTarget = true := by
  cases hg : a.grain.isSystemTarget with
  | true =>
    rw [s.resolver.checkForward_of_systemTarget hg ha]
    exact iff_of_true rfl rfl
  | false =>
    obtain ⟨owner, -, -, hcheck | hcheck⟩ :=
      Resolver.checkForward_of_drains h hg hop Operation.unregisterMany.name
    · rw [Except.ok.inj (ha.symm.trans hcheck)]
      exact iff_of_false Bool.false_ne_true Bool.false_ne_true
    · cases ha.symm.trans hcheck

/-- Of a batch that a draining service splits, the system targets stay, and all other addresses go to other
silos. -/
theorem split_of_drains (h : s.resolver.Drains) {split : Split}
    (hsplit : s.split hop addresses = .ok split) :
    split.here = addresses.filter (fun a => a.grain.isSystemTarget) ∧
      split.pending.Perm (addresses.filter ordinary) ∧
      ∀ letter ∈ split.away, letter.1.id ≠ s.home.id := by
  have hhere : split.here = addresses.filter fun a => a.grain.isSystemTarget := by
    rw [eq_of_split hsplit]
    refine List.filter_congr fun a ha => Bool.eq_iff_iff.mpr ?_
    exact destination?_isNone_iff h (resolves_of_split hsplit a ha)
  refine ⟨hhere, ?_, fun letter hletter => ?_⟩
  · have hall := (perm_split hsplit).trans
      (List.filter_append_perm (fun a : GrainAddress => a.grain.isSystemTarget) addresses).symm
    rw [hhere] at hall
    exact (List.perm_append_left_iff _).mp hall
  · obtain ⟨a, ha, hdestination⟩ := exists_mem_of_mem_away hsplit hletter
    have hmem := (destination?_of_mem_away hsplit hletter ha).1
    have hresolves := resolves_of_split hsplit a hmem
    rw [Resolves, hdestination] at hresolves
    exact (owner_of_checkForward hresolves).2.1

end Service

/-! ## What becomes of a call -/

namespace Cluster

open Service

section Calls

variable {ways : Ways} {others : Cluster → Cluster} {i : ServiceId} {action : Action}
  {addresses : List GrainAddress} {cause : RemovalCause} {hop : UInt32} {owner : Silo} {c : Cluster}

/-- Whether others leave a service draining that drains, whatever they do. -/
def LeavesDraining (others : Cluster → Cluster) (i : ServiceId) : Prop :=
  ∀ d : Cluster, (d.service i).resolver.Drains →
    ((others d).service i).resolver.Drains ∧ ((others d).service i).home = (d.service i).home

/-- A service passes an action on.  It has taken the action in, and may have waited to look for the owner
once more; then it refuses the action, or sends it to another silo with one more hop and learns from the
reply. -/
inductive PassesOn (ways : Ways) (others : Cluster → Cluster) (i : ServiceId) (action : Action)
    (hop : UInt32) (c : Cluster) : Reply → Cluster → Prop
  | refused {d : Cluster} {e : Error}
      (htaken : d = c.accepted i action hop ∨ d = others (c.accepted i action hop)) :
      PassesOn ways others i action hop c (.error e) d
  | unreachable {d : Cluster} {owner : Silo} {e : Error}
      (htaken : d = c.accepted i action hop ∨ d = others (c.accepted i action hop))
      (hother : owner.id ≠ (c.service i).home.id)
      (hway : ways (d.dispatched i action) owner = .error e) :
      PassesOn ways others i action hop c (.error e) (d.dispatched i action)
  | forwarded {d d' : Cluster} {owner : Silo} {peer : Peer} {reply : Reply}
      (htaken : d = c.accepted i action hop ∨ d = others (c.accepted i action hop))
      (hother : owner.id ≠ (c.service i).home.id)
      (hway : ways (d.dispatched i action) owner = .ok peer)
      (hcall : (peer (.single action (hop + 1))).runAmid others (d.dispatched i action) = (reply, d')) :
      PassesOn ways others i action hop c reply (d'.learned i action reply)

theorem runAmid_inspect {α : Type} (f : Service → Moment → α) :
    (inspect i f).runAmid others c = (f (c.service i) c.moment, c) := rfl

theorem runAmid_change {α : Type} (f : Service → Moment → α × Service) :
    (change i f).runAmid others c =
      ((f (c.service i) c.moment).1, c.adjust i fun _ => (f (c.service i) c.moment).2) := rfl

theorem runAmid_revise (f : Service → Moment → Service) :
    (revise i f).runAmid others c = ((), c.adjust i fun s => f s c.moment) := rfl

theorem runAmid_look : (Activity.look : Activity Cluster Cluster).runAmid others c = (c, c) := rfl

theorem runAmid_waitToRetry : (waitToRetry i).runAmid others c = ((), others c) := rfl

/-- The owner is looked for at once, or again after a while. -/
theorem runAmid_resolve (others : Cluster → Cluster) (i : ServiceId) (action : Action) (hop : UInt32)
    (c : Cluster) : ∃ d, (d = c ∨ d = others c) ∧
      (resolve i action hop).runAmid others c =
        ((d.service i).resolver.checkForward action.grain hop action.operation.name, d) := by
  rw [resolve, Activity.runAmid_bind, runAmid_inspect]
  dsimp only
  split
  · by_cases hhop : hop = 0
    · rw [if_pos hhop]
      exact ⟨c, .inl rfl, rfl⟩
    · rw [if_neg hhop, Activity.runAmid_bind, runAmid_waitToRetry, runAmid_inspect]
      exact ⟨others c, .inr rfl, rfl⟩
  · exact ⟨c, .inl rfl, rfl⟩

theorem runAmid_forward_refused (ways : Ways) (others : Cluster → Cluster) {e : Error}
    (h : (c.service i).dispatch c.moment action owner = .error e) :
    (forward ways i action hop owner).runAmid others c = (.error e, c) := by
  rw [forward, Activity.runAmid_bind, runAmid_change, h]
  dsimp only
  rw [adjust_service]
  rfl

theorem runAmid_forward (ways : Ways) (others : Cluster → Cluster)
    (h : (c.service i).dispatch c.moment action owner =
      .ok ((c.service i).dispatched c.moment action)) :
    (forward ways i action hop owner).runAmid others c =
      match ways (c.dispatched i action) owner with
      | .error e => (.error e, c.dispatched i action)
      | .ok peer =>
        let r := (peer (.single action (hop + 1))).runAmid others (c.dispatched i action)
        (r.1, r.2.learned i action r.1) := by
  have hstep : (c.adjust i fun _ => (c.service i).dispatched c.moment action) =
      c.dispatched i action := adjust_worked_out c i fun s => s.dispatched c.moment action
  rw [forward, Activity.runAmid_bind, runAmid_change, h]
  dsimp only
  rw [hstep, Activity.runAmid_bind, runAmid_look]
  dsimp only
  cases ways (c.dispatched i action) owner with
  | error e => rfl
  | ok peer =>
    dsimp only
    rw [Activity.runAmid_bind]
    rfl

/-- A draining service passes on whatever it is asked about an ordinary grain. -/
theorem passesOn_of_drains (ways : Ways) (hothers : LeavesDraining others i)
    (hdrains : (c.service i).resolver.Drains) (hg : action.grain.isSystemTarget = false)
    (hop : UInt32) :
    ∃ reply c', (handle ways i (.single action hop)).runAmid others c = (reply, c') ∧
      PassesOn ways others i action hop c reply c' := by
  let taken := c.accepted i action hop
  have hview : (taken.service i).resolver = (c.service i).resolver :=
    resolver_eq_of_outline (outline_accepted action hop) i
  have hhome : (taken.service i).home = (c.service i).home := congrArg Resolver.home hview
  obtain ⟨d, htaken, hresolve⟩ := runAmid_resolve others i action hop taken
  have hdrains' : (d.service i).resolver.Drains ∧ (d.service i).home = (c.service i).home := by
    rcases htaken with rfl | rfl
    · exact ⟨hview ▸ hdrains, hhome⟩
    · obtain ⟨hstill, hsame⟩ := hothers taken (hview ▸ hdrains)
      exact ⟨hstill, hsame.trans hhome⟩
  rw [handle, handleAction, Activity.runAmid_bind, runAmid_revise]
  dsimp only
  rw [Activity.runAmid_bind, ← accepted, hresolve]
  dsimp only
  obtain ⟨owner, -, hother, hcheck | hcheck⟩ :=
    Resolver.checkForward_of_drains hdrains'.1 hg hop action.operation.name
  · have hforeign : owner.id ≠ (c.service i).home.id := hdrains'.2 ▸ hother
    rw [hcheck]
    dsimp only
    rcases Service.dispatch_eq (m := d.moment) hcheck with ⟨-, hdispatch⟩ | ⟨e, -, hdispatch⟩
    · rw [runAmid_forward ways others hdispatch]
      split
      · rename_i hway
        exact ⟨_, _, rfl, .unreachable htaken hforeign hway⟩
      · rename_i hway
        exact ⟨_, _, rfl, .forwarded htaken hforeign hway rfl⟩
    · rw [runAmid_forward_refused ways others hdispatch]
      exact ⟨_, _, rfl, .refused htaken⟩
  · rw [hcheck]
    exact ⟨_, _, rfl, .refused htaken⟩

/-- A service has taken a batch in, and has removed the system targets of it. -/
def cleared (c : Cluster) (i : ServiceId) (addresses : List GrainAddress) (cause : RemovalCause)
    (hop : UInt32) : Cluster :=
  (c.entered i hop).relieved i cause (addresses.filter fun a => a.grain.isSystemTarget)

/-- A service passes a batch on.  It has taken the batch in; then it refuses the batch, or it removes the
system targets and sends the ordinary grains, each once, to other silos.  In between it may have waited to
look for the owners once more, and may have refused to go on then. -/
inductive PassesBatchOn (ways : Ways) (others : Cluster → Cluster) (i : ServiceId)
    (addresses : List GrainAddress) (cause : RemovalCause) (hop : UInt32) (c : Cluster) :
    Reply → Cluster → Prop
  | refused {d : Cluster} {e : Error}
      (htaken : d = c.entered i hop ∨ d = others (c.cleared i addresses cause hop)) :
      PassesBatchOn ways others i addresses cause hop c (.error e) d
  | posted {d seen c' : Cluster} {letters : List (Silo × List GrainAddress)} {replies : List Reply}
      (htaken : d = c.cleared i addresses cause hop ∨ d = others (c.cleared i addresses cause hop))
      (hseen : seen = d.adjust i fun s =>
        s.count (.call .unregisterMany .sent) (UInt64.ofNat letters.length))
      (hother : ∀ letter ∈ letters, letter.1.id ≠ (c.service i).home.id)
      (hcontent : (letters.flatMap (·.2)).Perm (addresses.filter ordinary))
      (hposted : Posted ways others cause hop seen letters seen replies c') :
      PassesBatchOn ways others i addresses cause hop c (joinReplies replies) c'

/-- What is left to do once the letters are ready is to post them. -/
theorem runAmid_deliverAway (ways : Ways) (others : Cluster → Cluster) (i : ServiceId)
    (cause : RemovalCause) (hop : UInt32) (letters : List (Silo × List GrainAddress)) (c : Cluster) :
    let seen := c.adjust i fun s =>
      s.count (.call .unregisterMany .sent) (UInt64.ofNat letters.length)
    ∃ replies c', Posted ways others cause hop seen letters seen replies c' ∧
      (deliverAway ways i cause hop letters).runAmid others c = (joinReplies replies, c') := by
  intro seen
  obtain ⟨replies, c', hposted, hall⟩ := posted_all ways others cause hop seen letters seen
  have hrun := Activity.runAmid_goOn others (deliverAway ways i cause hop letters) c
  rw [goOn_deliverAway] at hrun
  dsimp only at hrun
  rw [post, Activity.runAmid_bind, hall] at hrun
  exact ⟨replies, c', hposted, hrun.symm⟩

/-- A draining service passes on whatever ordinary grains are in a batch. -/
theorem passesBatchOn_of_drains (ways : Ways) (hothers : LeavesDraining others i)
    (hdrains : (c.service i).resolver.Drains) (addresses : List GrainAddress) (cause : RemovalCause)
    (hop : UInt32) :
    ∃ reply c', (handle ways i (.batch addresses cause hop)).runAmid others c = (reply, c') ∧
      PassesBatchOn ways others i addresses cause hop c reply c' := by
  have hview : ((c.entered i hop).service i).resolver = (c.service i).resolver :=
    resolver_eq_of_outline (outline_entered hop) i
  rw [handle, handleBatch, Activity.runAmid_bind, runAmid_revise]
  dsimp only
  rw [Activity.runAmid_bind, ← entered, runAmid_inspect]
  dsimp only
  cases hsplit : ((c.entered i hop).service i).split hop addresses with
  | error e => exact ⟨_, _, rfl, .refused (.inl rfl)⟩
  | ok split =>
    obtain ⟨hhere, hpending, hother⟩ := split_of_drains (hview ▸ hdrains) hsplit
    have hhome : ((c.entered i hop).service i).home = (c.service i).home :=
      congrArg Resolver.home hview
    rw [hhome] at hother
    dsimp only
    rw [Activity.runAmid_bind, runAmid_revise, hhere]
    dsimp only
    rw [← relieved, ← cleared]
    by_cases hfirst : hop = 0 ∨ split.away = []
    · rw [if_pos hfirst]
      obtain ⟨replies, c', hposted, hrun⟩ := runAmid_deliverAway ways others i cause hop split.away
        (c.cleared i addresses cause hop)
      exact ⟨_, _, hrun, .posted (.inl rfl) rfl hother hpending hposted⟩
    · -- What is split again holds no system target, so nothing more is removed here.
      let waited := others (c.cleared i addresses cause hop)
      have hcleared : ((c.cleared i addresses cause hop).service i).resolver =
          (c.service i).resolver :=
        resolver_eq_of_outline
          ((outline_adjust (Service.outline_removeAllHere _ _ _ _)).trans (outline_entered hop)) i
      obtain ⟨hstill, hsame⟩ := hothers (c.cleared i addresses cause hop) (hcleared ▸ hdrains)
      rw [if_neg hfirst, Activity.runAmid_bind, runAmid_waitToRetry]
      dsimp only
      rw [Activity.runAmid_bind, runAmid_inspect]
      dsimp only
      cases hagain : (waited.service i).split hop split.pending with
      | error e => exact ⟨_, _, rfl, .refused (.inr rfl)⟩
      | ok again =>
        obtain ⟨hhere', hpending', hother'⟩ := split_of_drains hstill hagain
        have hordinary : ∀ a ∈ split.pending, ordinary a = true := fun a ha =>
          (List.mem_filter.mp (hpending.mem_iff.mp ha)).2
        have hnone : again.here = [] := by
          rw [hhere', List.filter_eq_nil_iff]
          intro a ha
          simpa [ordinary] using hordinary a ha
        have hall : split.pending.filter ordinary = split.pending := List.filter_eq_self.mpr hordinary
        have hhome' : (waited.service i).home = (c.service i).home :=
          hsame.trans (congrArg Resolver.home hcleared)
        rw [hhome'] at hother'
        rw [hall] at hpending'
        have hkept : (waited.adjust i fun s => s.removeAllHere waited.moment cause []) = waited :=
          adjust_id waited i
        dsimp only
        rw [Activity.runAmid_bind, runAmid_revise, hnone]
        dsimp only
        rw [hkept]
        obtain ⟨replies, c', hposted, hrun⟩ :=
          runAmid_deliverAway ways others i cause hop again.away waited
        exact ⟨_, _, hrun, .posted (.inr rfl) rfl hother' (hpending'.trans hpending) hposted⟩

end Calls

end Cluster

/-! ## From stop to start -/

/-- Whether no ordinary grain is registered. -/
def Partition.Bare (p : Partition) : Prop :=
  ∀ id r, p.registration? id = some r → r.address.grain.isSystemTarget = true

theorem Partition.Bare.of_within {p p' : Partition} (h : p.Bare) (hwithin : p'.Within p) : p'.Bare :=
  fun id r hr => h id r (hwithin id r hr)

/-- What a draining service serves is no ordinary grain. -/
theorem Stock.ServesAll.bare {asks : Action → Prop} {s s' : Stock} (h : Stock.ServesAll asks s s')
    (hdrains : s.resolver.Drains) (hbare : s.partition.Bare) : s'.partition.Bare := by
  intro id r hr
  rcases h.registration?_cases hr with hold | ⟨-, target, howner, hhome⟩
  · exact hbare id r hold
  · cases hg : r.address.grain.isSystemTarget with
    | true => rfl
    | false =>
      obtain ⟨owner, -, hother, howner'⟩ := Resolver.owner?_of_drains hdrains hg
      rw [Except.ok.inj (howner.symm.trans howner')] at hhome
      exact absurd (hhome owner rfl) hother

/-- To have system targets removed leaves ordinary grains registered as they are. -/
theorem Cluster.registration?_cleared {c : Cluster} {i : ServiceId} (hi : i < c.services.length)
    (addresses : List GrainAddress) (cause : RemovalCause) (hop : UInt32) {id : GrainId}
    (hid : id.kind.isSystemTarget = false) :
    ((c.cleared i addresses cause hop).service i).partition.registration? id =
      (c.service i).partition.registration? id := by
  have hbooks : ((c.cleared i addresses cause hop).service i).books .unregisterMany = _ :=
    books_relieved hi (addresses.filter fun a => a.grain.isSystemTarget)
  have hpartition := congrArg Books.partition hbooks
  rw [Service.books] at hpartition
  dsimp only at hpartition
  rw [hpartition, Partition.registration?_removeAll]
  cases hr : (c.service i).partition.registration? id with
  | none => rfl
  | some r =>
    rw [Option.filter_some, if_pos]
    refine decide_eq_true fun a ha htakes => ?_
    have hgrain : id = a.grain.id := (Partition.registration?_grainId hr).symm.trans htakes.1
    have hsystem : a.grain.isSystemTarget = true := (List.mem_filter.mp ha).2
    rw [hgrain] at hid
    exact Bool.false_ne_true (hid.symm.trans hsystem)

/-- A service takes no ordinary grains. -/
structure Cluster.TakesNothing (n : ServiceId) (c : Cluster) : Prop where
  /-- No ordinary grain is registered. -/
  bare : ∀ r ∈ (c.service n).partition.entries.rows, r.address.grain.isSystemTarget = true
  /-- What the service is asked about an ordinary grain, however often it has been forwarded, is sent to
  another silo or refused, as long as others leave the service draining. -/
  action : ∀ ways others action hop, LeavesDraining others n → action.grain.isSystemTarget = false →
    ∃ reply c', (handle ways n (.single action hop)).runAmid others c = (reply, c') ∧
      PassesOn ways others n action hop c reply c'
  /-- So are the ordinary grains of a batch. -/
  batch : ∀ ways others addresses cause hop, LeavesDraining others n →
    ∃ reply c', (handle ways n (.batch addresses cause hop)).runAmid others c = (reply, c') ∧
      PassesBatchOn ways others n addresses cause hop c reply c'
  /-- What the service does itself to pass something on leaves all registrations and all counts of served
  calls as they are. -/
  untouched : ∀ (d : Cluster) action reply hop op,
    (d.accepted n action hop).books op = d.books op ∧
      (d.dispatched n action).books op = d.books op ∧
      (d.learned n action reply).books op = d.books op ∧ (d.entered n hop).books op = d.books op
  /-- When it removes the system targets of a batch, ordinary grains stay as they are. -/
  cleared : ∀ addresses cause hop id, id.kind.isSystemTarget = false →
    ((c.cleared n addresses cause hop).service n).partition.registration? id =
      (c.service n).partition.registration? id

theorem Cluster.takesNothing_of_drains {n : ServiceId} {c : Cluster} (hn : n < c.services.length)
    (hdrains : (c.service n).resolver.Drains) (hbare : (c.service n).partition.Bare) :
    TakesNothing n c where
  bare r hr := hbare r.grainId r (Table.find?_eq_some_iff.mpr ⟨hr, rfl⟩)
  action ways _ _ hop hothers hg := passesOn_of_drains ways hothers hdrains hg hop
  batch ways _ addresses cause hop hothers :=
    passesBatchOn_of_drains ways hothers hdrains addresses cause hop
  untouched _ action reply hop op :=
    ⟨books_accepted op action hop, books_dispatched op action, books_learned op action reply,
      books_entered op hop⟩
  cleared addresses cause hop _ hid := registration?_cleared hn addresses cause hop hid

namespace Scene

variable {n : ServiceId} {s : Scene} {beat : Beat} {beats : List Beat}

theorem service_next_stop (hstaged : Staged n s) (moment : Nat) :
    (s.next (.begins (.stop n) moment)).service n = ((s.service n).stop s.cluster.moment).1 := by
  show (Progress.advance moment (Command.stop n).perform s.cluster).2.service n = _
  rw [Cluster.advance_perform id]
  exact Cluster.service_adjust_self (c := { s.cluster with
    oracle := ((s.service n).stop s.cluster.moment).2 }) hstaged.present _

/-- A service that rests does so until it is started. -/
theorem resting_next (hstaged : Staged n s) (hresting : (s.service n).running = false)
    (hstart : ∀ moment, beat ≠ .begins (.start n) moment) :
    ((s.next beat).service n).running = false := by
  cases (hstaged.next beat).2 with
  | idle h =>
    rw [h]
    exact hresting
  | resumed _ h => exact (congrArg Resolver.running h.resolver_eq).trans hresting
  | @begun command moment h =>
    by_cases hstop : command = .stop n
    · rw [hstop, service_next_stop hstaged]
      rfl
    · have hother : command ≠ .start n := fun heq => hstart moment (by rw [heq])
      exact (h.running_eq hother hstop).trans hresting

/-- No beat has an ordinary grain registered at a draining service. -/
theorem bare_next (hstaged : Staged n s) (hdrains : (s.service n).resolver.Drains)
    (hbare : (s.service n).partition.Bare) : ((s.next beat).service n).partition.Bare := by
  cases (hstaged.next beat).2 with
  | idle h =>
    rw [h]
    exact hbare
  | resumed _ h => exact h.bare hdrains hbare
  | begun h =>
    cases h with
    | served h => exact h.bare hdrains hbare
    | reshaped h => exact hbare.of_within h.within

/-- Whether a service has others on its ring, at the beginning and after each of some beats. -/
def Accompanied (n : ServiceId) (s : Scene) (beats : List Beat) : Prop :=
  ∀ early, early <+: beats →
    ∃ m ∈ ((s.after early).service n).ring.silos, m.id ≠ ((s.after early).service n).home.id

theorem Accompanied.of_early {early : List Beat} (h : Accompanied n s beats)
    (hearly : early <+: beats) : Accompanied n s early :=
  fun early' hearly' => h early' (hearly'.trans hearly)

theorem drains_bare_after (hstaged : Staged n s) (hresting : (s.service n).running = false)
    (hbare : (s.service n).partition.Bare) (hstart : ∀ moment, .begins (.start n) moment ∉ beats)
    (hring : Accompanied n s beats) :
    ((s.after beats).service n).resolver.Drains ∧ ((s.after beats).service n).partition.Bare := by
  induction beats generalizing s with
  | nil => exact ⟨⟨hresting, hring [] (List.prefix_refl _)⟩, hbare⟩
  | cons beat rest ih =>
    have hdrains : (s.service n).resolver.Drains := ⟨hresting, hring [] List.nil_prefix⟩
    have hother : ∀ moment, beat ≠ .begins (.start n) moment := fun moment heq =>
      hstart moment (heq ▸ List.mem_cons_self)
    exact ih (hstaged.next beat).1 (resting_next hstaged hresting hother)
      (bare_next hstaged hdrains hbare)
      (fun moment hmem => hstart moment (List.mem_cons_of_mem beat hmem))
      fun early hearly => hring (beat :: early) ((List.prefix_cons_inj beat).mpr hearly)

/-- From when a service is stopped to when it is started again, it takes no ordinary grains, as long as its
ring has another silo: whatever was registered and begun before, and whatever is asked of it and reported
then. -/
theorem draining_takes_nothing {c : Cluster} {past future : List Beat} {moment : Nat}
    (hn : n < c.services.length) (hstart : ∀ moment, .begins (.start n) moment ∉ future)
    (hring : Accompanied n ((c.scene.after past).next (.begins (.stop n) moment)) future)
    {early : List Beat} (hearly : early <+: future) :
    Cluster.TakesNothing n
      (((c.scene.after past).next (.begins (.stop n) moment)).after early).cluster := by
  have hbefore := (staged_of_present hn).after past
  generalize c.scene.after past = s at *
  have hstaged := (hbefore.next (.begins (.stop n) moment)).1
  have hservice := service_next_stop hbefore moment
  have hresting : ((s.next (.begins (.stop n) moment)).service n).running = false := by
    rw [hservice]
    rfl
  have hbare : ((s.next (.begins (.stop n) moment)).service n).partition.Bare := by
    rw [hservice]
    exact fun _ _ hr => nomatch hr
  obtain ⟨hdrains, hbare'⟩ := drains_bare_after hstaged hresting hbare
    (fun moment hmem => hstart moment (hearly.subset hmem)) (hring.of_early hearly)
  exact Cluster.takesNothing_of_drains (hstaged.after early).present hdrains hbare'

/-- The service has registered the activation when the silo at 50 joins its ring. -/
def registeredThenJoined : List Beat :=
  [.begins (.start 0) 0, .begins (.call 0 (.single (.register activation40 none) 0)) 0,
    .begins (.addSilo 0 silo50) 0]

/-- After it has stopped, the activation is registered again by a call that waits to look for the owner once
more, while another silo comes; and it is removed by a batch, when that has gone. -/
def callsAfterStop : List Beat :=
  let silo45 : Silo := ⟨⟨.v4 1 3, 1⟩, 45⟩
  [.begins (.call 0 (.single (.register activation40 none) 1)) 0, .begins (.addSilo 0 silo45) 0,
    .resumes 4 200, .begins (.removeSilo 0 silo45 .dead) 200,
    .begins (.call 0 (.batch [activation40] .force 0)) 200]

theorem accompanied_callsAfterStop :
    Accompanied 0 ((aloneAt10.scene.after registeredThenJoined).next (.begins (.stop 0) 0))
      callsAfterStop := by
  have hall : ∀ early ∈ callsAfterStop.inits,
      let t := ((aloneAt10.scene.after registeredThenJoined).next (.begins (.stop 0) 0)).after early
      ∃ m ∈ (t.service 0).ring.silos, m.id ≠ (t.service 0).home.id := by decide +kernel
  exact fun early hearly => hall early ((List.mem_inits _ _).mpr hearly)

theorem draining_takes_nothing_callsAfterStop :
    0 < aloneAt10.services.length ∧ (∀ moment, .begins (.start 0) moment ∉ callsAfterStop) ∧
      Accompanied 0 ((aloneAt10.scene.after registeredThenJoined).next (.begins (.stop 0) 0)) callsAfterStop ∧
      ((aloneAt10.scene.after registeredThenJoined).service 0).partition.registration? activation40.grain.id =
        some ⟨activation40, 1, 0⟩ ∧
      Cluster.TakesNothing 0
        (((aloneAt10.scene.after registeredThenJoined).next (.begins (.stop 0) 0)).after
          callsAfterStop).cluster := by
  have hstart : ∀ moment, .begins (.start 0) moment ∉ callsAfterStop := fun moment => by
    simp [callsAfterStop]
  exact ⟨by decide, hstart, accompanied_callsAfterStop, by decide,
    draining_takes_nothing (by decide) hstart accompanied_callsAfterStop (List.prefix_refl _)⟩

end Scene

end GrainDirectory

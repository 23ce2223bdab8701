import GrainDirectory.Proofs.Outline
import GrainDirectory.Proofs.Splitting
import GrainDirectory.Proofs.Suspension
set_option autoImplicit false

/-!
# How a service handles a call

The run of a call at one service, laid out: the service takes an action in and then refuses it, serves
it, or forwards it and learns from the reply; a batch is split, the part that stays is removed and the
rest is sent away.

The main statements are `run_handleAction` and `run_handleBatch`.  That the owner is resolved twice
does not show: waiting lets nothing happen in a run, so the second view is the first, and to split
again what is to be sent away gives the same parts (`goOn_handleBatch`), also if others act meanwhile.
-/

namespace GrainDirectory

/-! ## Decisions on one grain -/

/-- What a service does with an action. -/
inductive Verdict where
  | refuse (e : Error)
  | serve
  | forward (owner : Silo)
  deriving DecidableEq, Repr

namespace Service

/-- What a service does with an action that has been forwarded `hop` times. -/
def verdict (s : Service) (o : Oracle) (action : Action) (hop : UInt32) : Verdict :=
  match s.resolver.checkForward action.grain hop action.operation.name with
  | .error e => .refuse e
  | .ok none => .serve
  | .ok (some owner) =>
    if action.operation = .lookup ∧ ¬ s.Trusts o owner then
      .refuse (.unstableTarget action.grain s.home owner)
    else .forward owner

/-- The service once it has prepared to forward an action. -/
def dispatched (s : Service) (m : Moment) (action : Action) : Service :=
  let counted := s.count (.call action.operation .sent) 1
  match action with
  | .delete grain => { counted with cache := counted.cache.remove m.now grain.id }
  | _ => counted

variable {s : Service} {m : Moment} {action : Action} {hop : UInt32} {owner : Silo}

theorem verdict_of_error {o : Oracle} {e : Error}
    (h : s.resolver.checkForward action.grain hop action.operation.name = .error e) :
    s.verdict o action hop = .refuse e := by
  rw [verdict, h]

theorem verdict_of_none {o : Oracle}
    (h : s.resolver.checkForward action.grain hop action.operation.name = .ok none) :
    s.verdict o action hop = .serve := by
  rw [verdict, h]

/-- The verdict is the resolver's. -/
theorem verdict_eq_of_resolver {t : Service} (h : t.resolver = s.resolver) (o : Oracle)
    (action : Action) (hop : UInt32) : t.verdict o action hop = s.verdict o action hop := by
  have hhome : t.home = s.home := congrArg Resolver.home h
  have htrust (owner : Silo) : t.Trusts o owner ↔ s.Trusts o owner := by
    rw [Trusts, Trusts, hhome]
  simp only [verdict, h, htrust, hhome]

/-- To prepare to forward is to be refused by the verdict or to be ready by it. -/
theorem dispatch_eq
    (h : s.resolver.checkForward action.grain hop action.operation.name = .ok (some owner)) :
    (s.verdict m.oracle action hop = .forward owner ∧
        s.dispatch m action owner = .ok (s.dispatched m action)) ∨
      ∃ e, s.verdict m.oracle action hop = .refuse e ∧ s.dispatch m action owner = .error e := by
  rw [verdict, h]
  cases action with
  | lookup grain =>
    by_cases htrust : s.Trusts m.oracle owner
    · exact .inl ⟨by simp [Action.operation, htrust], by simp [dispatch, htrust, dispatched,
        Action.operation]⟩
    · exact .inr ⟨.unstableTarget grain s.home owner,
        by simp [Action.operation, Action.grain, htrust], by simp [dispatch, htrust]⟩
  | register address previous => exact .inl ⟨rfl, rfl⟩
  | unregister address cause => exact .inl ⟨rfl, rfl⟩
  | delete grain => exact .inl ⟨rfl, rfl⟩

/-- An action is forwarded to an owner that it has not come to, and only below the hop limit. -/
theorem checkForward_of_forward {o : Oracle} (h : s.verdict o action hop = .forward owner) :
    s.resolver.checkForward action.grain hop action.operation.name = .ok (some owner) := by
  unfold verdict at h
  split at h
  · cases h
  · cases h
  · rename_i silo hcheck
    split at h
    · cases h
    · rw [hcheck, Verdict.forward.inj h]

theorem checkForward_of_serve {o : Oracle} (h : s.verdict o action hop = .serve) :
    s.resolver.checkForward action.grain hop action.operation.name = .ok none := by
  unfold verdict at h
  split at h
  · cases h
  · assumption
  · split at h <;> cases h

end Service

/-- A hop below some limit can be raised by one. -/
theorem toNat_hop_add_one {hop limit : UInt32} (h : hop < limit) :
    (hop + 1).toNat = hop.toNat + 1 := by
  have hlt : hop.toNat < limit.toNat := h
  have hmax := limit.toNat_lt
  rw [UInt32.toNat_add, UInt32.toNat_one]
  exact Nat.mod_eq_of_lt (by omega)

namespace Cluster

/-! ## The steps of a call in the cluster -/

section Steps

variable (c : Cluster) (i : ServiceId)

/-- A service has taken an action in. -/
def accepted (action : Action) (hop : UInt32) : Cluster :=
  c.adjust i fun s => s.accept c.moment action hop

/-- A service has served an action. -/
def served (action : Action) : Cluster :=
  c.adjust i fun _ => ((c.service i).serve c.moment action).2

/-- A service has prepared to forward an action. -/
def dispatched (action : Action) : Cluster := c.adjust i fun s => s.dispatched c.moment action

/-- A service has learned from the reply to an action that it forwarded. -/
def learned (action : Action) (reply : Reply) : Cluster :=
  c.adjust i fun s => s.learn c.moment action reply

/-- A service has taken a batch in. -/
def entered (hop : UInt32) : Cluster :=
  c.adjust i fun s => { s with metrics := s.metrics.enter .unregisterMany hop }

/-- A service has removed the part of a batch that stays. -/
def relieved (cause : RemovalCause) (here : List GrainAddress) : Cluster :=
  c.adjust i fun s => s.removeAllHere c.moment cause here

/-- A service that has taken a batch in is about to send the part that does not stay, and has counted
that.  Unless it is the first to get the batch, it has waited, and others have acted meanwhile. -/
def readied (others : Cluster → Cluster) (cause : RemovalCause) (hop : UInt32)
    (split : Service.Split) : Cluster :=
  let relieved := (c.entered i hop).relieved i cause split.here
  let waited := if hop = 0 ∨ split.away = [] then relieved else others relieved
  waited.adjust i fun s => s.count (.call .unregisterMany .sent) (UInt64.ofNat split.away.length)

/-- A service has removed the part of a batch that stays, and is about to send the rest. -/
def apportioned (cause : RemovalCause) (split : Service.Split) : Cluster :=
  (c.adjust i fun s => s.removeAllHere c.moment cause split.here).adjust i fun s =>
    s.count (.call .unregisterMany .sent) (UInt64.ofNat split.away.length)

/-- A request to a silo has been noted by whoever carries it. -/
def noted (target : Silo) (request : Request) : Cluster :=
  match c.wiring with
  | .direct => c
  | _ => c.log target request

theorem adjust_id : (c.adjust i fun s => s) = c := by
  have h : c.services.modify i (fun s => s) = c.services := List.modify_id i c.services
  rw [adjust, h]

/-- A change may be worked out before it is made. -/
theorem adjust_worked_out (f : Service → Service) :
    (c.adjust i fun _ => f (c.service i)) = c.adjust i f := by
  have h : c.services.modify i (fun _ => f (c.service i)) = c.services.modify i f := by
    apply List.ext_getElem?
    intro j
    rw [List.getElem?_modify, List.getElem?_modify]
    by_cases hij : i = j
    · subst hij
      cases hs : c.services[i]? with
      | none => rfl
      | some s => simp [service, hs]
    · simp [hij]
  rw [adjust, adjust, h]

theorem adjust_service : (c.adjust i fun _ => c.service i) = c :=
  (adjust_worked_out c i fun s => s).trans (adjust_id c i)

variable {c i}

@[simp] theorem outline_accepted (action : Action) (hop : UInt32) :
    (c.accepted i action hop).outline = c.outline :=
  outline_adjust (Service.outline_accept _ _ _ _)

@[simp] theorem outline_dispatched (action : Action) :
    (c.dispatched i action).outline = c.outline := by
  refine outline_adjust ?_
  cases action with
  | delete grain => exact Service.outline_update _ rfl (Cache.outline_remove _ _ _)
  | register address previous => rfl
  | unregister address cause => rfl
  | lookup grain => rfl

@[simp] theorem outline_entered (hop : UInt32) : (c.entered i hop).outline = c.outline :=
  outline_adjust rfl

@[simp] theorem outline_apportioned (cause : RemovalCause) (split : Service.Split) :
    (c.apportioned i cause split).outline = c.outline :=
  (outline_adjust rfl).trans (outline_adjust (Service.outline_removeAllHere _ _ _ _))

@[simp] theorem outline_noted (target : Silo) (request : Request) :
    (c.noted target request).outline = c.outline := by
  unfold noted
  split <;> rfl

@[simp] theorem wiring_noted (target : Silo) (request : Request) :
    (c.noted target request).wiring = c.wiring := wiring_eq_of_outline (outline_noted target request)

@[simp] theorem moment_noted (target : Silo) (request : Request) :
    (c.noted target request).moment = c.moment := moment_eq_of_outline (outline_noted target request)

@[simp] theorem learned_error (action : Action) (e : Error) :
    c.learned i action (.error e) = c := by
  have h : (fun s : Service => s.learn c.moment action (.error e)) = fun s => s := by
    funext s
    cases action <;> rfl
  rw [learned, h, adjust_id]

end Steps

/-! ## The run of an action -/

/-- Sends a request to a silo, if there is a way to it. -/
def transmit (ways : Ways) (target : Silo) (request : Request) : Activity Cluster Reply := do
  let c ← .look
  match ways c target with
  | .error e => pure (.error e)
  | .ok peer => peer request

theorem run_transmit (ways : Ways) (target : Silo) (request : Request) (c : Cluster) :
    (transmit ways target request).run c =
      match ways c target with
      | .error e => (.error e, c)
      | .ok peer => (peer request).run c := by
  rw [transmit, Activity.run_bind, Activity.run_look]
  dsimp only
  cases ways c target <;> rfl

theorem run_resolve (i : ServiceId) (action : Action) (hop : UInt32) (c : Cluster) :
    (resolve i action hop).run c =
      ((c.service i).resolver.checkForward action.grain hop action.operation.name, c) := by
  rw [resolve, Activity.run_bind, run_inspect]
  dsimp only
  split
  · split
    · rfl
    · rw [Activity.run_bind, run_waitToRetry, run_inspect]
  · rfl

theorem run_forward_refused (ways : Ways) {i : ServiceId} {action : Action} {hop : UInt32}
    {owner : Silo} {c : Cluster} {e : Error}
    (h : (c.service i).dispatch c.moment action owner = .error e) :
    (forward ways i action hop owner).run c = (.error e, c) := by
  rw [forward, Activity.run_bind, run_change, h]
  dsimp only
  rw [adjust_service]
  rfl

theorem run_forward (ways : Ways) {i : ServiceId} {action : Action} {hop : UInt32} {owner : Silo}
    {c : Cluster} (h : (c.service i).dispatch c.moment action owner =
      .ok ((c.service i).dispatched c.moment action)) :
    (forward ways i action hop owner).run c =
      let r := (transmit ways owner (.single action (hop + 1))).run (c.dispatched i action)
      (r.1, r.2.learned i action r.1) := by
  have hstep : (c.adjust i fun _ => (c.service i).dispatched c.moment action) =
      c.dispatched i action := adjust_worked_out c i fun s => s.dispatched c.moment action
  rw [forward, Activity.run_bind, run_change, h]
  dsimp only
  rw [hstep, Activity.run_bind, Activity.run_look, run_transmit]
  dsimp only
  cases hways : ways (c.dispatched i action) owner with
  | error e => simp only [Activity.run_remark, Activity.run_pure, learned_error]
  | ok peer =>
    simp only [Activity.run_bind, run_revise, Activity.run_pure]
    rfl

/-- The run of an action, laid out. -/
theorem run_handleAction (ways : Ways) (i : ServiceId) (action : Action) (hop : UInt32)
    (c : Cluster) :
    (handleAction ways i action hop).run c =
      match (c.service i).verdict c.oracle action hop with
      | .refuse e => (.error e, c.accepted i action hop)
      | .serve =>
        (.ok (((c.accepted i action hop).service i).serve c.moment action).1,
          (c.accepted i action hop).served i action)
      | .forward owner =>
        let r := (transmit ways owner (.single action (hop + 1))).run
          ((c.accepted i action hop).dispatched i action)
        (r.1, r.2.learned i action r.1) := by
  have hentry : (c.adjust i fun s => s.accept c.moment action hop) = c.accepted i action hop := rfl
  have hview : ((c.accepted i action hop).service i).resolver = (c.service i).resolver :=
    resolver_eq_of_outline (outline_accepted action hop) i
  have hverdict := Service.verdict_eq_of_resolver hview c.oracle action hop
  rw [handleAction, Activity.run_bind, run_revise, Activity.run_bind]
  dsimp only
  rw [hentry, run_resolve, ← hverdict]
  dsimp only
  cases hcheck : ((c.accepted i action hop).service i).resolver.checkForward action.grain hop
      action.operation.name with
  | error e =>
    rw [Service.verdict_of_error hcheck]
    rfl
  | ok target =>
    cases target with
    | none =>
      rw [Service.verdict_of_none hcheck]
      rfl
    | some owner =>
      have hmoment : (c.accepted i action hop).moment = c.moment := rfl
      rcases Service.dispatch_eq (m := (c.accepted i action hop).moment) hcheck with
        ⟨hv, hd⟩ | ⟨e, hv, hd⟩
      · rw [hmoment] at hv
        rw [show c.oracle = c.moment.oracle from rfl, hv]
        exact run_forward ways hd
      · rw [hmoment] at hv
        rw [show c.oracle = c.moment.oracle from rfl, hv]
        exact run_forward_refused ways hd

/-! ## The run of a batch -/

/-- Sends owners their parts of a batch over the ways seen in some state, all side by side, and joins the
replies. -/
def post (ways : Ways) (seen : Cluster) (cause : RemovalCause) (hop : UInt32)
    (away : List (Silo × List GrainAddress)) : Activity Cluster Reply := do
  let replies ← .all (away.map fun a => deliverTo ways seen cause hop a.1 a.2)
  pure (joinReplies replies)

theorem goOn_deliverAway (ways : Ways) (others : Cluster → Cluster) (i : ServiceId)
    (cause : RemovalCause) (hop : UInt32) (away : List (Silo × List GrainAddress)) (c : Cluster) :
    (deliverAway ways i cause hop away).goOn others c =
      let seen := c.adjust i fun s => s.count (.call .unregisterMany .sent) (UInt64.ofNat away.length)
      (post ways seen cause hop away, seen) := rfl

/-- What a service does with a batch before it sends anything, laid out.  To split again what is to be
sent away changes nothing, whatever others do meanwhile, unless they change the service's view. -/
theorem goOn_handleBatch (ways : Ways) (others : Cluster → Cluster) {i : ServiceId}
    (hothers : ∀ d : Cluster, ((others d).service i).resolver = (d.service i).resolver)
    (addresses : List GrainAddress) (cause : RemovalCause) (hop : UInt32) (c : Cluster) :
    (handleBatch ways i addresses cause hop).goOn others c =
      match (c.service i).split hop addresses with
      | .error e => (.done (.error e), c.entered i hop)
      | .ok split =>
        let seen := c.readied i others cause hop split
        (post ways seen cause hop split.away, seen) := by
  have hview : ((c.entered i hop).service i).resolver = (c.service i).resolver :=
    resolver_eq_of_outline (outline_entered hop) i
  rw [handleBatch, Activity.goOn_bind others (t := c.entered i hop) (a := ()) rfl,
    Activity.goOn_bind others (t := c.entered i hop) (a := (c.service i).split hop addresses)
      (congrArg (fun r => (Activity.done r, c.entered i hop)) (Service.split_eq_of_resolver hview))]
  cases hsplit : (c.service i).split hop addresses with
  | error e => rfl
  | ok split =>
    dsimp only
    let relieved := (c.entered i hop).relieved i cause split.here
    rw [Activity.goOn_bind others (t := relieved) (a := ()) rfl]
    by_cases hfirst : hop = 0 ∨ split.away = []
    · rw [if_pos hfirst, goOn_deliverAway, readied, if_pos hfirst]
    · -- The part that stays has been removed when the batch is split again.
      have hkeep : relieved.outline = c.outline :=
        (outline_adjust (Service.outline_removeAllHere _ _ _ _)).trans (outline_entered hop)
      let waited := others relieved
      have hagain : (waited.service i).split hop split.pending = .ok ⟨[], split.away⟩ := by
        rw [Service.split_eq_of_resolver ((hothers _).trans (resolver_eq_of_outline hkeep i))]
        exact Service.split_pending hsplit
      have hnone : (waited.adjust i fun s => s.removeAllHere waited.moment cause []) = waited :=
        adjust_id waited i
      rw [if_neg hfirst, Activity.goOn_bind others (t := waited) (a := ()) rfl,
        Activity.goOn_bind others (t := waited) (a := .ok ⟨[], split.away⟩)
          (congrArg (fun r => (Activity.done r, waited)) hagain)]
      dsimp only
      rw [Activity.goOn_bind others (t := waited) (a := ()) (congrArg (Prod.mk _) hnone),
        goOn_deliverAway, readied, if_neg hfirst]

/-- Sends each owner its part of a batch. -/
def transmitAll (ways : Ways) (cause : RemovalCause) (hop : UInt32)
    (away : List (Silo × List GrainAddress)) : Activity Cluster (List Reply) :=
  .all (away.map fun a => transmit ways a.1 (.batch a.2 cause (hop + 1)))

theorem run_transmitAll_cons (ways : Ways) (cause : RemovalCause) (hop : UInt32)
    (a : Silo × List GrainAddress) (rest : List (Silo × List GrainAddress)) (c : Cluster) :
    (transmitAll ways cause hop (a :: rest)).run c =
      let r := (transmit ways a.1 (.batch a.2 cause (hop + 1))).run c
      let rs := (transmitAll ways cause hop rest).run r.2
      (r.1 :: rs.1, rs.2) := by
  rw [transmitAll, List.map_cons, Activity.run_all_cons]
  rfl

/-- Ways that are read off the outline, and that everybody reached over them keeps. -/
structure Firm (ways : Ways) : Prop where
  keep : WaysKeep ways
  stay : ∀ {c c' : Cluster} (target : Silo), c'.outline = c.outline → ways c' target = ways c target

theorem firm_noWays : Firm noWays where
  keep := fun _ _ _ h => nomatch h
  stay := fun _ _ => rfl

theorem firm_ways (forwards : Nat) : Firm (ways (perform forwards)) where
  keep := waysKeep_ways fun i request => keeps_perform forwards i request
  stay := fun target h => by
    unfold ways
    rw [wiring_eq_of_outline h, reach?_eq_of_outline h]

section Batches

variable {ways : Ways} (hways : Firm ways)

include hways

theorem keeps_transmit (target : Silo) (request : Request) :
    (transmit ways target request).Keeps outline := by
  intro c
  rw [run_transmit]
  cases h : ways c target with
  | error e => rfl
  | ok peer => exact hways.keep c target peer h request c

/-- The parts of a batch are sent over the ways as they are when the first is sent. -/
theorem run_all_deliverTo (cause : RemovalCause) (hop : UInt32)
    (away : List (Silo × List GrainAddress)) {c c' : Cluster} (h : c'.outline = c.outline) :
    (Activity.all (away.map fun a => deliverTo ways c cause hop a.1 a.2)).run c' =
      (transmitAll ways cause hop away).run c' := by
  induction away generalizing c' with
  | nil => rfl
  | cons a rest ih =>
    have hfirst : (deliverTo ways c cause hop a.1 a.2).run c' =
        (transmit ways a.1 (.batch a.2 cause (hop + 1))).run c' := by
      rw [run_transmit, hways.stay a.1 h, deliverTo]
      cases ways c a.1 <;> rfl
    have hkeep := keeps_transmit hways a.1 (.batch a.2 cause (hop + 1)) c'
    rw [List.map_cons, Activity.run_all_cons, hfirst, ih (hkeep.trans h), run_transmitAll_cons]

theorem run_post (cause : RemovalCause) (hop : UInt32) (away : List (Silo × List GrainAddress))
    (c : Cluster) :
    (post ways c cause hop away).run c =
      let r := (transmitAll ways cause hop away).run c
      (joinReplies r.1, r.2) := by
  rw [post, Activity.run_bind, run_all_deliverTo hways cause hop away rfl, Activity.run_pure]

/-- The run of a batch, laid out. -/
theorem run_handleBatch (i : ServiceId) (addresses : List GrainAddress) (cause : RemovalCause)
    (hop : UInt32) (c : Cluster) :
    (handleBatch ways i addresses cause hop).run c =
      match (c.service i).split hop addresses with
      | .error e => (.error e, c.entered i hop)
      | .ok split =>
        let r := (transmitAll ways cause hop split.away).run
          ((c.entered i hop).apportioned i cause split)
        (joinReplies r.1, r.2) := by
  have hgo : (handleBatch ways i addresses cause hop).goOn id c = _ :=
    goOn_handleBatch ways id (fun _ => rfl) addresses cause hop c
  rw [← Activity.run_goOn, hgo]
  cases (c.service i).split hop addresses with
  | error e => rfl
  | ok split =>
    have hready : c.readied i id cause hop split = (c.entered i hop).apportioned i cause split := by
      rw [readied, id, ite_self]
      rfl
    dsimp only
    rw [hready, run_post hways]

end Batches

end Cluster

end GrainDirectory

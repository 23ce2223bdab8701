import GrainDirectory.Proofs.Books
import GrainDirectory.Proofs.CallInduction
import GrainDirectory.Proofs.Journey
set_option autoImplicit false

/-!
# Actions are applied once or not at all

An action goes on its journey, whatever the services it passes through believe.  If the journey ends
with somebody who answers for the grain, the action is applied to that partition and to no other, and
the outcome is the one of that partition; if it ends with an error, nobody's partition changes.

Calls are carried out at once here (`Activity.run`): a service that waits before it resolves an owner again
waits no time, and nobody acts meanwhile.  So an action is applied at the moment of the call, which shows
in the ages of registrations and of what caches hold; where it is applied, and how often, does not depend
on it.

The main statements are `call_action`, which says how a call of an action ends in terms of its
journey, and `action_applied_once`.
-/

namespace GrainDirectory.Cluster

/-! ## How an action ends -/

/-- What is left of an action whose journey ended at a service: it was applied there, or it failed. -/
def Concluded (c : Cluster) (action : Action) (last : ServiceId) :
    Option Error → Reply → Cluster → Prop
  | none, reply, c' =>
    reply = .ok ((c.service last).partition.apply c.moment action).1 ∧
      c'.books action.operation = Function.update (c.books action.operation) last
        ((c.books action.operation last).apply c.moment action)
  | some e, reply, c' =>
    reply = .error e ∧ c'.books action.operation = c.books action.operation ∧
      (Service.Spares action.operation → c'.caches = c.caches)

/-- The ending of actions between services that reach each other directly. -/
def ActionEnding : Ending := fun c i request reply c' =>
  c.wiring ≠ .framed → ∀ action hop, request = .single action hop →
    ∃ before last failure, Journey c action i hop before last failure ∧
      Concluded c action last failure reply c'

/-- What others did to get an action to where it ends, and what they learn from it, does not show. -/
theorem Concluded.passed {c d c' : Cluster} {action : Action} {last : ServiceId}
    {failure : Option Error} {reply : Reply} (hmoment : d.moment = c.moment)
    (hbooks : d.books action.operation = c.books action.operation)
    (hcaches : Service.Spares action.operation → d.caches = c.caches)
    (h : Concluded d action last failure reply c') (i j : ServiceId) :
    Concluded c action last failure reply ((c'.disengage j).learned i action reply) := by
  have hpartition : (d.service last).partition = (c.service last).partition :=
    congrArg Books.partition (congrFun hbooks last)
  cases failure with
  | none =>
    obtain ⟨hreply, hafter⟩ := h
    refine ⟨?_, ?_⟩
    · rw [hreply, hpartition, hmoment]
    · rw [books_learned, books_disengage, hafter, hbooks, hmoment]
  | some e =>
    obtain ⟨hreply, hafter, hkeep⟩ := h
    refine ⟨hreply, ?_, fun hspares => ?_⟩
    · rw [books_learned, books_disengage, hafter, hbooks]
    · rw [hreply, learned_error, caches_disengage, hkeep hspares, hcaches hspares]

theorem caches_accepted {c : Cluster} {i : ServiceId} {action : Action}
    (h : Service.Spares action.operation) (hop : UInt32) :
    (c.accepted i action hop).caches = c.caches :=
  caches_adjust (Service.cache_accept _ _ h hop)

theorem caches_dispatched {c : Cluster} {i : ServiceId} {action : Action}
    (h : Service.Spares action.operation) : (c.dispatched i action).caches = c.caches :=
  caches_adjust (Service.cache_dispatched _ _ h)

/-- Every action goes on its journey and ends there. -/
theorem attended_action : Attended ActionEnding where
  refused := by
    intro c i action hop e _ hverdict _ action' hop' heq
    cases heq
    exact ⟨[], i, some e, .refused hverdict, rfl, books_accepted _ _ _,
      fun hspares => caches_accepted hspares hop⟩
  served := by
    intro c i action hop hi hverdict _ action' hop' heq
    cases heq
    have hbooks := books_accepted (c := c) (i := i) action.operation action hop
    have hlive : i < (c.accepted i action hop).services.length := by
      rw [length_eq_of_outline (outline_accepted action hop)]
      exact hi.1
    have hpartition : ((c.accepted i action hop).service i).partition = (c.service i).partition :=
      congrArg Books.partition (congrFun hbooks i)
    refine ⟨[], i, none, .served hverdict, ?_, ?_⟩
    · rw [Service.outcome_serve, hpartition]
    · rw [books_served hlive, hbooks]
      rfl
  forwarded := by
    intro c i action hop owner reply c' _ hverdict _ hsent hwiring action' hop' heq
    cases heq
    have hkeep : ((c.accepted i action hop).dispatched i action).outline = c.outline :=
      (outline_dispatched action).trans (outline_accepted action hop)
    have hwiring' : ((c.accepted i action hop).dispatched i action).wiring ≠ .framed := by
      rw [wiring_eq_of_outline hkeep]
      exact hwiring
    have hbooks : ((c.accepted i action hop).dispatched i action).books action.operation =
        c.books action.operation := by
      rw [books_dispatched, books_accepted]
    have hcaches (hspares : Service.Spares action.operation) :
        ((c.accepted i action hop).dispatched i action).caches = c.caches := by
      rw [caches_dispatched hspares, caches_accepted hspares]
    rcases hsent.of_ne_framed hwiring' with ⟨hnone, rfl, rfl⟩ | ⟨j, d, hj, rfl, hend⟩
    · rw [reach?_eq_of_outline hkeep] at hnone
      rw [learned_error]
      exact ⟨[], i, _, .stranded hverdict hnone, rfl, hbooks, hcaches⟩
    · have hagrees := (Agrees.of_outline hkeep).trans
        (Agrees.arrived hj (.single action (hop + 1)))
      have hmoment : (((c.accepted i action hop).dispatched i action).noted owner
          (.single action (hop + 1))).moment = c.moment := moment_noted owner _
      have hwiring'' : (((c.accepted i action hop).dispatched i action).noted owner
          (.single action (hop + 1))).wiring ≠ .framed := by
        rw [wiring_noted]
        exact hwiring'
      obtain ⟨before, last, failure, hjourney, hconcluded⟩ := hend hwiring'' action (hop + 1) rfl
      rw [reach?_eq_of_outline hkeep] at hj
      refine ⟨i :: before, last, failure, .onward hverdict hj (hjourney.congr hagrees.symm), ?_⟩
      refine hconcluded.passed hmoment ?_ (fun hspares => ?_) i j
      · exact (books_noted _ _ _).trans hbooks
      · exact (caches_noted _ _).trans (hcaches hspares)
  batchRefused := by
    intro c i addresses cause hop e _ _ _ action hop' heq
    cases heq
  batchSplit := by
    intro c i addresses cause hop split replies c' _ _ _ _ action hop' heq
    cases heq

/-- How a call of an action ends: by its journey. -/
theorem call_action {c : Cluster} (hwiring : c.wiring ≠ .framed) {i : ServiceId}
    (hi : i < c.services.length) (action : Action) (hop : UInt32) :
    ∃ before last failure, Journey (c.engage i) action i hop before last failure ∧
      Concluded c action last failure ((call i (.single action hop)).run c).1
        ((call i (.single action hop)).run c).2 := by
  obtain ⟨reply, c', hrun, -, hend⟩ := attended_action.call hi (.single action hop)
  obtain ⟨before, last, failure, hjourney, hconcluded⟩ := hend hwiring action hop rfl
  refine ⟨before, last, failure, hjourney, ?_⟩
  rw [hrun]
  cases failure with
  | none => exact hconcluded
  | some e => exact hconcluded

/-- A service that answers for a grain serves what it is asked about it out of its own partition, and no
other service has to do with that. -/
theorem call_of_answers {c : Cluster} {i : ServiceId} (hi : i < c.services.length) (action : Action)
    (hop : UInt32) (hanswers : (c.service i).Answers action.grain) :
    ((call i (.single action hop)).run c).1 =
        .ok ((c.service i).partition.apply c.moment action).1 ∧
      (((call i (.single action hop)).run c).2.service i).partition =
        ((c.service i).partition.apply c.moment action).2 ∧
      ∀ j, j ≠ i → ((call i (.single action hop)).run c).2.service j = c.service j := by
  have hserve : ((c.engage i).service i).verdict (c.engage i).oracle action hop = .serve :=
    Service.serve_iff_answers.mpr hanswers
  let d := (c.engage i).accepted i action hop
  have hrun : (call i (.single action hop)).run c =
      (.ok ((d.service i).serve c.moment action).1, (d.served i action).disengage i) := by
    have hhandled : handle (waysOf maxForwards) i (.single action hop) =
        handleAction (waysOf maxForwards) i action hop := rfl
    rw [call, perform_eq, run_attended, hhandled, run_handleAction, hserve]
    rfl
  have hi' : i < d.services.length := (length_adjust (c.engage i) i _).symm ▸ hi
  have hd : d.service i = (c.service i).accept c.moment action hop :=
    service_adjust_self (c := c.engage i) hi _
  have hpartition : (d.service i).partition = (c.service i).partition := by
    rw [hd]
    exact congrArg Books.partition (Service.books_accept _ _ action.operation action hop)
  rw [hrun, Service.outcome_serve, hpartition]
  refine ⟨rfl, ?_, fun j hj => ?_⟩
  · have hbooks := congrArg Books.partition (Service.books_serve (d.service i) c.moment action)
    have hserved : (d.served i action).service i = ((d.service i).serve c.moment action).2 :=
      service_adjust_self hi' _
    show ((d.served i action).service i).partition = _
    rw [hserved, ← hpartition]
    exact hbooks
  · have hserved : (d.served i action).service j = d.service j := service_adjust_of_ne d hj.symm _
    have haccepted : d.service j = (c.engage i).service j :=
      service_adjust_of_ne (c.engage i) hj.symm _
    exact hserved.trans haccepted

/-! ## Once or not at all -/

/-- What a call of an action at a service may leave behind. -/
structure AppliedOnce (c : Cluster) (i : ServiceId) (action : Action) (hop : UInt32)
    (reply : Reply) (c' : Cluster) : Prop where
  /-- A call that succeeds has been applied by the one service on its journey that answers for the
  grain, and by nobody else; the outcome is that partition's own. -/
  succeeded : ∀ outcome, reply = .ok outcome →
    ∃ before last, Journey (c.engage i) action i hop before last none ∧
      last < c.services.length ∧
      (∀ k ∈ before ++ [last], (c.service k).Answers action.grain ↔ k = last) ∧
      outcome = ((c.service last).partition.apply c.moment action).1 ∧
      (c'.service last).partition = ((c.service last).partition.apply c.moment action).2 ∧
      (c'.service last).metrics.get (.call action.operation .served) =
        (c.service last).metrics.get (.call action.operation .served) + 1 ∧
      ∀ j, j ≠ last → (c'.service j).partition = (c.service j).partition ∧
        (c'.service j).metrics.get (.call action.operation .served) =
          (c.service j).metrics.get (.call action.operation .served)
  /-- A call that fails has been applied by nobody. -/
  failed : ∀ e, reply = .error e → Service.Expected action e ∧
    ∀ j, (c'.service j).partition = (c.service j).partition ∧
      (c'.service j).metrics.get (.call action.operation .served) =
        (c.service j).metrics.get (.call action.operation .served)
  /-- A lookup changes no registrations. -/
  lookup : action.operation = .lookup → ∀ j, (c'.service j).partition = (c.service j).partition
  /-- A registration or a lookup that fails has taught nobody anything. -/
  spared : action.operation = .register ∨ action.operation = .lookup →
    ∀ e, reply = .error e → ∀ j, (c'.service j).cache = (c.service j).cache

/-- An action is applied exactly once or not at all, whatever the services of a cluster believe. -/
theorem action_applied_once {c : Cluster} (hwiring : c.wiring ≠ .framed) {i : ServiceId}
    (hi : i < c.services.length) (action : Action) (hop : UInt32) :
    AppliedOnce c i action hop ((call i (.single action hop)).run c).1
      ((call i (.single action hop)).run c).2 := by
  obtain ⟨before, last, failure, hjourney, hconcluded⟩ := call_action hwiring hi action hop
  generalize ((call i (.single action hop)).run c).1 = reply at hconcluded ⊢
  generalize ((call i (.single action hop)).run c).2 = c' at hconcluded ⊢
  cases failure with
  | none =>
    obtain ⟨rfl, hbooks⟩ := hconcluded
    have hlast := congrFun hbooks last
    rw [Function.update_self] at hlast
    have hothers (j : ServiceId) (hj : j ≠ last) :
        c'.books action.operation j = c.books action.operation j := by
      rw [hbooks, Function.update_of_ne hj]
    refine ⟨?_, (fun e h => nomatch h), ?_, (fun _ e h => nomatch h)⟩
    · intro outcome houtcome
      refine ⟨before, last, hjourney, hjourney.last_lt_length hi, ?_,
        (Except.ok.inj houtcome).symm, congrArg Books.partition hlast,
        congrArg Books.served hlast, fun j hj =>
          ⟨congrArg Books.partition (hothers j hj), congrArg Books.served (hothers j hj)⟩⟩
      intro k hk
      constructor
      · intro hanswers
        rcases List.mem_append.mp hk with hk | hk
        · exact absurd hanswers (hjourney.not_answers_of_mem hk)
        · exact List.mem_singleton.mp hk
      · rintro rfl
        exact hjourney.answers
    · intro hlookup j
      by_cases hj : j = last
      · subst hj
        cases action with
        | lookup grain => exact congrArg Books.partition hlast
        | register address previous => cases hlookup
        | unregister address cause => cases hlookup
        | delete grain => cases hlookup
      · exact congrArg Books.partition (hothers j hj)
  | some e =>
    obtain ⟨rfl, hbooks, hcaches⟩ := hconcluded
    have hsame (j : ServiceId) := congrFun hbooks j
    refine ⟨(fun _ h => nomatch h), ?_, (fun _ j => congrArg Books.partition (hsame j)), ?_⟩
    · rintro _ ⟨⟩
      exact ⟨hjourney.expected, fun j =>
        ⟨congrArg Books.partition (hsame j), congrArg Books.served (hsame j)⟩⟩
    · intro hspares _ _ j
      exact congrFun (hcaches hspares) j

/-- A service at a silo, with nothing registered and nothing learned. -/
def freshService (home : Silo) (ring : Ring) : Service :=
  { label := "", home := home, config := {}, ring := ring, running := true, partition := default,
    cache := default }

/-- Two services, each of which believes the other to be the owner of everything. -/
def mutualOwners : Cluster :=
  let first : Silo := ⟨⟨.v4 1 1, 1⟩, 1⟩
  let second : Silo := ⟨⟨.v4 1 2, 1⟩, 2⟩
  { services := [freshService first ⟨[second]⟩, freshService second ⟨[first]⟩]
    routes := (Table.empty.put ⟨first, 0⟩).put ⟨second, 1⟩ }

theorem action_applied_once_mutualOwners :
    mutualOwners.wiring ≠ .framed ∧ 0 < mutualOwners.services.length ∧
      AppliedOnce mutualOwners 0 (.delete ⟨⟨⟨"g"⟩, "k"⟩, 0⟩) 0
        ((call 0 (.single (.delete ⟨⟨⟨"g"⟩, "k"⟩, 0⟩) 0)).run mutualOwners).1
        ((call 0 (.single (.delete ⟨⟨⟨"g"⟩, "k"⟩, 0⟩) 0)).run mutualOwners).2 :=
  ⟨by decide, by decide, action_applied_once (by decide) (by decide) _ 0⟩

end GrainDirectory.Cluster

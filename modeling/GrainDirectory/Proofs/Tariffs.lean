import Mathlib.Algebra.BigOperators.Group.Finset.Piecewise
import Mathlib.Data.UInt
import GrainDirectory.Proofs.CallInduction
import GrainDirectory.Proofs.Contributions
import GrainDirectory.Proofs.Minutes
import GrainDirectory.Proofs.Practice
set_option autoImplicit false

/-!
# What calls cost

A tariff says what everything costs that happens to the calls of an operation: that a service counts one as
issued, served, sent or received, that one is logged, that an owner cannot be resolved, that there is no
way to it.  The balance of a cluster at a tariff adds all this up.

A tariff is balanced if whatever happens to a call that is issued makes up for what its issue costs, and
what happens at the target of a forward makes up for what happens at its origin.  At such a tariff a call of
a client costs nothing, however it goes and whoever acts meanwhile (`Tariff.costs_call`).
-/

namespace GrainDirectory

/-- What the events in the life of a call cost, modulo 2^64, each to the service at which it happens. -/
structure Tariff where
  issued : ServiceId → UInt64 := fun _ => 0
  served : ServiceId → UInt64 := fun _ => 0
  sent : ServiceId → UInt64 := fun _ => 0
  received : UInt64 := 0
  logged : UInt64 := 0
  lost : ServiceId → UInt64 := fun _ => 0
  refused : UInt64 := 0

namespace Tariff

variable (t : Tariff) (op : Operation)

/-- What it costs that a call is counted. -/
def counted (n : ServiceId) : Role → UInt64
  | .issued => t.issued n
  | .served => t.served n
  | .sent => t.sent n
  | .received => t.received

/-- What the counts of a service for an operation cost. -/
def ofMetrics (n : ServiceId) (metrics : Metrics) : UInt64 :=
  t.issued n * metrics.get (.call op .issued) + t.served n * metrics.get (.call op .served) +
    t.sent n * metrics.get (.call op .sent) + t.received * metrics.get (.call op .received)

/-- What a logged call costs. -/
def ofCall (call : Call) : UInt64 := if call.operation = op then t.logged else 0

/-- What it costs that something befalls a call. -/
def ofMishap : Mishap → UInt64
  | .lost i operation => if operation = op then t.lost i else 0
  | .refused operation => if operation = op then t.refused else 0

/-- What all calls of an operation have cost by now. -/
def balance (s : Minuted) : UInt64 :=
  ∑ n ∈ Finset.range s.1.services.length, t.ofMetrics op n (s.1.service n).metrics +
    (s.1.calls.map (t.ofCall op)).sum + (s.2.map (t.ofMishap op)).sum

/-- Whether nothing has to be made up for, as the issue of a call costs nothing. -/
def Prompt : Prop := ∀ n, t.issued n = 0

/-- Whether whatever happens to a call makes up for what its issue costs.  A call that is carried to an
owner costs what one costs that is refused.  Lookups may be given up and batches are split up, so their
issue costs nothing. -/
structure Balanced : Prop where
  served : ∀ n, t.issued n + t.served n = 0
  lost : ∀ n, t.issued n + t.lost n = 0
  refused : ∀ n, t.issued n + t.sent n + t.refused = 0
  carried : t.logged + t.received = t.refused
  plain : op = .lookup ∨ op = .unregisterMany → t.Prompt

/-- What something costs that happens to a call of an operation. -/
def fee (op' : Operation) (cost : UInt64) : UInt64 := if op' = op then cost else 0

variable {t op}

theorem mul_ofNat (x : UInt64) (n : Nat) : x * UInt64.ofNat n = n • x := by
  induction n with
  | zero => simp
  | succ n ih => rw [UInt64.ofNat_add, mul_add, ih, succ_nsmul]; simp

theorem fee_zero (op' : Operation) : fee op op' 0 = 0 := by
  unfold fee
  split <;> rfl

theorem fee_add (op' : Operation) (a b : UInt64) : fee op op' (a + b) = fee op op' a + fee op op' b := by
  unfold fee
  split <;> simp

theorem fee_mul (op' : Operation) (a b : UInt64) : fee op op' (a * b) = fee op op' a * b := by
  unfold fee
  split <;> simp

theorem fee_neg (op' : Operation) (a : UInt64) : fee op op' (-a) = -fee op op' a := by
  unfold fee
  split <;> simp

/-- An issue that costs nothing need not be made up for. -/
theorem Balanced.fee_issued (h : t.Balanced op) {op' : Operation}
    (hop : op' = .lookup ∨ op' = .unregisterMany) (n : ServiceId) : fee op op' (t.issued n) = 0 := by
  unfold fee
  split
  · rename_i heq
    exact h.plain (heq ▸ hop) n
  · rfl

theorem fee_eq_zero_of_add {op' : Operation} {a b : UInt64} (h : a + b = 0) (ha : fee op op' a = 0) :
    fee op op' b = 0 := by
  have hsum := congrArg (fee op op') h
  rwa [fee_add, ha, zero_add, fee_zero] at hsum

/-! ## What steps cost -/

theorem ofMetrics_add (n : ServiceId) (metrics : Metrics) (op' : Operation) (role : Role) (k : UInt64) :
    t.ofMetrics op n (metrics.add (.call op' role) k) =
      t.ofMetrics op n metrics + fee op op' (t.counted n role * k) := by
  unfold ofMetrics fee
  simp only [Metrics.get_add, Meter.call.injEq]
  by_cases hop : op' = op
  · subst hop
    cases role <;> simp [counted, mul_add] <;> abel
  · simp [hop, Ne.symm hop]

theorem ofMetrics_add_other (n : ServiceId) (metrics : Metrics) (meter : Meter)
    (h : ∀ op role, meter ≠ .call op role) (k : UInt64) :
    t.ofMetrics op n (metrics.add meter k) = t.ofMetrics op n metrics := by
  unfold ofMetrics
  simp only [Metrics.get_add, if_neg (h _ _).symm]

theorem ofMetrics_enter (n : ServiceId) (metrics : Metrics) (op' : Operation) (hop : UInt32) :
    t.ofMetrics op n (metrics.enter op' hop) = t.ofMetrics op n metrics +
      fee op op' (t.issued n + if hop = 0 then 0 else t.received) := by
  unfold Metrics.enter
  dsimp only
  split
  · rw [ofMetrics_add, counted, add_zero]
    simp
  · rw [ofMetrics_add, ofMetrics_add, counted, counted, add_assoc, ← fee_add]
    simp

section Services

variable (n : ServiceId) (s : Service) (m : Moment)

theorem ofMetrics_accept (action : Action) (hop : UInt32) :
    t.ofMetrics op n (s.accept m action hop).metrics = t.ofMetrics op n s.metrics +
      fee op action.operation (t.issued n + if hop = 0 then 0 else t.received) := by
  have hmetrics : (s.accept m action hop).metrics = s.metrics.enter action.operation hop := by
    unfold Service.accept
    split
    · split <;> rfl
    · rfl
  rw [hmetrics, ofMetrics_enter]

theorem ofMetrics_serve (action : Action) : t.ofMetrics op n (s.serve m action).2.metrics =
    t.ofMetrics op n s.metrics + fee op action.operation (t.served n) := by
  have hserved : t.ofMetrics op n (s.count (.call action.operation .served) 1).metrics =
      t.ofMetrics op n s.metrics + fee op action.operation (t.served n) := by
    rw [Service.count, ofMetrics_add]
    simp [counted]
  cases action with
  | lookup grain =>
    unfold Service.serve
    dsimp only
    split
    · exact (ofMetrics_add_other n _ .localLookupSuccesses (fun _ _ => nofun) 1).trans hserved
    · exact hserved
  | _ => exact hserved

theorem ofMetrics_dispatched (action : Action) : t.ofMetrics op n (s.dispatched m action).metrics =
    t.ofMetrics op n s.metrics + fee op action.operation (t.sent n) := by
  have hmetrics : (s.dispatched m action).metrics = (s.count (.call action.operation .sent) 1).metrics := by
    cases action <;> rfl
  rw [hmetrics, Service.count, ofMetrics_add]
  simp [counted]

theorem metrics_learn (action : Action) (reply : Reply) :
    (s.learn m action reply).metrics = s.metrics := by
  unfold Service.learn
  split
  · split <;> rfl
  · split
    · split <;> rfl
    · rfl
  · rfl

/-- Where it costs nothing to serve an address of a batch, it costs nothing to serve all. -/
theorem ofMetrics_removeAllHere (hserved : fee op .unregisterMany (t.served n) = 0)
    (cause : RemovalCause) (addresses : List GrainAddress) :
    t.ofMetrics op n (s.removeAllHere m cause addresses).metrics = t.ofMetrics op n s.metrics := by
  unfold Service.removeAllHere
  induction addresses generalizing s with
  | nil => rfl
  | cons address rest ih =>
    rw [List.foldl_cons, ih]
    show t.ofMetrics op n (s.metrics.add (.call .unregisterMany .served) 1) = _
    rw [ofMetrics_add, counted, mul_one, hserved, add_zero]

end Services

section Clusters

variable {c c' : Cluster} {notes : List Mishap} {i : ServiceId}

/-- What a service does costs what its counts come to cost more. -/
theorem balance_adjust (hi : i < c.services.length) {f : Service → Service} {left k : UInt64}
    (h : t.ofMetrics op i (f (c.service i)).metrics + left =
      t.ofMetrics op i (c.service i).metrics + k) :
    t.balance op (c.adjust i f, notes) + left = t.balance op (c, notes) + k := by
  have hmem : i ∈ Finset.range c.services.length := Finset.mem_range.mpr hi
  have hothers : ∑ n ∈ (Finset.range c.services.length).erase i,
        t.ofMetrics op n ((c.adjust i f).service n).metrics =
      ∑ n ∈ (Finset.range c.services.length).erase i, t.ofMetrics op n (c.service n).metrics := by
    refine Finset.sum_congr rfl fun n hn => ?_
    rw [Cluster.service_adjust_of_ne c (Finset.ne_of_mem_erase hn).symm]
  unfold balance
  dsimp only
  rw [Cluster.length_adjust, ← Finset.add_sum_erase _ _ hmem, ← Finset.add_sum_erase _ _ hmem, hothers,
    Cluster.service_adjust_self hi]
  have hcalls : (c.adjust i f).calls = c.calls := rfl
  rw [hcalls]
  grind

theorem balance_of_metrics {f : Service → Service}
    (h : (f (c.service i)).metrics = (c.service i).metrics) :
    t.balance op (c.adjust i f, notes) = t.balance op (c, notes) := by
  have hmetrics (n : ServiceId) : ((c.adjust i f).service n).metrics = (c.service n).metrics := by
    rw [Cluster.service_adjust]
    split
    · rename_i hin
      rw [← hin.1, h]
    · rfl
  have hcalls : (c.adjust i f).calls = c.calls := rfl
  simp only [balance, Cluster.length_adjust, hmetrics, hcalls]

theorem balance_of_services (hservices : c'.services = c.services) (hcalls : c'.calls = c.calls) :
    t.balance op (c', notes) = t.balance op (c, notes) := by
  unfold balance Cluster.service
  dsimp only
  rw [hservices, hcalls]

theorem balance_log (target : Silo) (request : Request) :
    t.balance op (c.log target request, notes) =
      t.balance op (c, notes) + fee op request.operation t.logged := by
  have hcalls : ((c.log target request).calls.map (t.ofCall op)).sum =
      (c.calls.map (t.ofCall op)).sum + fee op request.operation t.logged := by
    show ((c.calls ++ [_]).map _).sum = _
    rw [List.map_append, List.sum_append, List.map_singleton, List.sum_singleton]
    rfl
  unfold balance
  dsimp only
  rw [hcalls]
  have hservices : (c.log target request).services = c.services := rfl
  have hservice (n : ServiceId) : (c.log target request).service n = c.service n := rfl
  simp only [hservices, hservice]
  abel

theorem balance_note (entry : Mishap) :
    t.balance op (c, notes ++ [entry]) = t.balance op (c, notes) + t.ofMishap op entry := by
  unfold balance
  rw [List.map_append, List.sum_append, List.map_singleton, List.sum_singleton]
  exact (add_assoc _ _ _).symm

end Clusters

end Tariff

/-! ## What calls cost -/

namespace Minuted

/-- What a call that waits relies on the others for, whatever the minutes say. -/
def Later (s s' : Minuted) : Prop := Cluster.Later s.1 s'.1

instance : IsPreorder Minuted Later where
  refl s := refl_of Cluster.Later s.1
  trans _ _ _ h h' := trans_of Cluster.Later h h'

/-- Nothing is left to pay. -/
abbrev Paid {α : Type} (_ : α) (_ : Minuted) (left : UInt64) : Prop := left = 0

end Minuted

theorem hop_add_one_ne_zero {hop limit : UInt32} (h : hop < limit) : hop + 1 ≠ 0 := by
  intro hzero
  have hnat := toNat_hop_add_one h
  rw [hzero] at hnat
  exact absurd hnat.symm (Nat.succ_ne_zero _)

/-- An action that is ready to be forwarded is counted as sent; only lookups may be given up. -/
theorem Service.dispatch_cases (s : Service) (m : Moment) (action : Action) (owner : Silo) :
    s.dispatch m action owner = .ok (s.dispatched m action) ∨
      action.operation = .lookup ∧ ∃ e, s.dispatch m action owner = .error e := by
  cases action with
  | lookup grain =>
    unfold Service.dispatch
    dsimp only
    split
    · exact .inl rfl
    · exact .inr ⟨rfl, _, rfl⟩
  | _ => exact .inl rfl

namespace Tariff

open Minuted (Later Paid)

/-- Whether something that is carried out under watch costs so much, and what is left to pay of that in the
end is as `Q` says. -/
abbrev Costs (t : Tariff) (op : Operation) {α : Type} (p : Activity Cluster α)
    (Q : α → Minuted → UInt64 → Prop) (s : Minuted) (k : UInt64) : Prop :=
  p.withNotes.Contributes Later (t.balance op) t.Prompt Q s k

variable {α β : Type} {t : Tariff} {op : Operation} {s : Minuted} {k : UInt64} {i : ServiceId}

theorem costs_pure {a : α} {Q : α → Minuted → UInt64 → Prop} (h : Q a s k) : t.Costs op (pure a) Q s k := h

theorem costs_look {Q : Cluster → Minuted → UInt64 → Prop} (h : Q s.1 s k) :
    t.Costs op .look Q s k := h

theorem costs_bind {p : Activity Cluster α} {f : α → Activity Cluster β}
    {Q : β → Minuted → UInt64 → Prop}
    (h : t.Costs op p (fun a s k => t.Costs op (f a) Q s k) s k) : t.Costs op (p >>= f) Q s k :=
  Activity.contributes_bind_withNotes h

theorem costs_revise (left : UInt64) (hi : i < s.1.services.length) {f : Service → Moment → Service}
    {Q : Unit → Minuted → UInt64 → Prop}
    (hcost : t.ofMetrics op i (f (s.1.service i) s.1.moment).metrics + left =
      t.ofMetrics op i (s.1.service i).metrics + k)
    (h : Q () (s.1.adjust i fun service => f service s.1.moment, s.2) left) :
    t.Costs op (Cluster.revise i f) Q s k :=
  Activity.contributes_update_withNotes left (Cluster.later_adjust s.1 i _) (balance_adjust hi hcost) h

theorem costs_change (left : UInt64) (hi : i < s.1.services.length) {f : Service → Moment → α × Service}
    {Q : α → Minuted → UInt64 → Prop}
    (hcost : t.ofMetrics op i (f (s.1.service i) s.1.moment).2.metrics + left =
      t.ofMetrics op i (s.1.service i).metrics + k)
    (h : Q (f (s.1.service i) s.1.moment).1
      (s.1.adjust i fun _ => (f (s.1.service i) s.1.moment).2, s.2) left) :
    t.Costs op (Cluster.change i f) Q s k :=
  Activity.contributes_act_withNotes left (Cluster.later_adjust s.1 i _)
    (balance_adjust (f := fun _ => _) hi hcost) h

/-- Who counts nothing costs nothing. -/
theorem costs_unmetered {f : Service → Moment → Service} {Q : Unit → Minuted → UInt64 → Prop}
    (hmetrics : (f (s.1.service i) s.1.moment).metrics = (s.1.service i).metrics)
    (h : Q () (s.1.adjust i fun service => f service s.1.moment, s.2) k) :
    t.Costs op (Cluster.revise i f) Q s k :=
  Activity.contributes_update_withNotes k (Cluster.later_adjust s.1 i _)
    (by rw [balance_of_metrics (f := fun service => f service s.1.moment) hmetrics]) h

/-- Whom something befalls pays for it. -/
theorem costs_remark (left : UInt64) {mishap : Mishap} {p : Activity Cluster α}
    {Q : α → Minuted → UInt64 → Prop} (hcost : t.ofMishap op mishap + left = k)
    (h : t.Costs op p Q (s.1, s.2 ++ [mishap]) left) : t.Costs op (.remark mishap p) Q s k :=
  Activity.contributes_remark_withNotes left (refl_of Cluster.Later s.1)
    (by rw [balance_note, add_assoc, hcost]) h

/-- What leaves the services, their wiring and the log alone costs nothing. -/
theorem costs_free {f : Cluster → Cluster} {Q : Unit → Minuted → UInt64 → Prop}
    (hservices : (f s.1).services = s.1.services) (hcalls : (f s.1).calls = s.1.calls)
    (hwiring : (f s.1).wiring = s.1.wiring) (h : Q () (f s.1, s.2) k) :
    t.Costs op (Activity.update f) Q s k :=
  Activity.contributes_update_withNotes k ⟨hwiring, Nat.le_of_eq (congrArg List.length hservices.symm)⟩
    (by rw [balance_of_services hservices hcalls]) h

theorem costs_inspect {f : Service → Moment → α} {Q : α → Minuted → UInt64 → Prop}
    (h : Q (f (s.1.service i) s.1.moment) s k) : t.Costs op (Cluster.inspect i f) Q s k := h

theorem costs_waitToRetry {Q : Unit → Minuted → UInt64 → Prop} (hprompt : t.Prompt → k = 0)
    (h : ∀ s', Later s s' → Q () s' k) : t.Costs op (Cluster.waitToRetry i) Q s k :=
  Activity.contributes_wait _ hprompt h

/-- To resolve an owner costs nothing, and others may have acted before that is settled.  Whatever is to be
forwarded then can be counted once more. -/
theorem costs_resolve {action : Action} {hop : UInt32}
    {Q : Except Error (Option Silo) → Minuted → UInt64 → Prop} (hprompt : t.Prompt → k = 0)
    (h : ∀ target s', Later s s' → (∀ owner, target = .ok (some owner) → hop + 1 ≠ 0) → Q target s' k) :
    t.Costs op (Cluster.resolve i action hop) Q s k := by
  have hview (s' : Minuted) (hs : Later s s') :
      Q ((s'.1.service i).resolver.checkForward action.grain hop action.operation.name) s' k :=
    h _ s' hs fun owner howner => hop_add_one_ne_zero (Resolver.hop_lt_of_checkForward howner)
  have hfirst := hview s (refl_of Later s)
  unfold Cluster.resolve
  refine costs_bind (costs_inspect ?_)
  split
  · split
    · exact hfirst
    · exact costs_bind (costs_waitToRetry hprompt hview)
  · exact hfirst

/-- What a call that arrives has to pay. -/
def due (t : Tariff) (op op' : Operation) (hop : UInt32) : UInt64 :=
  fee op op' (if hop = 0 then 0 else t.received)

/-- Whether a call over some ways costs what it costs that there is no way. -/
def Leads (t : Tariff) (op : Operation) (ways : Cluster.Ways) : Prop :=
  ∀ s s' target peer, s.1.wiring = .logged → Later s s' → ways s.1 target = .ok peer →
    ∀ request, request.hop ≠ 0 → t.Costs op (peer request) Paid s' (fee op request.operation t.refused)

section Handling

variable (hbalanced : t.Balanced op) {ways : Cluster.Ways} (hways : t.Leads op ways) {hop : UInt32}

include hbalanced hways

/-- To forward a call makes up for its issue. -/
theorem costs_forward {action : Action} {owner : Silo} (hwiring : s.1.wiring = .logged)
    (hi : i < s.1.services.length) (hhop : hop + 1 ≠ 0) :
    t.Costs op (Cluster.forward ways i action hop owner) Paid s
      (fee op action.operation (-t.issued i)) := by
  unfold Cluster.forward
  refine costs_bind ?_
  rcases (s.1.service i).dispatch_cases s.1.moment action owner with hdispatch | ⟨hlookup, e, hdispatch⟩
  · refine costs_change (fee op action.operation t.refused) hi ?_ ?_ <;> rw [hdispatch]
    · have hsent : t.sent i + t.refused = -t.issued i := by
        rw [← neg_eq_of_add_eq_zero_right (hbalanced.refused i), neg_add, add_neg_cancel_comm_assoc]
      rw [ofMetrics_dispatched, add_assoc, ← fee_add, hsent]
    · refine costs_bind (costs_look ?_)
      generalize hready : (s.1.adjust i fun _ => (s.1.service i).dispatched s.1.moment action, s.2) = ready
      have hlogged : ready.1.wiring = .logged := hready ▸ hwiring
      cases hway : ways ready.1 owner with
      | error e =>
        exact costs_remark 0 (add_zero _) (costs_pure rfl)
      | ok peer =>
        refine costs_bind ((hways ready ready owner peer hlogged (refl_of Later ready) hway
          (.single action (hop + 1)) hhop).mono fun reply s' left hleft => ?_)
        exact costs_bind (costs_unmetered (metrics_learn _ _ _ _)
          (costs_pure hleft))
  · refine costs_change 0 hi ?_ ?_ <;> rw [hdispatch]
    · rw [fee_neg, hbalanced.fee_issued (.inl hlookup), neg_zero]
    · exact costs_pure rfl

/-- An action on one grain pays for its issue, and for no more than what is due on arrival. -/
theorem costs_handleAction {action : Action} (hwiring : s.1.wiring = .logged)
    (hi : i < s.1.services.length) :
    t.Costs op (Cluster.handleAction ways i action hop) Paid s (t.due op action.operation hop) := by
  have hissued : t.Prompt → fee op action.operation (-t.issued i) = 0 := by
    intro hprompt
    rw [hprompt i, neg_zero, fee_zero]
  unfold Cluster.handleAction
  refine costs_bind (costs_revise (fee op action.operation (-t.issued i)) hi ?_ ?_)
  · rw [ofMetrics_accept, due, add_assoc, ← fee_add, add_neg_cancel_comm]
  -- The issue is still to be made up for when the owner is resolved, whoever has acted meanwhile.
  refine costs_bind (costs_resolve hissued fun target s' hs hnext => ?_)
  have hlater : Later s s' := trans_of Cluster.Later (Cluster.later_adjust s.1 i _) hs
  have hpresent : i < s'.1.services.length := Nat.lt_of_lt_of_le hi hlater.length
  split
  · have hlost : -t.issued i = t.lost i := neg_eq_of_add_eq_zero_right (hbalanced.lost i)
    rw [hlost]
    exact costs_remark 0 (add_zero _) (costs_pure rfl)
  · have hserved : -t.issued i = t.served i := neg_eq_of_add_eq_zero_right (hbalanced.served i)
    refine costs_bind (costs_change 0 hpresent ?_ (costs_pure rfl))
    rw [ofMetrics_serve, add_zero, hserved]
  · exact costs_forward hbalanced hways (hlater.wiring.trans hwiring) hpresent (hnext _ rfl)

omit hbalanced in
/-- To send an owner its part of a batch costs the same whether there is a way to it or not. -/
theorem costs_deliverTo {ready : Minuted} (hs : Later ready s) (hwiring : ready.1.wiring = .logged)
    (hhop : hop + 1 ≠ 0) (cause : RemovalCause) (owner : Silo) (addresses : List GrainAddress) :
    t.Costs op (Cluster.deliverTo ways ready.1 cause hop owner addresses) Paid s
      (fee op .unregisterMany t.refused) := by
  unfold Cluster.deliverTo
  split
  · exact costs_remark 0 (add_zero _) (costs_pure rfl)
  · rename_i peer hway
    exact hways ready s owner peer hwiring hs hway (.batch addresses cause (hop + 1)) hhop

/-- What it costs to count the parts of a batch as sent makes up for what it costs to send them. -/
theorem costs_deliverAway {cause : RemovalCause} {away : List (Silo × List GrainAddress)}
    (hwiring : s.1.wiring = .logged) (hi : i < s.1.services.length) (hhop : away ≠ [] → hop + 1 ≠ 0) :
    t.Costs op (Cluster.deliverAway ways i cause hop away) Paid s 0 := by
  have hsent : fee op .unregisterMany (t.sent i + t.refused) = 0 :=
    fee_eq_zero_of_add ((add_assoc _ _ _).symm.trans (hbalanced.refused i))
      (hbalanced.fee_issued (.inr rfl) i)
  unfold Cluster.deliverAway
  refine costs_bind (costs_revise
    (away.length • fee op .unregisterMany t.refused) hi ?_ ?_)
  · rw [Service.count, ofMetrics_add, counted, fee_mul, mul_ofNat, add_assoc, ← nsmul_add, ← fee_add, hsent,
      nsmul_zero]
  refine costs_bind (costs_look (costs_bind ?_))
  refine Activity.contributes_all_withNotes (by rw [List.length_map]) (fun p hp s' hs => ?_)
    fun replies s' _ => costs_pure rfl
  obtain ⟨part, hpart, rfl⟩ := List.mem_map.mp hp
  exact costs_deliverTo hways hs hwiring (hhop (List.ne_nil_of_mem hpart)) cause part.1 part.2

/-- A batch of removals pays for what is due on arrival alone. -/
theorem costs_handleBatch {addresses : List GrainAddress} {cause : RemovalCause}
    (hwiring : s.1.wiring = .logged) (hi : i < s.1.services.length) :
    t.Costs op (Cluster.handleBatch ways i addresses cause hop) Paid s
      (t.due op .unregisterMany hop) := by
  have hissued : fee op .unregisterMany (t.issued i) = 0 := hbalanced.fee_issued (.inr rfl) i
  have hlost : t.ofMishap op (.lost i .unregisterMany) = 0 :=
    fee_eq_zero_of_add (hbalanced.lost i) hissued
  have hserved : fee op .unregisterMany (t.served i) = 0 :=
    fee_eq_zero_of_add (hbalanced.served i) hissued
  have hremove {s : Minuted} (hi : i < s.1.services.length) (here : List GrainAddress)
      {Q : Unit → Minuted → UInt64 → Prop}
      (h : Q () (s.1.adjust i fun service => service.removeAllHere s.1.moment cause here, s.2) 0) :
      t.Costs op (Cluster.revise i fun service m => service.removeAllHere m cause here) Q s 0 :=
    costs_revise 0 hi (by rw [ofMetrics_removeAllHere _ _ _ hserved]) h
  have hnext {s : Minuted} {addresses : List GrainAddress} {split : Service.Split}
      (h : (s.1.service i).split hop addresses = .ok split) (haway : split.away ≠ []) : hop + 1 ≠ 0 := by
    obtain ⟨part, hpart⟩ := List.exists_mem_of_ne_nil _ haway
    exact hop_add_one_ne_zero (Cluster.hop_lt_of_mem_away h hpart)
  unfold Cluster.handleBatch
  refine costs_bind (costs_revise 0 hi ?_ ?_)
  · rw [ofMetrics_enter, fee_add, hissued, zero_add, due, add_zero]
  refine costs_bind (costs_inspect ?_)
  split
  · exact costs_remark 0 (by rw [hlost, add_zero]) (costs_pure rfl)
  · rename_i split hsplit
    have haway := hnext hsplit
    refine costs_bind (hremove (by rwa [Cluster.length_adjust]) split.here ?_)
    split
    · exact costs_deliverAway hbalanced hways hwiring
        (by rwa [Cluster.length_adjust, Cluster.length_adjust]) haway
    · refine costs_bind (costs_waitToRetry (fun _ => rfl) fun s' hs => ?_)
      have hlater : Later s s' := trans_of Cluster.Later (Cluster.later_adjust s.1 i _)
        (trans_of Cluster.Later (Cluster.later_adjust _ i _) hs)
      have hpresent : i < s'.1.services.length := Nat.lt_of_lt_of_le hi hlater.length
      refine costs_bind (costs_inspect ?_)
      split
      · exact costs_remark 0 (by rw [hlost, add_zero]) (costs_pure rfl)
      · rename_i again hagain
        refine costs_bind (hremove hpresent again.here ?_)
        exact costs_deliverAway hbalanced hways (hlater.wiring.trans hwiring)
          (by rwa [Cluster.length_adjust]) (hnext hagain)

/-- A call pays for what is due on arrival. -/
theorem costs_handle {request : Request} (hwiring : s.1.wiring = .logged)
    (hi : i < s.1.services.length) : t.Costs op (Cluster.handle ways i request) Paid s
      (t.due op request.operation request.hop) := by
  cases request with
  | single action hop => exact costs_handleAction hbalanced hways hwiring hi
  | batch addresses cause hop => exact costs_handleBatch hbalanced hways hwiring hi

end Handling

/-- To hold a service meanwhile costs nothing. -/
theorem costs_attended {p : Activity Cluster α} (h : t.Costs op p Paid (s.1.engage i, s.2) k) :
    t.Costs op (Cluster.attended i p) Paid s k := by
  refine costs_bind (costs_free rfl rfl rfl (costs_bind ?_))
  refine h.mono fun a s' left hleft => ?_
  exact costs_bind (costs_free rfl rfl rfl (costs_pure hleft))

theorem leads_noWays : t.Leads op Cluster.noWays := by
  intro s s' target peer _ _ hway
  cases hway

/-- A call over the ways of a cluster whose calls are logged is logged and received. -/
theorem leads_ways (hbalanced : t.Balanced op) {peer : ServiceId → Cluster.Peer}
    (hpeer : ∀ s i request, s.1.wiring = .logged → i < s.1.services.length →
      t.Costs op (peer i request) Paid s (t.due op request.operation request.hop)) :
    t.Leads op (Cluster.ways peer) := by
  intro s s' target way hwiring hs hway request hhop
  unfold Cluster.ways at hway
  rw [hwiring] at hway
  dsimp only at hway
  split at hway
  · rename_i j hj
    rw [← Except.ok.inj hway]
    have hdue : t.due op request.operation request.hop = fee op request.operation t.received := by
      rw [due, if_neg hhop]
    refine costs_bind (Activity.contributes_update_withNotes
      (fee op request.operation t.received) ⟨rfl, Nat.le_refl _⟩ ?_ ?_)
    · rw [balance_log, add_assoc, ← fee_add, hbalanced.carried]
    · rw [← hdue]
      exact hpeer _ j request (hs.wiring.trans hwiring)
        (Nat.lt_of_lt_of_le (Cluster.live_of_reach? hj).1 hs.length)
  · cases hway

/-- However often a call may be forwarded, it pays for what is due on arrival. -/
theorem costs_perform (hbalanced : t.Balanced op) (forwards : Nat) (i : ServiceId) (request : Request)
    (hwiring : s.1.wiring = .logged) (hi : i < s.1.services.length) :
    t.Costs op (Cluster.perform forwards i request) Paid s
      (t.due op request.operation request.hop) := by
  induction forwards generalizing s i request with
  | zero => exact costs_attended (costs_handle hbalanced leads_noWays hwiring hi)
  | succ forwards ih =>
    exact costs_attended (costs_handle hbalanced
      (leads_ways hbalanced fun s i request => ih i request) hwiring hi)

/-- Nothing is due of a call that a client makes. -/
theorem costs_call (hbalanced : t.Balanced op) {request : Request} (hhop : request.hop = 0)
    (hwiring : s.1.wiring = .logged) (hi : i < s.1.services.length) :
    t.Costs op (Cluster.call i request) Paid s 0 := by
  have hcall := costs_perform hbalanced Cluster.maxForwards i request hwiring hi
  rwa [due, if_pos hhop, fee_zero] at hcall

end Tariff

end GrainDirectory

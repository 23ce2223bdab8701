import GrainDirectory.Proofs.Housekeeping
import GrainDirectory.Proofs.Provenance
import GrainDirectory.Proofs.ReadYourWrites
import GrainDirectory.Proofs.Tariffs
set_option autoImplicit false

/-!
# Both ends of a forwarded call

In an in-process cluster whose calls are logged, clients call services, and services call each other;
rings change, silos become unreachable, and calls fail.  However the calls take turns, what is counted at
one end of a forward agrees with what is counted at the other and with the log: every logged call has been
received, every call that was sent has been logged or refused for want of a way, and at every service every
call that was issued has been served there, sent on, or lost because no owner could be resolved
(`forwards_accounted`).

Each of these says that the balance at some tariff is zero.  A balanced tariff keeps the balance where it
is: in every beat of a scene it is what those owe who have not ended yet (`Tariff.even_after`).
-/

namespace GrainDirectory

/-- Whether a command makes no call, or one of a client that has not been forwarded. -/
def Command.Fresh : Command → Prop
  | .call _ request => request.hop = 0
  | .serve .. => False
  | .unregisterNonexistent .. => False
  | _ => True

/-- A service that is built has counted nothing. -/
theorem Service.metrics_of_build {b : Blueprint} {now : Nat} {s : Service} (h : b.build now = .ok s) :
    s.metrics = {} := by
  unfold Blueprint.build at h
  split at h
  · cases h
  · split at h
    · cases h
    · split at h
      · cases h
      · cases h
        rfl

/-- Commands that do not have to wait end at once, and there is nothing to note. -/
theorem Minuted.advance_perform {command : Command} (h : ¬ command.Converses) (now : Nat) (s : Minuted) :
    Progress.advance now command.perform.withNotes s =
      (.ended (command.perform.run s.1).1, ((command.perform.run s.1).2, s.2)) := by
  cases command with
  | call => exact absurd trivial h
  | serve => exact absurd trivial h
  | unregisterNonexistent => exact absurd trivial h
  | awaitMember => exact absurd trivial h
  | _ => rfl

/-! ## Lists side by side -/

section Lists

variable {α β : Type _} {R : α → β → Prop} {xs : List α} {ys : List β}

theorem forall₂_getElem? (h : List.Forall₂ R xs ys) (i : Nat) :
    (xs[i]? = none ∧ ys[i]? = none) ∨ ∃ x y, xs[i]? = some x ∧ ys[i]? = some y ∧ R x y := by
  induction h generalizing i with
  | nil => exact .inl ⟨rfl, rfl⟩
  | cons hfirst _ ih =>
    cases i with
    | zero => exact .inr ⟨_, _, rfl, rfl, hfirst⟩
    | succ i => exact ih i

theorem forall₂_set (h : List.Forall₂ R xs ys) {x : α} {y : β} (hxy : R x y) (i : Nat) :
    List.Forall₂ R (xs.set i x) (ys.set i y) := by
  induction h generalizing i with
  | nil => exact .nil
  | cons hfirst hrest ih =>
    cases i with
    | zero => exact .cons hxy hrest
    | succ i => exact .cons hfirst (ih i)

theorem exists_mem_of_forall₂ (h : List.Forall₂ R xs ys) {x : α} (hx : x ∈ xs) : ∃ y ∈ ys, R x y := by
  induction h with
  | nil => cases hx
  | cons hfirst _ ih =>
    rcases List.mem_cons.mp hx with rfl | hrest
    · exact ⟨_, List.mem_cons_self, hfirst⟩
    · obtain ⟨y, hy, hxy⟩ := ih hrest
      exact ⟨y, List.mem_cons_of_mem _ hy, hxy⟩

theorem sum_set_add {owed : List UInt64} {index : Nat} {k : UInt64} (h : owed[index]? = some k)
    (left : UInt64) : (owed.set index left).sum + k = owed.sum + left := by
  induction owed generalizing index with
  | nil => cases h
  | cons first rest ih =>
    cases index with
    | zero =>
      cases h
      simp only [List.set_cons_zero, List.sum_cons]
      abel
    | succ index =>
      simp only [List.set_cons_succ, List.sum_cons]
      rw [add_assoc, ih h, add_assoc]

end Lists

namespace Tariff

open Minuted (Later Paid)

variable {t : Tariff} {op : Operation} (hbalanced : t.Balanced op)

/-! ## What commands cost -/

section Commands

variable {c c' : Cluster} {notes : List Mishap}

include hbalanced

/-- To tidy up costs nothing: of the calls it counts only lookups, which cost nothing to serve. -/
theorem balance_of_tidies (h : Cluster.Tidies c c') :
    t.balance op (c', notes) = t.balance op (c, notes) := by
  have hmetrics (n : ServiceId) : t.ofMetrics op n (c'.service n).metrics =
      t.ofMetrics op n (c.service n).metrics := by
    have hcounts := (h.service n).counts op
    have hserved : t.served n * (c'.service n).metrics.get (.call op .served) =
        t.served n * (c.service n).metrics.get (.call op .served) := by
      by_cases hlookup : op = .lookup
      · have hfree := hbalanced.served n
        rw [hbalanced.plain (.inl hlookup) n, zero_add] at hfree
        rw [hfree, zero_mul, zero_mul]
      · rw [hcounts .served fun heq => hlookup (Meter.call.inj heq).1]
    unfold ofMetrics
    rw [hserved, hcounts .issued nofun, hcounts .sent nofun, hcounts .received nofun]
  simp only [balance, h.length, h.calls, hmetrics]

omit hbalanced in
/-- A service that has counted no calls costs nothing. -/
theorem ofMetrics_uncounted {n : ServiceId} {metrics : Metrics}
    (h : ∀ role, metrics.get (.call op role) = 0) : t.ofMetrics op n metrics = 0 := by
  simp only [ofMetrics, h, mul_zero, add_zero]

omit hbalanced in
theorem balance_append {s : Service} (h : ∀ role, s.metrics.get (.call op role) = 0) :
    t.balance op ({ c with services := c.services ++ [s] }, notes) = t.balance op (c, notes) := by
  have hold : ∑ n ∈ Finset.range c.services.length,
        t.ofMetrics op n (({ c with services := c.services ++ [s] } : Cluster).service n).metrics =
      ∑ n ∈ Finset.range c.services.length, t.ofMetrics op n (c.service n).metrics := by
    refine Finset.sum_congr rfl fun n hn => ?_
    rw [Cluster.service_append, if_neg (Nat.ne_of_lt (Finset.mem_range.mp hn))]
  unfold balance
  dsimp only
  rw [List.length_append, List.length_singleton, Finset.sum_range_succ, hold, Cluster.service_append,
    if_pos rfl, ofMetrics_uncounted h, add_zero]

omit hbalanced in
/-- Whoever waits for a silo costs nothing. -/
theorem costs_awaitMember {s : Minuted} (i : ServiceId) (silo : Silo) (patience looks interval : Nat) :
    t.Costs op (Cluster.awaitMember i silo patience looks interval) Paid s 0 := by
  have hlook (looks : Nat) (s : Minuted) :
      t.Costs op (Cluster.lookForMember i silo interval looks) Paid s 0 := by
    induction looks generalizing s with
    | zero => rfl
    | succ looks ih =>
      show t.Costs op (if (s.1.service i).resolver.isMember silo then .done true else .pause interval _)
        Paid s 0
      split
      · rfl
      · exact ⟨fun _ => rfl, fun s' _ => ih s'⟩
  have helapse (time : Nat) (s : Minuted) : t.Costs op (.update fun c => c.elapse time) Paid s 0 :=
    costs_free rfl rfl rfl rfl
  refine costs_attended (costs_bind ((hlook looks _).mono fun seen s' left hleft => ?_))
  cases hleft
  split
  · exact costs_pure rfl
  · exact costs_bind ((helapse _ s').mono fun _ _ _ hpaid => costs_pure hpaid)

end Commands

include hbalanced

/-- A client's command costs nothing. -/
theorem pays_begins {command : Command} {s : Minuted} (hwiring : s.1.wiring = .logged)
    (haddressed : s.1.Addresses command) (hfresh : command.Fresh) (now : Nat) :
    Progress.Pays Later (t.balance op) t.Prompt s 0 (Progress.advance now command.perform.withNotes s) := by
  by_cases hconverses : command.Converses
  · refine Activity.Contributes.advance now ?_
    cases command with
    | call i request =>
      have hhop : request.hop = 0 := hfresh
      have hcall := costs_call hbalanced hhop hwiring haddressed
      exact costs_bind (hcall.mono fun _ _ _ hpaid => costs_pure hpaid)
    | awaitMember i silo patience looks interval =>
      exact costs_bind ((costs_awaitMember i silo patience looks interval).mono
        fun _ _ _ hpaid => costs_pure hpaid)
    | serve => exact hfresh.elim
    | unregisterNonexistent => exact hfresh.elim
    | _ => exact hconverses.elim
  · rw [Minuted.advance_perform hconverses]
    rcases Cluster.tidies_perform hconverses with htidies | ⟨b, service, -, hbuild, hinstalled⟩
    · refine ⟨⟨htidies.wiring, Nat.le_of_eq htidies.length.symm⟩, 0, ?_, rfl⟩
      rw [balance_of_tidies hbalanced htidies]
    · have htidies := Cluster.tidies_dismiss s.1 b.label
      rw [hinstalled]
      refine ⟨⟨htidies.wiring, ?_⟩, 0, ?_, rfl⟩
      · rw [List.length_append, htidies.length]
        exact Nat.le_add_right _ _
      · rw [balance_append fun role => ?_, balance_of_tidies hbalanced htidies]
        rw [Service.metrics_of_build hbuild]
        cases op <;> cases role <;> rfl

/-! ## Scenes -/

/-- Whether calls are logged in a scene and its balance is zero, but for what those owe that have not ended
yet. -/
structure Even (t : Tariff) (op : Operation) (s : Scene) (taken : List Mishap) : Prop where
  wiring : s.cluster.wiring = .logged
  owed : ∃ owed : List UInt64, t.balance op (s.cluster, taken) + owed.sum = 0 ∧
    List.Forall₂ (fun task k => task.progress.withNotes.Owes Later (t.balance op) t.Prompt
      (s.cluster, taken) k) s.tasks owed

variable {s : Scene} {taken : List Mishap}

theorem Even.begins (h : t.Even op s taken) {command : Command}
    (haddressed : s.cluster.Addresses command) (hfresh : command.Fresh) (moment : Nat) :
    t.Even op (s.next (.begins command moment)) (s.minutes taken (.begins command moment)) := by
  obtain ⟨owed, hsum, howes⟩ := h.owed
  have hpays := pays_begins (s := (s.cluster, taken)) hbalanced h.wiring haddressed hfresh moment
  rw [Scene.advance_watched] at hpays
  obtain ⟨hlater, left, hpaid, hleft⟩ := hpays
  refine ⟨hlater.wiring.trans h.wiring, owed ++ [left], ?_,
    List.rel_append (howes.imp fun _ _ hold => hold.later hlater) (.cons hleft .nil)⟩
  rw [List.sum_append, List.sum_singleton, add_left_comm, hpaid, add_zero, add_comm, hsum]

omit hbalanced in
theorem Even.resumes (h : t.Even op s taken) (index moment : Nat) :
    t.Even op (s.next (.resumes index moment)) (s.minutes taken (.resumes index moment)) := by
  obtain ⟨owed, hsum, howes⟩ := h.owed
  rcases forall₂_getElem? howes index with ⟨hnone, -⟩ | ⟨task, k, htask, hk, howe⟩
  · rw [Scene.next_resumes_of_none hnone, Scene.minutes, hnone]
    exact h
  · have hpays := howe.resume moment
    rw [Scene.resume_watched htask] at hpays
    obtain ⟨hlater, left, hpaid, hleft⟩ := hpays
    refine ⟨hlater.wiring.trans h.wiring, owed.set index left, ?_, ?_⟩
    · have hset := sum_set_add hk left
      refine add_right_cancel (b := k) ?_
      rw [add_assoc, hset, zero_add, add_left_comm, hpaid, ← add_assoc, add_comm owed.sum, hsum, zero_add]
    · have hothers := howes.imp fun _ _ hold => hold.later hlater
      rw [Scene.next_resumes_of_some htask] at hothers hleft ⊢
      exact forall₂_set hothers hleft index

/-- Whatever clients do, a balanced tariff stays even. -/
theorem even_after {c : Cluster} (hwiring : c.wiring = .logged) (hzero : t.balance op (c, []) = 0)
    {beats : List Beat} (haddressed : c.scene.Addressed beats)
    (hfresh : ∀ command moment, .begins command moment ∈ beats → command.Fresh) :
    t.Even op (c.scene.after beats) (Scene.mishaps c beats) := by
  induction beats using List.reverseRecOn with
  | nil => exact ⟨hwiring, [], by rw [List.sum_nil, add_zero]; exact hzero, .nil⟩
  | append_singleton beats beat ih =>
    obtain ⟨hbefore, hlast⟩ := haddressed.of_concat
    have heven := ih hbefore fun command moment hmem => hfresh command moment (List.mem_append_left _ hmem)
    rw [Scene.after_concat, Scene.mishaps, Scene.minutesAfter_concat]
    cases beat with
    | begins command moment =>
      exact heven.begins hbalanced (hlast command moment rfl)
        (hfresh command moment (List.mem_append_right _ List.mem_cons_self)) moment
    | resumes index moment => exact heven.resumes index moment

omit hbalanced in
/-- Who is prompt, or has ended, owes nothing. -/
theorem Even.balance_eq_zero (h : t.Even op s taken)
    (hpaid : t.Prompt ∨ ∀ task ∈ s.tasks, task.progress.answer?.isSome) :
    t.balance op (s.cluster, taken) = 0 := by
  obtain ⟨owed, hsum, howes⟩ := h.owed
  have hnothing : owed.sum = 0 := by
    refine List.sum_eq_zero fun k hk => ?_
    obtain ⟨task, htask, howe⟩ := exists_mem_of_forall₂ howes.flip hk
    rcases hpaid with hprompt | hended
    · exact Progress.Owes.eq_zero_of_prompt hprompt howe
    · obtain ⟨a, ha⟩ := Option.isSome_iff_exists.mp (hended task htask)
      exact Progress.Owes.eq_zero_of_answer ((Progress.answer?_withNotes _).trans ha) howe
  rwa [hnothing, add_zero] at hsum

/-! ## Three tariffs -/

/-- What is logged against what is received. -/
def receipts : Tariff := { logged := 1, received := -1 }

/-- What is sent against what is logged and what is refused. -/
def dispatches : Tariff := { sent := fun _ => 1, logged := -1, refused := -1 }

/-- What a service issues against what becomes of it. -/
def fates (n : ServiceId) : Tariff where
  issued i := if i = n then 1 else 0
  served i := if i = n then -1 else 0
  sent i := if i = n then -1 else 0
  lost i := if i = n then -1 else 0

omit hbalanced

theorem balanced_receipts (op : Operation) : receipts.Balanced op where
  served _ := rfl
  lost _ := rfl
  refused _ := rfl
  carried := by decide
  plain _ _ := rfl

theorem balanced_dispatches (op : Operation) : dispatches.Balanced op where
  served _ := rfl
  lost _ := rfl
  refused _ := by
    show (0 : UInt64) + 1 + -1 = 0
    decide
  carried := by decide
  plain _ _ := rfl

/-- Of lookups some are given up, and of batches some parts are served and others sent. -/
theorem balanced_fates (n : ServiceId) {op : Operation}
    (hop : op = .register ∨ op = .unregister ∨ op = .delete) : (fates n).Balanced op where
  served i := by
    show (if i = n then _ else _) + (if i = n then _ else _) = _
    split <;> decide
  lost i := by
    show (if i = n then _ else _) + (if i = n then _ else _) = _
    split <;> decide
  refused i := by
    show (if i = n then _ else _) + (if i = n then _ else _) + 0 = _
    split <;> decide
  carried := rfl
  plain h := by rcases h with rfl | rfl <;> simp at hop

theorem sum_map_ite {α : Type} (xs : List α) (p : α → Prop) [DecidablePred p] (x : UInt64) :
    (xs.map fun a => if p a then x else 0).sum = x * UInt64.ofNat (xs.countP p) := by
  rw [mul_ofNat]
  induction xs with
  | nil => simp
  | cons first rest ih =>
    rw [List.map_cons, List.sum_cons, ih, List.countP_cons]
    by_cases hfirst : p first
    · simp only [hfirst, if_true, decide_true]
      rw [succ_nsmul, add_comm]
    · simp [hfirst]

end Tariff

/-! ## Both ends -/

namespace Cluster

/-- A count of an operation over all services. -/
def total (c : Cluster) (op : Operation) (role : Role) : UInt64 :=
  ∑ n ∈ Finset.range c.services.length, (c.service n).metrics.get (.call op role)

/-- How many calls of an operation are logged. -/
def recorded (c : Cluster) (op : Operation) : UInt64 :=
  UInt64.ofNat (c.calls.countP fun call => call.operation = op)

/-- Whether no call has been counted or logged yet. -/
structure Unused (c : Cluster) : Prop where
  calls : c.calls = []
  counts : ∀ s ∈ c.services, ∀ op role, s.metrics.get (.call op role) = 0

/-- A service that is not there has counted nothing either. -/
theorem get_of_absent {c : Cluster} {n : ServiceId} (hn : ¬ n < c.services.length) (op : Operation)
    (role : Role) : (c.service n).metrics.get (.call op role) = 0 := by
  rw [Cluster.service, List.getD_eq_default _ _ (Nat.le_of_not_lt hn)]
  cases op <;> cases role <;> rfl

theorem Unused.get_eq_zero {c : Cluster} (h : c.Unused) (n : ServiceId) (op : Operation) (role : Role) :
    (c.service n).metrics.get (.call op role) = 0 := by
  by_cases hn : n < c.services.length
  · have hservice : c.service n = c.services[n] := by simp [service, hn]
    rw [hservice]
    exact h.counts _ (List.getElem_mem hn) op role
  · exact get_of_absent hn op role

end Cluster

namespace Tariff

theorem balance_unused (t : Tariff) (op : Operation) {c : Cluster} (h : c.Unused) :
    t.balance op (c, []) = 0 := by
  have hzero : ∑ n ∈ Finset.range c.services.length, t.ofMetrics op n (c.service n).metrics = 0 :=
    Finset.sum_eq_zero fun n _ => ofMetrics_uncounted fun role => h.get_eq_zero n op role
  unfold balance
  dsimp only
  rw [hzero, h.calls]
  rfl

theorem sum_ofCall (t : Tariff) (op : Operation) (c : Cluster) :
    (c.calls.map (t.ofCall op)).sum = t.logged * c.recorded op :=
  sum_map_ite c.calls (fun call => call.operation = op) t.logged

/-- What it costs that something befalls calls, if only one thing costs something. -/
theorem sum_ofMishap (t : Tariff) (op : Operation) (befallen : Mishap) (cost : UInt64)
    (h : ∀ e, t.ofMishap op e = if e = befallen then cost else 0) (mishaps : List Mishap) :
    (mishaps.map (t.ofMishap op)).sum = cost * UInt64.ofNat (mishaps.count befallen) := by
  rw [funext h, sum_map_ite, List.count]
  congr 3

theorem balance_receipts (op : Operation) (s : Minuted) :
    receipts.balance op s = s.1.recorded op - s.1.total op .received := by
  have hmetrics (n : ServiceId) (metrics : Metrics) :
      receipts.ofMetrics op n metrics = -metrics.get (.call op .received) := by
    simp only [ofMetrics, receipts]
    grind
  have hmishaps := sum_ofMishap receipts op (.refused op) 0
    (fun e => by cases e <;> simp [ofMishap, receipts]) s.2
  simp only [balance, hmetrics, sum_ofCall, hmishaps, Finset.sum_neg_distrib]
  simp only [Cluster.total, receipts]
  grind

theorem balance_dispatches (op : Operation) (s : Minuted) :
    dispatches.balance op s =
      s.1.total op .sent - s.1.recorded op - UInt64.ofNat (s.2.count (.refused op)) := by
  have hmetrics (n : ServiceId) (metrics : Metrics) :
      dispatches.ofMetrics op n metrics = metrics.get (.call op .sent) := by
    simp only [ofMetrics, dispatches]
    grind
  have hmishaps := sum_ofMishap dispatches op (.refused op) (-1)
    (fun e => by cases e <;> simp [ofMishap, dispatches]) s.2
  simp only [balance, hmetrics, sum_ofCall, hmishaps]
  simp only [Cluster.total, dispatches]
  grind

theorem balance_fates (n : ServiceId) (op : Operation) (s : Minuted) :
    (fates n).balance op s = (s.1.service n).metrics.get (.call op .issued) -
      ((s.1.service n).metrics.get (.call op .served) + (s.1.service n).metrics.get (.call op .sent) +
      UInt64.ofNat (s.2.count (.lost n op))) := by
  have hmetrics (j : ServiceId) : (fates n).ofMetrics op j (s.1.service j).metrics = if j = n then
      (s.1.service j).metrics.get (.call op .issued) - (s.1.service j).metrics.get (.call op .served) -
        (s.1.service j).metrics.get (.call op .sent) else 0 := by
    simp only [ofMetrics, fates]
    split <;> grind
  have hmishaps := sum_ofMishap (fates n) op (.lost n op) (-1) (fun e => by
    cases e with
    | lost i operation =>
      by_cases hi : i = n <;> by_cases hop : operation = op <;> simp [ofMishap, fates, hi, hop]
    | refused operation => simp [ofMishap, fates]) s.2
  simp only [balance, hmetrics, sum_ofCall, hmishaps, Finset.sum_ite_eq', Finset.mem_range]
  have hlogged : (fates n).logged = 0 := rfl
  rw [hlogged]
  split
  · grind
  · rename_i hn
    rw [Cluster.get_of_absent hn, Cluster.get_of_absent hn, Cluster.get_of_absent hn]
    grind

end Tariff

namespace Scene

/-- Whether whatever has been begun in a scene has ended. -/
def Still (s : Scene) : Prop := ∀ task ∈ s.tasks, task.progress.answer?.isSome

/-- Both ends of every forward agree with each other and with the log.  In an in-process cluster whose calls
are logged and have not been counted yet, clients call services with hop zero, however the calls take turns,
and whatever happens to rings, ways and services meanwhile.  Then for every operation, modulo 2^64, as many
calls are counted as received, over all services, as are logged, and as are counted as sent less those that
were refused for want of a way.  At every service, as soon as nothing is under way, as many registrations,
removals and deletions are counted as issued as are counted as served and sent together with those for
which no owner could be resolved. -/
theorem forwards_accounted {c : Cluster} (hwiring : c.wiring = .logged) (hunused : c.Unused)
    {beats : List Beat} (haddressed : c.scene.Addressed beats)
    (hfresh : ∀ command moment, .begins command moment ∈ beats → command.Fresh) (op : Operation) :
    let d := (c.scene.after beats).cluster
    let mishaps := mishaps c beats
    d.total op .received = d.recorded op ∧
    d.recorded op = d.total op .sent - UInt64.ofNat (mishaps.count (.refused op)) ∧
    ((c.scene.after beats).Still → op = .register ∨ op = .unregister ∨ op = .delete → ∀ n,
      (d.service n).metrics.get (.call op .issued) =
        (d.service n).metrics.get (.call op .served) + (d.service n).metrics.get (.call op .sent) +
          UInt64.ofNat (mishaps.count (.lost n op))) := by
  have heven {t : Tariff} (hbalanced : t.Balanced op) : t.Even op (c.scene.after beats) (mishaps c beats) :=
    Tariff.even_after hbalanced hwiring (t.balance_unused op hunused) haddressed hfresh
  refine ⟨?_, ?_, fun hstill hop n => ?_⟩
  · have hzero := (heven (Tariff.balanced_receipts op)).balance_eq_zero (.inl fun _ => rfl)
    rw [Tariff.balance_receipts] at hzero
    exact (sub_eq_zero.mp hzero).symm
  · have hzero := (heven (Tariff.balanced_dispatches op)).balance_eq_zero (.inl fun _ => rfl)
    rw [Tariff.balance_dispatches, sub_right_comm] at hzero
    exact (sub_eq_zero.mp hzero).symm
  · have hzero := (heven (Tariff.balanced_fates n hop)).balance_eq_zero (.inr hstill)
    rw [Tariff.balance_fates] at hzero
    exact sub_eq_zero.mp hzero

/-- The chain, if its services forward a call once at most. -/
def oneHopChain : Cluster :=
  { Cluster.chainOfThree with
    services := Cluster.chainOfThree.services.map fun s =>
      { s with config := { s.config with hopLimit := 1 } } }

/-- A registration comes one service far, where no owner is in reach any more; another is asked for there,
and the way to the owner is gone. -/
def lostThenRefused : List Beat :=
  [.begins (.call 0 (.single (.register Cluster.chained none) 0)) 0,
    .begins (.detach (oneHopChain.service 2).home) 0,
    .begins (.call 1 (.single (.register Cluster.chained none) 0)) 0]

theorem forwards_accounted_lostThenRefused :
    oneHopChain.wiring = .logged ∧ oneHopChain.Unused ∧ oneHopChain.scene.Addressed lostThenRefused ∧
      (∀ command moment, .begins command moment ∈ lostThenRefused → command.Fresh) ∧
      (oneHopChain.scene.after lostThenRefused).Still ∧
      mishaps oneHopChain lostThenRefused = [.lost 1 .register, .refused .register] ∧
      let d := (oneHopChain.scene.after lostThenRefused).cluster
      d.recorded .register = 1 ∧ d.total .register .received = 1 ∧ d.total .register .sent = 2 ∧
      (d.service 1).metrics.get (.call .register .issued) =
        (d.service 1).metrics.get (.call .register .served) +
          (d.service 1).metrics.get (.call .register .sent) + 1 := by
  have hunused : oneHopChain.Unused := by
    have hnew : ∀ s ∈ oneHopChain.services, s.metrics = {} := by decide
    refine ⟨rfl, fun s hs op role => ?_⟩
    rw [hnew s hs]
    cases op <;> cases role <;> rfl
  have haddressed : oneHopChain.scene.Addressed lostThenRefused := by
    refine ⟨?_, ?_, ?_, trivial⟩
    all_goals
      rintro command moment ⟨⟩
      decide
  have hfresh : ∀ command moment, .begins command moment ∈ lostThenRefused → command.Fresh := by
    intro command moment hmem
    simp only [lostThenRefused, List.mem_cons, Beat.begins.injEq, List.not_mem_nil, or_false] at hmem
    obtain ⟨rfl, -⟩ | ⟨rfl, -⟩ | ⟨rfl, -⟩ := hmem
    exacts [rfl, trivial, rfl]
  have hstill : (oneHopChain.scene.after lostThenRefused).Still := List.all_eq_true.mp rfl
  have hmishaps : mishaps oneHopChain lostThenRefused = [.lost 1 .register, .refused .register] := rfl
  have hrecorded : (oneHopChain.scene.after lostThenRefused).cluster.recorded .register = 1 := rfl
  obtain ⟨hreceived, hsent, hissued⟩ := forwards_accounted rfl hunused haddressed hfresh .register
  rw [hmishaps] at hsent hissued
  refine ⟨rfl, hunused, haddressed, hfresh, hstill, hmishaps, hrecorded, hreceived.trans hrecorded, ?_,
    hissued hstill (.inl rfl) 1⟩
  exact sub_eq_iff_eq_add.mp (hsent.symm.trans hrecorded)

end Scene

end GrainDirectory

import Mathlib.Data.List.Perm.Subperm
import GrainDirectory.Proofs.AppliedOnce
import GrainDirectory.Proofs.Registrations
set_option autoImplicit false

/-!
# Batches lose and duplicate nothing

A batch of removals is split, and what is sent away is split again by services that may believe
something else.  A removal log lists which service has applied which address over the whole tree of
calls.  Every address of the batch is in the log at most once for each of its occurrences, at the
service where the removal of that address alone would have ended; all of them are, once each, if the
call succeeds.

As in `AppliedOnce`, the wait before a batch is split again takes no time, so the removals of one batch
are all made at the moment of the call.  Where an address is removed, and how often, does not depend on that.

The main statement is `batch_removed_once`.
-/

namespace GrainDirectory

theorem Books.foldl_apply (m : Moment) (cause : RemovalCause) (as : List GrainAddress) (b : Books) :
    as.foldl (fun b a => b.apply m (.unregister a cause)) b =
      ⟨b.partition.removeAll m.now cause as, b.served + UInt64.ofNat as.length⟩ := by
  induction as generalizing b with
  | nil =>
    have hzero : b.served + UInt64.ofNat 0 = b.served := UInt64.add_zero b.served
    rw [List.length_nil, hzero]
    rfl
  | cons a rest ih =>
    have hcount : b.served + 1 + UInt64.ofNat rest.length =
        b.served + UInt64.ofNat (rest.length + 1) := by
      rw [UInt64.add_assoc, UInt64.ofNat_add, UInt64.add_comm 1]
      rfl
    rw [List.foldl_cons, ih, List.length_cons, ← hcount]
    rfl

/-- A removal and the service that has applied it. -/
structure Removal where
  site : ServiceId
  address : GrainAddress

namespace Removal

/-- The addresses that a log lists. -/
def addresses (log : List Removal) : List GrainAddress := log.map (·.address)

/-- The addresses that a log lists for a service. -/
def portion (log : List Removal) (j : ServiceId) : List GrainAddress :=
  addresses (log.filter fun r => r.site = j)

@[simp] theorem addresses_append (log log' : List Removal) :
    addresses (log ++ log') = addresses log ++ addresses log' := List.map_append

/-- The books after the removals of a log. -/
def applyAll (m : Moment) (cause : RemovalCause) (log : List Removal) (b : ServiceId → Books) :
    ServiceId → Books :=
  log.foldl
    (fun b r => Function.update b r.site ((b r.site).apply m (.unregister r.address cause))) b

variable (m : Moment) (cause : RemovalCause)

theorem applyAll_append (log log' : List Removal) (b : ServiceId → Books) :
    applyAll m cause (log ++ log') b = applyAll m cause log' (applyAll m cause log b) := by
  rw [applyAll, List.foldl_append]
  rfl

/-- Of a log, each service has applied its portion. -/
theorem applyAll_eq (log : List Removal) (b : ServiceId → Books) (j : ServiceId) :
    applyAll m cause log b j =
      (portion log j).foldl (fun b a => b.apply m (.unregister a cause)) (b j) := by
  induction log generalizing b with
  | nil => rfl
  | cons r rest ih =>
    rw [applyAll, List.foldl_cons]
    refine (ih _).trans ?_
    by_cases hr : r.site = j
    · subst hr
      have hportion : portion (r :: rest) r.site = r.address :: portion rest r.site := by
        simp [portion, addresses]
      rw [hportion, List.foldl_cons, Function.update_self]
    · have hportion : portion (r :: rest) j = portion rest j := by
        simp [portion, addresses, hr]
      rw [hportion, Function.update_of_ne (Ne.symm hr)]

/-- What one service removes on its own. -/
theorem applyAll_at (i : ServiceId) (as : List GrainAddress) (b : ServiceId → Books) :
    applyAll m cause (as.map fun a => ⟨i, a⟩) b =
      Function.update b i (as.foldl (fun b a => b.apply m (.unregister a cause)) (b i)) := by
  have hportion : portion (as.map fun a => ⟨i, a⟩) i = as := by
    simp [portion, addresses, List.filter_map, Function.comp_def]
  have hothers (j : ServiceId) (hj : j ≠ i) : portion (as.map fun a => ⟨i, a⟩) j = [] := by
    simp [portion, addresses, List.filter_map, Function.comp_def, hj.symm]
  funext j
  rw [applyAll_eq]
  by_cases hj : j = i
  · subst hj
    rw [hportion, Function.update_self]
  · rw [hothers j hj, Function.update_of_ne hj]
    rfl

end Removal

namespace Cluster

/-! ## How a batch ends -/

/-- Whether a log lists removals out of some addresses where single ones would have been applied. -/
def Accounts (c : Cluster) (i : ServiceId) (cause : RemovalCause) (hop : UInt32)
    (addresses : List GrainAddress) (log : List Removal) : Prop :=
  (Removal.addresses log).Subperm addresses ∧
    ∀ r ∈ log, ∃ before, Journey c (.unregister r.address cause) i hop before r.site none

/-- Whether every one of some addresses could be removed alone. -/
def Removable (c : Cluster) (i : ServiceId) (cause : RemovalCause) (hop : UInt32)
    (addresses : List GrainAddress) : Prop :=
  ∀ a ∈ addresses, ∃ before last, Journey c (.unregister a cause) i hop before last none

/-- The ending of batches between services that reach each other directly. -/
def BatchEnding : Ending := fun c i request reply c' =>
  c.wiring ≠ .framed → ∀ addresses cause hop, request = .batch addresses cause hop →
    ∃ log, Accounts c i cause hop addresses log ∧
      c'.books .unregisterMany = Removal.applyAll c.moment cause log (c.books .unregisterMany) ∧
      (∀ o, reply = .ok o → (Removal.addresses log).Perm addresses) ∧
      (Removable c i cause hop addresses → reply = .ok .done)

theorem verdict_of_destination {s : Service} {o : Oracle} {hop : UInt32} {a : GrainAddress}
    {owner : Silo} (h : s.Resolves hop a) (howner : s.destination? hop a = some owner)
    (cause : RemovalCause) : s.verdict o (.unregister a cause) hop = .forward owner := by
  have hlookup : (Action.unregister a cause).operation ≠ .lookup := nofun
  refine Service.forward_of_checkForward hlookup ?_
  rw [Service.Resolves, howner] at h
  exact Service.checkForward_transfer rfl h

theorem verdict_of_no_destination {s : Service} {o : Oracle} {hop : UInt32} {a : GrainAddress}
    (h : s.Resolves hop a) (hnone : s.destination? hop a = none) (cause : RemovalCause) :
    s.verdict o (.unregister a cause) hop = .serve := by
  rw [Service.Resolves, hnone] at h
  exact Service.serve_iff_answers.mpr (Service.answers_of_checkForward h)

theorem refuse_of_checkForward {s : Service} {o : Oracle} {hop : UInt32} {a : GrainAddress}
    {e : Error}
    (h : s.resolver.checkForward a.grain hop Operation.unregisterMany.name = .error e)
    (cause : RemovalCause) : ∃ e', s.verdict o (.unregister a cause) hop = .refuse e' := by
  cases hverdict : s.verdict o (.unregister a cause) hop with
  | refuse e' => exact ⟨e', rfl⟩
  | serve =>
    obtain ⟨target, howner, hid⟩ := Service.serve_iff_answers.mp hverdict
    cases h.symm.trans (Service.serve_of_owner Operation.unregisterMany.name hop howner hid)
  | forward owner =>
    have hcheck := Service.checkForward_of_forward hverdict
    cases h.symm.trans (Service.checkForward_transfer rfl hcheck)

theorem reach?_eq_of_id_eq (c : Cluster) {silo silo' : Silo} (h : silo.id = silo'.id) :
    c.reach? silo = c.reach? silo' := by
  rw [reach?, reach?, h]

/-- Several removals end well together if each does. -/
theorem joinReplies_cons_ok {reply : Reply} {replies : List Reply} {o : Outcome}
    (h : joinReplies (reply :: replies) = .ok o) :
    (∃ o', reply = .ok o') ∧ joinReplies replies = .ok o := by
  cases reply with
  | error e => cases h
  | ok o' => exact ⟨⟨o', rfl⟩, h⟩

/-- Who could be removed alone from a service that forwards it could be from where it is forwarded. -/
theorem Removable.onward {c c' : Cluster} {i j : ServiceId} {cause : RemovalCause} {hop : UInt32}
    {owner : Silo} {batch : List GrainAddress}
    (hbound : ∀ a ∈ batch, ∃ o, o.id = owner.id ∧
      (c.service i).verdict c.oracle (.unregister a cause) hop = .forward o)
    (hj : c.reach? owner = some j) (hagrees : Agrees c c')
    (h : Removable c i cause hop batch) : Removable c' j cause (hop + 1) batch := by
  intro a ha
  obtain ⟨o, ho, hverdict⟩ := hbound a ha
  obtain ⟨before, last, hjourney⟩ := h a ha
  obtain ⟨k, rest, hk, hrest⟩ := hjourney.of_forward hverdict
  rw [reach?_eq_of_id_eq c ho, hj] at hk
  cases hk
  exact ⟨rest, last, hrest.congr hagrees⟩

/-- Who could be removed alone from a service that forwards it can be reached from there. -/
theorem Removable.reach?_ne_none {c : Cluster} {i : ServiceId} {cause : RemovalCause} {hop : UInt32}
    {owner : Silo} {batch : List GrainAddress} (hne : batch ≠ [])
    (hbound : ∀ a ∈ batch, ∃ o, o.id = owner.id ∧
      (c.service i).verdict c.oracle (.unregister a cause) hop = .forward o)
    (h : Removable c i cause hop batch) : c.reach? owner ≠ none := by
  obtain ⟨a, ha⟩ := List.exists_mem_of_ne_nil batch hne
  obtain ⟨o, ho, hverdict⟩ := hbound a ha
  obtain ⟨before, last, hjourney⟩ := h a ha
  obtain ⟨k, rest, hk, -⟩ := hjourney.of_forward hverdict
  rw [reach?_eq_of_id_eq c ho] at hk
  rw [hk]
  exact Option.some_ne_none k

/-- What is sent away ends as it would one by one. -/
theorem exists_log_of_sentAll {d d' : Cluster} {cause : RemovalCause} {hop : UInt32}
    {away : List (Silo × List GrainAddress)} {replies : List Reply}
    (h : SentAll BatchEnding cause hop d away replies d') {c : Cluster} {i : ServiceId}
    (hkeep : d.outline = c.outline) (hwiring : c.wiring ≠ .framed)
    (hne : ∀ owner batch, (owner, batch) ∈ away → batch ≠ [])
    (hbound : ∀ owner batch, (owner, batch) ∈ away → ∀ a ∈ batch, ∃ o, o.id = owner.id ∧
      (c.service i).verdict c.oracle (.unregister a cause) hop = .forward o) :
    ∃ log, Accounts c i cause hop (away.flatMap (·.2)) log ∧
      d'.books .unregisterMany = Removal.applyAll c.moment cause log (d.books .unregisterMany) ∧
      (∀ o, joinReplies replies = .ok o →
        (Removal.addresses log).Perm (away.flatMap (·.2))) ∧
      (Removable c i cause hop (away.flatMap (·.2)) → joinReplies replies = .ok .done) := by
  induction h with
  | nil d =>
    exact ⟨[], ⟨List.Subperm.refl _, fun _ h => nomatch h⟩, rfl, fun _ _ => .refl _, fun _ => rfl⟩
  | @cons d d₁ d₂ owner batch rest reply replies hstep hfirst _ ih =>
    obtain ⟨restLog, ⟨hsub, hsites⟩, hbooks, hperm, hdone⟩ := ih (hstep.trans hkeep)
      (fun o b hb => hne o b (List.mem_cons_of_mem _ hb))
      (fun o b hb => hbound o b (List.mem_cons_of_mem _ hb))
    have hboundFirst := hbound owner batch List.mem_cons_self
    have hsplit (h : Removable c i cause hop (((owner, batch) :: rest).flatMap (·.2))) :
        Removable c i cause hop batch ∧ Removable c i cause hop (rest.flatMap (·.2)) := by
      rw [List.flatMap_cons] at h
      exact ⟨fun a ha => h a (List.mem_append_left _ ha),
        fun a ha => h a (List.mem_append_right _ ha)⟩
    have hwiring' : d.wiring ≠ .framed := by
      rw [wiring_eq_of_outline hkeep]
      exact hwiring
    rcases hfirst.of_ne_framed hwiring' with ⟨hnone, rfl, rfl⟩ | ⟨j, e, hj, rfl, hend⟩
    · -- Nothing of a batch that reaches nobody is applied.
      refine ⟨restLog, ⟨?_, hsites⟩, hbooks, fun o ho => ?_, fun hall => ?_⟩
      · rw [List.flatMap_cons]
        exact hsub.trans (List.sublist_append_right _ _).subperm
      · cases ho
      · rw [reach?_eq_of_outline hkeep] at hnone
        exact absurd hnone ((hsplit hall).1.reach?_ne_none (hne owner batch List.mem_cons_self)
          hboundFirst)
    · have hagrees := (Agrees.of_outline hkeep).trans
        (Agrees.arrived hj (.batch batch cause (hop + 1)))
      have hwiring'' : (d.noted owner (.batch batch cause (hop + 1))).wiring ≠ .framed := by
        rw [wiring_noted]
        exact hwiring'
      obtain ⟨log, ⟨hsubFirst, hsitesFirst⟩, hbooksFirst, hpermFirst, hdoneFirst⟩ :=
        hend hwiring'' batch cause (hop + 1) rfl
      rw [reach?_eq_of_outline hkeep] at hj
      have hmoment : ((d.noted owner (.batch batch cause (hop + 1))).engage j).moment = c.moment :=
        (moment_noted _ _).trans (moment_eq_of_outline hkeep)
      have hstart : ((d.noted owner (.batch batch cause (hop + 1))).engage j).books
          .unregisterMany = d.books .unregisterMany := books_noted _ _ _
      refine ⟨log ++ restLog, ⟨?_, fun r hr => ?_⟩, ?_, fun o ho => ?_, fun hall => ?_⟩
      · rw [Removal.addresses_append, List.flatMap_cons]
        exact hsubFirst.append hsub
      · rcases List.mem_append.mp hr with hr | hr
        · obtain ⟨before, hjourney⟩ := hsitesFirst r hr
          have hmem : r.address ∈ batch := hsubFirst.subset (List.mem_map_of_mem hr)
          obtain ⟨o, ho, hverdict⟩ := hboundFirst r.address hmem
          rw [← reach?_eq_of_id_eq c ho] at hj
          exact ⟨i :: before, .onward hverdict hj (hjourney.congr hagrees.symm)⟩
        · exact hsites r hr
      · rw [hbooks, Removal.applyAll_append, books_disengage, hbooksFirst, hstart, hmoment]
      · obtain ⟨⟨o', ho'⟩, hrest⟩ := joinReplies_cons_ok ho
        rw [Removal.addresses_append, List.flatMap_cons]
        exact (hpermFirst o' ho').append (hperm o hrest)
      · obtain ⟨hfirst, hrest⟩ := hsplit hall
        rw [hdoneFirst (hfirst.onward hboundFirst hj hagrees)]
        exact hdone hrest

/-- Every batch ends with a log. -/
theorem attended_batch : Attended BatchEnding where
  refused := by
    intro c i action hop e _ _ _ addresses cause hop' heq
    cases heq
  served := by
    intro c i action hop _ _ _ addresses cause hop' heq
    cases heq
  forwarded := by
    intro c i action hop owner reply c' _ _ _ _ _ addresses cause hop' heq
    cases heq
  batchRefused := by
    intro c i addresses cause hop e _ hsplit _ addresses' cause' hop' heq
    cases heq
    refine ⟨[], ⟨List.nil_subperm, (fun _ h => nomatch h)⟩, books_entered _ _,
      (fun _ h => nomatch h), fun hall => ?_⟩
    obtain ⟨a, ha, hcheck⟩ := Service.exists_of_split_error hsplit
    obtain ⟨before, last, hjourney⟩ := hall a ha
    obtain ⟨e', hverdict⟩ := refuse_of_checkForward hcheck cause
    exact absurd hverdict hjourney.not_refused
  batchSplit := by
    intro c i addresses cause hop split replies c' hi hsplit hsent hwiring addresses' cause' hop' heq
    cases heq
    have hentered : (c.entered i hop).outline = c.outline := outline_entered hop
    have hkeep : ((c.entered i hop).apportioned i cause split).outline = c.outline :=
      (outline_apportioned cause split).trans hentered
    have hi' : i < (c.entered i hop).services.length := by
      rw [length_eq_of_outline hentered]
      exact hi.1
    have hbound (owner : Silo) (batch : List GrainAddress) (hb : (owner, batch) ∈ split.away)
        (a : GrainAddress) (ha : a ∈ batch) : ∃ o, o.id = owner.id ∧
          (c.service i).verdict c.oracle (.unregister a cause) hop = .forward o := by
      obtain ⟨hmem, o, ho, hid⟩ := Service.destination?_of_mem_away hsplit hb ha
      exact ⟨o, hid, verdict_of_destination (Service.resolves_of_split hsplit a hmem) ho cause⟩
    have hne (owner : Silo) (batch : List GrainAddress) (hb : (owner, batch) ∈ split.away) :
        batch ≠ [] := by
      obtain ⟨a, ha, -⟩ := Service.exists_mem_of_mem_away hsplit hb
      exact List.ne_nil_of_mem ha
    obtain ⟨log, ⟨hsub, hsites⟩, hbooks, hperm, hdone⟩ :=
      exists_log_of_sentAll hsent hkeep hwiring hne hbound
    have hall := Service.perm_split hsplit
    have hhere : Removal.addresses (split.here.map fun a => ⟨i, a⟩) = split.here := by
      simp [Removal.addresses, Function.comp_def]
    refine ⟨(split.here.map fun a => ⟨i, a⟩) ++ log, ⟨?_, fun r hr => ?_⟩, ?_, fun o ho => ?_,
      fun hremovable => hdone fun a ha => ?_⟩
    · rw [Removal.addresses_append, hhere]
      exact ((List.Subperm.refl split.here).append hsub).trans hall.subperm
    · rcases List.mem_append.mp hr with hr | hr
      · obtain ⟨a, ha, rfl⟩ := List.mem_map.mp hr
        obtain ⟨hmem, hnone⟩ := (Service.mem_here hsplit).mp ha
        exact ⟨[], .served (verdict_of_no_destination
          (Service.resolves_of_split hsplit a hmem) hnone cause)⟩
      · exact hsites r hr
    · rw [hbooks, Removal.applyAll_append, Removal.applyAll_at, books_apportioned hi',
        books_entered]
      rfl
    · rw [Removal.addresses_append, hhere]
      exact ((hperm o ho).append_left split.here).trans hall
    · exact hremovable a (hall.subset (List.mem_append_right _ ha))

/-- How a call of a batch ends: with a log. -/
theorem call_batch {c : Cluster} (hwiring : c.wiring ≠ .framed) {i : ServiceId}
    (hi : i < c.services.length) (addresses : List GrainAddress) (cause : RemovalCause)
    (hop : UInt32) :
    ∃ log, Accounts (c.engage i) i cause hop addresses log ∧
      ((call i (.batch addresses cause hop)).run c).2.books .unregisterMany =
        Removal.applyAll c.moment cause log (c.books .unregisterMany) ∧
      (∀ o, ((call i (.batch addresses cause hop)).run c).1 = .ok o →
        (Removal.addresses log).Perm addresses) ∧
      (Removable (c.engage i) i cause hop addresses →
        ((call i (.batch addresses cause hop)).run c).1 = .ok .done) := by
  obtain ⟨reply, c', hrun, -, hend⟩ := attended_batch.call hi (.batch addresses cause hop)
  obtain ⟨log, haccounts, hbooks, hperm, hdone⟩ := hend hwiring addresses cause hop rfl
  rw [hrun]
  exact ⟨log, haccounts, hbooks, hperm, hdone⟩

/-! ## Each occurrence once -/

/-- Whether a call of an action at a service succeeds and is applied by a certain service alone. -/
def AppliesAt (c : Cluster) (i : ServiceId) (action : Action) (hop : UInt32) (site : ServiceId) :
    Prop :=
  (∃ outcome, ((call i (.single action hop)).run c).1 = .ok outcome) ∧
    ∀ j, (((call i (.single action hop)).run c).2.service j).metrics.get
        (.call action.operation .served) =
      (c.service j).metrics.get (.call action.operation .served) + if j = site then 1 else 0

/-- An action is applied where its journey ends. -/
theorem appliesAt_of_journey {c : Cluster} (hwiring : c.wiring ≠ .framed) {i : ServiceId}
    (hi : i < c.services.length) {action : Action} {hop : UInt32} {before : List ServiceId}
    {site : ServiceId} (h : Journey (c.engage i) action i hop before site none) :
    AppliesAt c i action hop site := by
  obtain ⟨before', last, failure, hjourney, hconcluded⟩ := call_action hwiring hi action hop
  obtain ⟨rfl, rfl, rfl⟩ := h.unique hjourney
  obtain ⟨hreply, hbooks⟩ := hconcluded
  refine ⟨⟨_, hreply⟩, fun j => ?_⟩
  have hserved := congrArg Books.served (congrFun hbooks j)
  by_cases hj : j = last
  · subst hj
    rw [Function.update_self] at hserved
    rw [if_pos rfl]
    exact hserved
  · rw [Function.update_of_ne hj] at hserved
    rw [if_neg hj, UInt64.add_zero]
    exact hserved

/-- What a call of a batch has applied, and where. -/
structure RemovedOnce (c : Cluster) (i : ServiceId) (addresses : List GrainAddress)
    (cause : RemovalCause) (hop : UInt32) (reply : Reply) (c' : Cluster) (log : List Removal) :
    Prop where
  /-- Every service has removed its portion of the log, and nothing else. -/
  removed : ∀ j, (c'.service j).partition =
    (c.service j).partition.removeAll c.clock cause (Removal.portion log j)
  served : ∀ j, (c'.service j).metrics.get (.call .unregisterMany .served) =
    (c.service j).metrics.get (.call .unregisterMany .served) +
      UInt64.ofNat (Removal.portion log j).length
  /-- A removal of the log was applied where the removal of its address alone would have been. -/
  sites : ∀ r ∈ log, AppliesAt c i (.unregister r.address cause) hop r.site
  /-- A call that succeeds has applied each occurrence of an address once. -/
  succeeded : ∀ o, reply = .ok o → (Removal.addresses log).Perm addresses
  /-- A call that fails has applied each occurrence of an address at most once. -/
  failed : ∀ e, reply = .error e → (Removal.addresses log).Subperm addresses

/-- A batch of removals loses and duplicates nothing, whatever the services of a cluster believe. -/
theorem batch_removed_once {c : Cluster} (hwiring : c.wiring ≠ .framed) {i : ServiceId}
    (hi : i < c.services.length) (addresses : List GrainAddress) (cause : RemovalCause)
    (hop : UInt32) :
    ∃ log, RemovedOnce c i addresses cause hop ((call i (.batch addresses cause hop)).run c).1
      ((call i (.batch addresses cause hop)).run c).2 log := by
  obtain ⟨log, ⟨hsub, hsites⟩, hbooks, hperm, -⟩ := call_batch hwiring hi addresses cause hop
  have hportion (j : ServiceId) := congrFun hbooks j
  simp only [Removal.applyAll_eq, Books.foldl_apply] at hportion
  refine ⟨log, ?_, ?_, ?_, hperm, fun _ _ => hsub⟩
  · exact fun j => congrArg Books.partition (hportion j)
  · exact fun j => congrArg Books.served (hportion j)
  · intro r hr
    obtain ⟨before, hjourney⟩ := hsites r hr
    exact appliesAt_of_journey hwiring hi hjourney

theorem batch_removed_once_mutualOwners :
    mutualOwners.wiring ≠ .framed ∧ 0 < mutualOwners.services.length ∧
      ∃ log, RemovedOnce mutualOwners 0 [default, default] .force 0
        ((call 0 (.batch [default, default] .force 0)).run mutualOwners).1
        ((call 0 (.batch [default, default] .force 0)).run mutualOwners).2 log :=
  ⟨by decide, by decide, batch_removed_once (by decide) (by decide) _ .force 0⟩

end Cluster

end GrainDirectory

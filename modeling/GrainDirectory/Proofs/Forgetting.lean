import GrainDirectory.Proofs.FastPath
import GrainDirectory.Proofs.OneDirectory
import GrainDirectory.Proofs.Practice
import GrainDirectory.Proofs.ReadYourWrites
set_option autoImplicit false

/-!
# What a remover still believes

Right after a service has had an activation removed, does it still answer, without asking the owner, that
the activation is there?  After a single removal or a deletion it does not, wherever the grain belongs: its
cache stores nothing of the grain any more (`Service.Oblivious`), and if it owns the grain itself, then the
activation is not registered.

After a batch it may.  A batch touches the cache only where an activation is removed from the own
partition, so what the cache says of grains of others stays.  `Forgets.unregisteredMany` says what is left
of the cache, and that nothing else is answered.
-/

namespace GrainDirectory

/-! ## One service -/

namespace Service

/-- Whether the cache of a service stores nothing of a grain, seen or not. -/
def Oblivious (s : Service) (id : GrainId) : Prop := s.cache.entries.find? id = none

section Steps

variable {s t : Service} {id : GrainId}

theorem Oblivious.fades (h : s.Oblivious id) (hfades : s.Fades t) : t.Oblivious id := by
  refine Option.eq_none_iff_forall_ne_some.mpr fun e he => ?_
  exact nomatch (show _ = none from h).symm.trans (hfades.cache id e he)

theorem Oblivious.not_trusted {g : Grain} (h : s.Oblivious g.id) (m : Moment) :
    s.trustedEntry? m g = none :=
  Option.eq_none_iff_forall_ne_some.mpr fun _ he =>
    nomatch (show _ = none from h).symm.trans (s.stored_of_trusted m he)

variable (s) (m : Moment)

/-- Who asks for a removal forgets the grain first. -/
theorem oblivious_accept_unregister (address : GrainAddress) (cause : RemovalCause) :
    (s.accept m (.unregister address cause) 0).Oblivious address.grain.id :=
  s.cache.stored_remove m.now address.grain.id

theorem oblivious_serve_delete (g : Grain) : (s.serve m (.delete g)).2.Oblivious g.id :=
  s.cache.stored_remove m.now g.id

theorem oblivious_dispatched_delete (g : Grain) : (s.dispatched m (.delete g)).Oblivious g.id :=
  s.cache.stored_remove m.now g.id

end Steps

/-! ### What fades -/

section Fading

variable {s t : Service} (hfades : s.Fades t) (hkeep : t.outline = s.outline)

include hfades hkeep

/-- What a service still sees it has seen before. -/
theorem find?_of_fades {now : Nat} {id : GrainId} {e : CacheEntry}
    (h : t.cache.find? now id = some e) : s.cache.find? now id = some e := by
  rw [Cache.find?_eq_some_iff] at h ⊢
  exact ⟨hfades.cache id e h.1, (fresh_iff_of_outline hkeep now e).mp h.2⟩

theorem trustedEntry?_of_fades {m : Moment} {g : Grain} {e : CacheEntry}
    (h : t.trustedEntry? m g = some e) : s.trustedEntry? m g = some e := by
  obtain ⟨hsees, htrusts⟩ := Option.filter_eq_some_iff.mp h
  have hhome : t.outline.home = s.outline.home := by rw [hkeep]
  refine Option.filter_eq_some_iff.mpr ⟨find?_of_fades hfades hkeep hsees, decide_eq_true ?_⟩
  exact (of_decide_eq_true htrusts).imp_left fun hid => hid.trans (congrArg Silo.id hhome)

theorem believes_of_fades {now : Nat} {address : GrainAddress}
    (h : t.cache.Believes now address) : s.cache.Believes now address := by
  obtain ⟨e, he, hmatches⟩ := h
  exact ⟨e, find?_of_fades hfades hkeep he, hmatches⟩

end Fading

/-! ### Batches -/

section Batches

variable {s : Service} (m : Moment) {address : GrainAddress} {r : Registration}

/-- Once an activation is removed from the own partition, the cache does not tell of it any more. -/
theorem not_believes_removeHere {a : GrainAddress} (hsame : a.Matches address)
    (hr : s.partition.registration? address.grain.id = some r)
    (hactivation : r.address.activation = address.activation) :
    ¬ (s.removeHere m .force a).cache.Believes m.now address := by
  have hremoved : (s.partition.removeActivation m.now a.grain a.activation .force).1 = true := by
    have htaken : r.address.activation = a.activation ∧ s.partition.Removable m.now r .force :=
      ⟨hactivation.trans hsame.2.symm, trivial⟩
    rw [Partition.removeActivation, hsame.1, hr]
    dsimp only
    rw [if_pos htaken]
  have hcache : (s.removeHere m .force a).cache = s.cache.removeAddress m.now a := if_pos hremoved
  rw [hcache]
  rintro ⟨e, he, hmatches⟩
  rw [Option.mem_def, Cache.find?_removeAddress] at he
  split at he
  · cases he
  · rename_i hkept
    have hsees : e ∈ s.cache.find? m.now a.grain.id := hsame.1.symm ▸ he
    exact hkept ⟨hsame.1.symm, e, hsees, hmatches.1.trans hsame.1.symm, hmatches.2.trans hsame.2.symm⟩

/-- Nor after any removals one of which is of this activation. -/
theorem not_believes_removeAllHere {addresses : List GrainAddress} (hin : address ∈ addresses)
    (hr : s.partition.registration? address.grain.id = some r)
    (hactivation : r.address.activation = address.activation) :
    ¬ (s.removeAllHere m .force addresses).cache.Believes m.now address := by
  induction addresses generalizing s with
  | nil => cases hin
  | cons a rest ih =>
    by_cases hsame : a.Matches address
    · exact fun hbelieves => not_believes_removeHere m hsame hr hactivation
        (believes_of_fades (fades_removeAllHere _ m .force rest)
          (outline_removeAllHere _ m .force rest) hbelieves)
    · have hrest : address ∈ rest := by
        rcases List.mem_cons.mp hin with rfl | hrest
        · exact absurd (.refl _) hsame
        · exact hrest
      refine ih hrest ?_
      have hkept : ¬ s.partition.Takes m.now .force a r := fun htakes =>
        hsame ⟨htakes.1.symm.trans (Partition.registration?_grainId hr),
          htakes.2.1.symm.trans hactivation⟩
      show (s.partition.removeActivation m.now a.grain a.activation .force).2.registration?
        address.grain.id = some r
      rw [Partition.registration?_removeActivation, hr]
      simp [Option.filter, hkept]

end Batches

end Service

namespace Cluster

variable {c : Cluster} {i : ServiceId} {action : Action} {hop : UInt32}

/-! ## Single removals -/

/-- A removal that a service has not refused it has served, or all that has happened since it prepared to
forward it has stored nothing. -/
theorem handled_removal (hremoves : ¬ action.Seeks) (hwiring : c.wiring ≠ .framed) (forwards : Nat)
    {outcome : Outcome}
    (h : ((handleAction (waysOf forwards) i action hop).run c).1 = .ok outcome) :
    ((handleAction (waysOf forwards) i action hop).run c).2 =
        (c.accepted i action hop).served i action ∨
      Fades ((c.accepted i action hop).dispatched i action)
        ((handleAction (waysOf forwards) i action hop).run c).2 := by
  have hpractice := practice_removal hremoves
  have hready : ((c.accepted i action hop).dispatched i action).wiring ≠ .framed := hwiring
  rw [run_handleAction] at h ⊢
  cases hverdict : (c.service i).verdict c.oracle action hop with
  | refuse e =>
    rw [hverdict] at h
    cases h
  | serve => exact .inl rfl
  | forward owner =>
    refine .inr ?_
    dsimp only
    rw [run_transmit]
    split
    · exact (hpractice.learn _ i _ (finds_error _ _ _)).1
    · rename_i hway
      obtain ⟨hsent, hreply⟩ := (hpractice.fulfils_waysOf forwards hready hway (hop + 1)).run
        fun _ _ hfades => hfades.toLater
      exact trans_of Fades hsent (hpractice.learn _ i _ hreply).1

/-- After a removal that a service was asked for first, or a deletion however often it was forwarded, its
cache stores nothing of the grain. -/
theorem oblivious_call (hwiring : c.wiring ≠ .framed) (hi : i < c.services.length)
    (hasked : (∃ address cause, action = .unregister address cause ∧ hop = 0) ∨
      ∃ g, action = .delete g) {outcome : Outcome}
    (h : ((call i (.single action hop)).run c).1 = .ok outcome) :
    (((call i (.single action hop)).run c).2.service i).Oblivious action.grain.id := by
  have hengaged : (c.engage i).wiring ≠ .framed := hwiring
  have haccepted : ((c.engage i).accepted i action hop).service i =
      (c.service i).accept c.moment action hop := service_adjust_self (c := c.engage i) hi _
  have hi' : i < ((c.engage i).accepted i action hop).services.length := by
    rw [accepted, length_adjust]
    exact hi
  rw [call, perform_eq, run_attended] at h ⊢
  show (((handleAction (waysOf maxForwards) i action hop).run (c.engage i)).2.service i).Oblivious _
  rcases hasked with ⟨address, cause, rfl, rfl⟩ | ⟨g, rfl⟩
  · have hforgot : (((c.engage i).accepted i (.unregister address cause) 0).service i).Oblivious
        address.grain.id := by
      rw [haccepted]
      exact Service.oblivious_accept_unregister _ _ _ _
    rcases handled_removal id hengaged maxForwards h with hserved | hfades
    · rw [hserved]
      exact hforgot.fades (((practice_removal id).serve _ i hi').1.service i)
    · have hdispatched : Fades ((c.engage i).accepted i (.unregister address cause) 0)
          (((c.engage i).accepted i (.unregister address cause) 0).dispatched i
            (.unregister address cause)) := .adjust (Service.fades_dispatched _ _ _)
      exact hforgot.fades ((trans_of Fades hdispatched hfades).service i)
  · rcases handled_removal id hengaged maxForwards h with hserved | hfades
    · rw [hserved, served, service_adjust_self hi']
      exact Service.oblivious_serve_delete _ _ _
    · refine Service.Oblivious.fades ?_ (hfades.service i)
      rw [dispatched, service_adjust_self hi']
      exact Service.oblivious_dispatched_delete _ _ _

/-! ## Batches -/

section Batches

variable {addresses : List GrainAddress} {address : GrainAddress} {outcome : Outcome}

/-- The parts of a batch that are sent one after the other have nothing stored. -/
theorem fades_transmitAll (forwards : Nat) (cause : RemovalCause) (hop : UInt32)
    (away : List (Silo × List GrainAddress)) (hwiring : c.wiring ≠ .framed) :
    Fades c ((transmitAll (waysOf forwards) cause hop away).run c).2 := by
  induction away generalizing c with
  | nil => exact refl_of Fades c
  | cons a rest ih =>
    have hfirst : Fades c
        ((transmit (waysOf forwards) a.1 (.batch a.2 cause (hop + 1))).run c).2 := by
      rw [run_transmit]
      split
      · exact refl_of Fades c
      · rename_i hway
        exact ((fulfils_waysOf_batch forwards hwiring hway a.2 cause (hop + 1)).run
          fun _ _ hfades => hfades.toLater).1
    rw [run_transmitAll_cons]
    exact trans_of Fades hfirst (ih fun hframed => hwiring (hfirst.wiring.symm.trans hframed))

theorem outline_transmitAll (forwards : Nat) (cause : RemovalCause) (hop : UInt32)
    (away : List (Silo × List GrainAddress)) (c : Cluster) :
    ((transmitAll (waysOf forwards) cause hop away).run c).2.outline = c.outline := by
  refine Activity.keeps_all (fun p hp => ?_) c
  obtain ⟨a, -, rfl⟩ := List.mem_map.mp hp
  exact keeps_transmit (firm_waysOf forwards) a.1 _

/-- Once a service has removed its part of a batch, it does not believe in an activation of that part that
it had registered. -/
theorem not_believes_apportioned (hi : i < c.services.length) {split : Service.Split}
    (hin : address ∈ split.here) {r : Registration}
    (hr : (c.service i).partition.registration? address.grain.id = some r)
    (hactivation : r.address.activation = address.activation) :
    ¬ ((c.apportioned i .force split).service i).cache.Believes c.clock address := by
  have hi' : i < (c.adjust i fun s => s.removeAllHere c.moment .force split.here).services.length := by
    rw [length_adjust]
    exact hi
  rw [apportioned, service_adjust_self hi', service_adjust_self hi]
  exact Service.not_believes_removeAllHere c.moment hin hr hactivation

/-- A service that answers for the grain of an activation that it has registered does not believe in the
activation any more once a batch has removed it. -/
theorem not_believes_call_batch (hwiring : c.wiring ≠ .framed) (hi : i < c.services.length)
    (hin : address ∈ addresses) (hanswers : (c.service i).Answers address.grain) {r : Registration}
    (hr : (c.service i).partition.registration? address.grain.id = some r)
    (hactivation : r.address.activation = address.activation)
    (h : ((call i (.batch addresses .force hop)).run c).1 = .ok outcome) :
    ¬ (((call i (.batch addresses .force hop)).run c).2.service i).cache.Believes c.clock address := by
  have hhandled : handle (waysOf maxForwards) i (.batch addresses .force hop) =
      handleBatch (waysOf maxForwards) i addresses .force hop := rfl
  rw [call, perform_eq, run_attended, hhandled, run_handleBatch (firm_waysOf maxForwards)] at h ⊢
  cases hsplit : ((c.engage i).service i).split hop addresses with
  | error e =>
    rw [hsplit] at h
    cases h
  | ok split =>
    have hhere : address ∈ split.here := by
      obtain ⟨target, howner, hid⟩ := hanswers
      have hstays : ((c.engage i).service i).resolver.checkForward address.grain hop
          Operation.unregisterMany.name = .ok none := Service.serve_of_owner _ hop howner hid
      exact (Service.mem_here hsplit).mpr ⟨hin, (Service.resolves_of_checkForward hstays).2⟩
    have hentered : i < ((c.engage i).entered i hop).services.length := by
      rw [entered, length_adjust]
      exact hi
    have hregistered : (((c.engage i).entered i hop).service i).partition.registration?
        address.grain.id = some r := by
      rw [entered, service_adjust_self (c := c.engage i) hi]
      exact hr
    have hready : (((c.engage i).entered i hop).apportioned i .force split).wiring ≠ .framed := hwiring
    have hfades := fades_transmitAll maxForwards .force hop split.away hready
    have hkeep := outline_transmitAll maxForwards .force hop split.away
      (((c.engage i).entered i hop).apportioned i .force split)
    exact fun hbelieves => not_believes_apportioned hentered hhere hregistered hactivation
      (Service.believes_of_fades (hfades.service i) (outline_service_eq_of_outline hkeep i) hbelieves)

/-- A service that answers for the grain of an address has it removed from its partition by a batch. -/
theorem partition_call_batch_of_answers (hwiring : c.wiring ≠ .framed) (hi : i < c.services.length)
    (hin : address ∈ addresses) (hanswers : (c.service i).Answers address.grain)
    (cause : RemovalCause) (h : ((call i (.batch addresses cause hop)).run c).1 = .ok outcome) :
    ∃ portion, address ∈ portion ∧
      (((call i (.batch addresses cause hop)).run c).2.service i).partition =
        (c.service i).partition.removeAll c.clock cause portion := by
  obtain ⟨before, site, portion, hjourney, hportion, hpartition⟩ :=
    removed_after_batch hwiring hi h hin
  have hserve : ((c.engage i).service i).verdict (c.engage i).oracle (.unregister address cause) hop =
      .serve := Service.serve_iff_answers.mpr hanswers
  obtain ⟨-, rfl, -⟩ := (Journey.served hserve).unique hjourney
  exact ⟨portion, hportion, hpartition⟩

end Batches

/-! ## What is answered afterwards -/

/-- What a service answers about a grain without asking anybody. -/
def tells (c : Cluster) (i : ServiceId) (g : Grain) : Except Error (Option TaggedAddress) :=
  ((c.service i).localLookup c.moment g).1

/-- What a service that was asked for a removal, and has carried it out, tells right after it. -/
structure Forgets (c : Cluster) (i : ServiceId) : Prop where
  /-- An activation that was removed by force is not told of. -/
  unregistered : ∀ address outcome,
    ((call i (.single (.unregister address .force) 0)).run c).1 = .ok outcome →
    ∀ t, ((call i (.single (.unregister address .force) 0)).run c).2.tells i address.grain =
      .ok (some t) → ∀ a ∈ t.address, a.activation ≠ address.activation
  /-- Of a grain that was deleted nothing is told. -/
  deleted : ∀ g hop outcome, ((call i (.single (.delete g) hop)).run c).1 = .ok outcome →
    ((call i (.single (.delete g) hop)).run c).2.tells i g = .ok none
  /-- An activation that was removed by force in a batch is only told of out of the cache, by an entry that
  was told of before, and not if the service has removed the activation itself. -/
  unregisteredMany : ∀ addresses hop outcome,
    ((call i (.batch addresses .force hop)).run c).1 = .ok outcome → ∀ address ∈ addresses,
    ∀ t, ((call i (.batch addresses .force hop)).run c).2.tells i address.grain = .ok (some t) →
      ∀ a ∈ t.address, a.activation = address.activation →
        (∃ e, Service.trustedEntry? (c.service i) c.moment address.grain = some e ∧
          t = .found e.address TaggedAddress.cachedTag) ∧
        ¬ ((c.service i).Answers address.grain ∧ ∃ r,
          (c.service i).partition.registration? address.grain.id = some r ∧
            r.address.activation = address.activation)

section Afterwards

variable {g : Grain} {request : Request} {t : TaggedAddress} {outcome : Outcome}

/-- What is told right after a call comes out of the cache, or out of the own partition if the service
owned the grain before. -/
theorem tells_after_call
    (h : ((call i request).run c).2.tells i g = .ok (some t)) :
    (∃ e, Service.trustedEntry? (((call i request).run c).2.service i) c.moment g = some e ∧
        t = .found e.address TaggedAddress.cachedTag) ∨
      ((c.service i).Answers g ∧ ∃ r,
        (((call i request).run c).2.service i).partition.registration? g.id = some r ∧
          t = r.answer) := by
  have hkeep := outline_call i request c
  have hmoment := moment_eq_of_outline hkeep
  rcases Service.localLookup_sources _ _ h with ⟨e, he, ht⟩ | ⟨howns, hr⟩
  · exact .inl ⟨e, hmoment ▸ he, ht⟩
  · have howned := (Service.owns_iff_of_resolver (resolver_eq_of_outline hkeep i) g).mp howns
    exact .inr ⟨Service.answers_of_owns howned, hr⟩

/-- After a call about a grain has succeeded, the service does not fail to tell of it. -/
theorem tells_ne_error (hwiring : c.wiring ≠ .framed) (hi : i < c.services.length)
    (h : ((call i (.single action hop)).run c).1 = .ok outcome) (e : Error) :
    ((call i (.single action hop)).run c).2.tells i action.grain ≠ .error e := by
  intro htells
  have hkeep := outline_call i (.single action hop) c
  have howner : (c.service i).resolver.owner? action.grain = .error e := by
    rw [← resolver_eq_of_outline hkeep i]
    exact Service.owner?_of_localLookup_error _ _ htells
  have hrefused : ((c.engage i).service i).verdict (c.engage i).oracle action hop = .refuse e := by
    refine Service.verdict_of_error ?_
    show (c.service i).resolver.checkForward _ _ _ = _
    rw [Resolver.checkForward, howner]
  obtain ⟨before, last, failure, hjourney, hconcluded⟩ := call_action hwiring hi action hop
  obtain ⟨-, -, rfl⟩ := (Journey.refused hrefused).unique hjourney
  cases h.symm.trans hconcluded.1

end Afterwards

/-- Whoever has removed an activation or deleted a grain forgets it, and after a batch it only tells what its
cache told before and its own removals did not concern. -/
theorem remover_forgets (hwiring : c.wiring ≠ .framed) (hi : i < c.services.length) :
    Forgets c i where
  unregistered := by
    intro address outcome h t htells a ha
    rcases tells_after_call htells with ⟨e, he, -⟩ | ⟨hanswers, r, hr, rfl⟩
    · have hforgot := oblivious_call hwiring hi (.inl ⟨address, .force, rfl, rfl⟩) h
      cases (hforgot.not_trusted c.moment).symm.trans he
    · cases ha
      rw [(call_of_answers hi (.unregister address .force) 0 hanswers).2.1] at hr
      -- The removal of one activation is the removal of a list of one.
      exact (c.service i).partition.activation_ne_of_registration?_removeAll c.clock
        (List.mem_singleton_self address) hr
  deleted := by
    intro g hop outcome h
    cases htells : ((call i (.single (.delete g) hop)).run c).2.tells i g with
    | error e => exact absurd htells (tells_ne_error hwiring hi h e)
    | ok told =>
      cases told with
      | none => rfl
      | some t =>
        rcases tells_after_call htells with ⟨e, he, -⟩ | ⟨hanswers, r, hr, -⟩
        · have hforgot := oblivious_call hwiring hi (.inr ⟨g, rfl⟩) h
          cases (hforgot.not_trusted c.moment).symm.trans he
        · rw [(call_of_answers hi (.delete g) hop hanswers).2.1] at hr
          have hnone : ((c.service i).partition.removeGrain g).2.registration? g.id = none := by
            rw [Partition.registration?_removeGrain, if_pos rfl]
          cases hnone.symm.trans hr
  unregisteredMany := by
    intro addresses hop outcome h address hin t htells a ha hactivation
    rcases tells_after_call htells with ⟨e, he, rfl⟩ | ⟨hanswers, r, hr, rfl⟩
    · cases ha
      have hfades := ((fulfils_perform_batch maxForwards hwiring i addresses .force hop).run
        fun _ _ hfades => hfades.toLater).1
      have hkeep := outline_service_eq_of_outline (outline_call i (.batch addresses .force hop) c) i
      refine ⟨⟨e, Service.trustedEntry?_of_fades (hfades.service i) hkeep he, rfl⟩, ?_⟩
      rintro ⟨hanswers, r, hr, hregistered⟩
      have hsees := (Option.filter_eq_some_iff.mp he).1
      exact not_believes_call_batch hwiring hi hin hanswers hr hregistered h
        ⟨e, hsees, Cache.grainId_of_find? hsees, hactivation⟩
    · cases ha
      obtain ⟨portion, hportion, hpartition⟩ :=
        partition_call_batch_of_answers hwiring hi hin hanswers .force h
      rw [hpartition] at hr
      exact absurd hactivation
        ((c.service i).partition.activation_ne_of_registration?_removeAll c.clock hportion hr)

/-- An activation at the first service of the pair. -/
def known : GrainAddress := ⟨⟨⟨⟨"g"⟩, "k"⟩, 2⟩, ⟨1⟩, (agreedPair.service 0).home⟩

/-- The second service of the pair has registered the activation of the first one, which has its location
in its cache. -/
def informed : Cluster := ((call 0 (.single (.register known none) 0)).run agreedPair).2

theorem remover_forgets_known :
    informed.wiring ≠ .framed ∧ 0 < informed.services.length ∧ Forgets informed 0 ∧
      informed.tells 0 known.grain = .ok (some (.found known TaggedAddress.cachedTag)) ∧
      ((call 0 (.single (.unregister known .force) 0)).run informed).1 = .ok .done ∧
      ((call 0 (.single (.delete known.grain) 0)).run informed).2.tells 0 known.grain = .ok none := by
  have hforgets : Forgets informed 0 := remover_forgets (by decide) (by decide)
  have hdeleted : ((call 0 (.single (.delete known.grain) 0)).run informed).1 = .ok .done := rfl
  exact ⟨by decide, by decide, hforgets, rfl, rfl, hforgets.deleted known.grain 0 _ hdeleted⟩

/-- A service may still tell of an activation that it had removed by force in a batch: what it has in its
cache of a grain of another stays there. -/
theorem exists_remembered_removal :
    informed.wiring ≠ .framed ∧ 0 < informed.services.length ∧
      ((call 0 (.batch [known] .force 0)).run informed).1 = .ok .done ∧
      ((call 0 (.batch [known] .force 0)).run informed).2.tells 0 known.grain =
        .ok (some (.found known TaggedAddress.cachedTag)) :=
  ⟨by decide, by decide, rfl, rfl⟩

end Cluster

end GrainDirectory

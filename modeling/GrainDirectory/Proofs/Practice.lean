import GrainDirectory.Proofs.Reliance
import GrainDirectory.Proofs.Stores
import GrainDirectory.Proofs.Turns
set_option autoImplicit false

/-!
# What calls store, and what they answer

Of an in-process cluster a call can only change what its services store, and while it waits it relies on
the others for two things: the cluster stays in-process, and no service is taken away
(`Cluster.Later`).

A removal stores nothing (`Cluster.Fades`).  A call that asks for a location may insert the address that
it asks to register into a partition, once, and the caches take over what is registered somewhere
(`Cluster.Gains`); whatever location it answers is registered somewhere at that moment
(`Cluster.Finds`).  `Practice` lists what a service does in the course of a call, so that the way of a
call through the services is gone along once, for removals and for questions (`Practice.fulfils_perform`).
-/

namespace GrainDirectory

/-! ## Partitions -/

namespace Partition

/-- What becomes of a partition in the course of a call: it is left as it is; or it is made smaller, unless
there is an address to register; or that address is inserted, where it was not registered. -/
inductive Gains (asked : Option GrainAddress) (p : Partition) : Partition → Prop
  | kept : Gains asked p p
  | removed {p' : Partition} (hasked : asked = none) (h : p'.Within p) : Gains asked p p'
  | inserted {address : GrainAddress} (now : Nat) (hasked : asked = some address)
      (hnew : ∀ r, p.registration? address.grain.id = some r → ¬ r.address.Matches address) :
      Gains asked p (p.insert now address).2

namespace Gains

variable {asked : Option GrainAddress} {p p' p'' : Partition}

/-- An address that has been inserted is not inserted again. -/
theorem eq_of_inserted {address : GrainAddress} {now : Nat}
    (h : Gains (some address) (p.insert now address).2 p') : p' = (p.insert now address).2 := by
  cases h with
  | kept => rfl
  | removed hasked _ => cases hasked
  | inserted now' hasked hnew =>
    cases hasked
    have hinserted : (p.insert now address).2.registration? address.grain.id =
        some ⟨address, p.nextTag, now⟩ := by
      rw [registration?_insert, if_pos rfl]
    exact absurd (GrainAddress.Matches.refl address) (hnew _ hinserted)

theorem within_or_inserted (h : Gains asked p p') : p'.Within p ∨
    ∃ address now, asked = some address ∧ p' = (p.insert now address).2 := by
  cases h with
  | kept => exact .inl (.refl p)
  | removed _ hwithin => exact .inl hwithin
  | inserted now hasked _ => exact .inr ⟨_, now, hasked, rfl⟩

theorem trans (h : Gains asked p p') (h' : Gains asked p' p'') : Gains asked p p'' := by
  cases h with
  | kept => exact h'
  | removed hasked hwithin =>
    cases h' with
    | kept => exact .removed hasked hwithin
    | removed _ hwithin' => exact .removed hasked (hwithin'.trans hwithin)
    | inserted now hasked' _ => exact nomatch hasked.symm.trans hasked'
  | inserted now hasked hnew =>
    subst hasked
    rw [h'.eq_of_inserted]
    exact .inserted now rfl hnew

/-- What is registered in between is registered before or in the end. -/
theorem registration?_between (h : Gains asked p p') (h' : Gains asked p' p'') {id : GrainId}
    {r : Registration} (hr : p'.registration? id = some r) :
    p.registration? id = some r ∨ p''.registration? id = some r := by
  cases h with
  | kept => exact .inl hr
  | removed _ hwithin => exact .inl (hwithin id r hr)
  | inserted now hasked hnew =>
    subst hasked
    rw [h'.eq_of_inserted]
    exact .inr hr

end Gains

/-- To register an address inserts it or leaves the partition as it is. -/
theorem gains_add (p : Partition) (o : Oracle) (now : Nat) (address : GrainAddress)
    (previous : Option GrainAddress) :
    Gains (some address) p (p.add o now address previous).2 := by
  by_cases h : p.Inserts o address previous
  · rw [p.add_of_inserts o now h]
    exact .inserted now rfl fun r hr => (h r hr).1
  · rw [p.add_of_not_inserts o now h]
    exact .kept

end Partition

/-- The address that an action asks to register. -/
def Action.registers? : Action → Option GrainAddress
  | .register address _ => some address
  | _ => none

/-- The address that a request asks to register. -/
def Request.registers? : Request → Option GrainAddress
  | .single action _ => action.registers?
  | .batch .. => none

/-- The address that a command asks to register. -/
def Command.registers? : Command → Option GrainAddress
  | .call _ request => request.registers?
  | .serve _ frame =>
    match Frame.decode Format.request frame with
    | .ok request => request.registers?
    | .error _ => none
  | _ => none

namespace Cluster

/-! ## Clusters -/

/-- What a call that waits relies on the others for: the cluster is wired as it was, and its services are
there. -/
structure Later (c c' : Cluster) : Prop where
  wiring : c'.wiring = c.wiring
  length : c.services.length ≤ c'.services.length

instance : IsPreorder Cluster Later where
  refl _ := ⟨rfl, Nat.le_refl _⟩
  trans _ _ _ h h' := ⟨h'.wiring.trans h.wiring, Nat.le_trans h.length h'.length⟩

/-- Whether the services of a cluster have come to store nothing that they did not store before. -/
structure Fades (c c' : Cluster) : Prop extends Later c c' where
  service : ∀ n, (c.service n).Fades (c'.service n)

instance : IsPreorder Cluster Fades where
  refl c := ⟨refl_of Later c, fun _ => .refl _⟩
  trans _ _ _ h h' :=
    ⟨trans_of Later h.toLater h'.toLater, fun n => (h.service n).trans (h'.service n)⟩

/-- Whether some service has registered what a cache entry says. -/
def Vouches (c : Cluster) (e : CacheEntry) : Prop :=
  ∃ n r, (c.service n).partition.registration? e.grainId = some r ∧ r.address.Same e.address ∧
    r.tag = e.tag

/-- What becomes of a cluster in the course of a call: an address may be inserted into partitions, and
caches come to store what is registered before or in the end. -/
structure Gains (asked : Option GrainAddress) (c c' : Cluster) : Prop extends Later c c' where
  partition : ∀ n, (c.service n).partition.Gains asked (c'.service n).partition
  cache : ∀ n id e, (c'.service n).cache.entries.find? id = some e →
    (c.service n).cache.entries.find? id = some e ∨ c.Vouches e ∨ c'.Vouches e

theorem Gains.trans {asked : Option GrainAddress} {c c' c'' : Cluster} (h : Gains asked c c')
    (h' : Gains asked c' c'') : Gains asked c c'' where
  toLater := trans_of Later h.toLater h'.toLater
  partition := fun n => (h.partition n).trans (h'.partition n)
  cache := by
    have hbetween {e : CacheEntry} (hvouched : c'.Vouches e) : c.Vouches e ∨ c''.Vouches e := by
      obtain ⟨n, r, hr, hsays⟩ := hvouched
      rcases (h.partition n).registration?_between (h'.partition n) hr with hbefore | hafter
      · exact .inl ⟨n, r, hbefore, hsays⟩
      · exact .inr ⟨n, r, hafter, hsays⟩
    intro n id e he
    rcases h'.cache n id e he with hold | hvouched | hvouched
    · rcases h.cache n id e hold with hold | hvouched | hvouched
      · exact .inl hold
      · exact .inr (.inl hvouched)
      · exact .inr (hbetween hvouched)
    · exact .inr (hbetween hvouched)
    · exact .inr (.inr hvouched)

instance (asked : Option GrainAddress) : IsPreorder Cluster (Gains asked) where
  refl c := ⟨refl_of Later c, fun _ => .kept, fun _ _ _ => .inl⟩
  trans _ _ _ := Gains.trans

theorem Fades.gains {c c' : Cluster} (h : Fades c c') : Gains none c c' :=
  ⟨h.toLater, fun n => .removed rfl (h.service n).partition, fun n id e he =>
    .inl ((h.service n).cache id e he)⟩

/-- Whether a location that a reply tells of a grain is registered somewhere. -/
def Finds (g : GrainId) (reply : Reply) (c : Cluster) : Prop :=
  ∀ answer, reply = .ok (.located answer) → answer.isFound = true →
    ∃ n r, (c.service n).partition.registration? g = some r ∧ r.answer = answer

/-- Whether a command that may have to wait answers no location to a call but one that is registered
somewhere. -/
structure Locates (command : Command) (answer : Except Error Answer) (c : Cluster) : Prop where
  converses : command.Converses
  called : ∀ i action hop, command = .call i (.single action hop) →
    ∀ outcome, answer = .ok (.outcome outcome) → Finds action.grain.id (.ok outcome) c

/-- Whether the service that a command calls is there. -/
def Addresses (c : Cluster) : Command → Prop
  | .call i _ => i < c.services.length
  | .serve i _ => i < c.services.length
  | .unregisterNonexistent i _ _ => i < c.services.length
  | _ => True

instance (c : Cluster) (command : Command) : Decidable (c.Addresses command) := by
  cases command <;> unfold Addresses <;> infer_instance

section Changes

variable {c c' : Cluster} {i : ServiceId} {f : Service → Service} {asked : Option GrainAddress}

theorem later_adjust (c : Cluster) (i : ServiceId) (f : Service → Service) : Later c (c.adjust i f) :=
  ⟨rfl, Nat.le_of_eq (length_adjust c i f).symm⟩

theorem Fades.adjust (h : (c.service i).Fades (f (c.service i))) : Fades c (c.adjust i f) := by
  refine ⟨later_adjust c i f, fun n => ?_⟩
  rw [service_adjust]
  split
  · rename_i hin
    rw [← hin.1]
    exact h
  · exact .refl _

theorem Fades.of_services (hservices : c'.services = c.services) (hwiring : c'.wiring = c.wiring) :
    Fades c c' := by
  refine ⟨⟨hwiring, Nat.le_of_eq (congrArg List.length hservices.symm)⟩, fun n => ?_⟩
  rw [Cluster.service, Cluster.service, hservices]
  exact .refl _

/-- A step that leaves the partition alone and adds nothing to the cache. -/
theorem Gains.of_fades (h : (c.service i).Fades (f (c.service i)))
    (hpartition : (f (c.service i)).partition = (c.service i).partition) :
    Gains asked c (c.adjust i f) := by
  have hfades := Fades.adjust h
  refine ⟨hfades.toLater, fun n => ?_, fun n id e he => .inl ((hfades.service n).cache id e he)⟩
  rw [service_adjust]
  split
  · rename_i hin
    rw [← hin.1, hpartition]
    exact .kept
  · exact .kept

theorem Gains.of_services (hservices : c'.services = c.services) (hwiring : c'.wiring = c.wiring) :
    Gains asked c c' := by
  refine ⟨(Fades.of_services hservices hwiring).toLater, fun n => ?_, fun n id e he => .inl ?_⟩
  · rw [Cluster.service, Cluster.service, hservices]
    exact .kept
  · rw [Cluster.service, hservices] at he
    exact he

theorem Finds.of_partitions {g : GrainId} {reply : Reply} (h : Finds g reply c)
    (hpartitions : ∀ n, (c'.service n).partition = (c.service n).partition) : Finds g reply c' := by
  intro answer hreply hfound
  obtain ⟨n, r, hr, hanswer⟩ := h answer hreply hfound
  exact ⟨n, r, (hpartitions n).symm ▸ hr, hanswer⟩

theorem finds_error (g : GrainId) (e : Error) (c : Cluster) : Finds g (.error e) c := fun _ h => nomatch h

end Changes

/-! ## The way of a call -/

/-- What services do in the course of a call for an action: every step that one of them takes is of the
kind `R`, and the replies are as `Q` says. -/
structure Practice (R : Cluster → Cluster → Prop) (Q : Reply → Cluster → Prop) (action : Action) :
    Prop where
  later : ∀ c c', R c c' → Later c c'
  /-- To take note of a call touches no service. -/
  note : ∀ c c', c'.services = c.services → c'.wiring = c.wiring →
    R c c' ∧ ∀ reply, Q reply c → Q reply c'
  accept : ∀ c i hop, R c (c.accepted i action hop)
  serve : ∀ c i, i < c.services.length → R c (c.served i action) ∧
    Q (.ok ((c.service i).serve c.moment action).1) (c.served i action)
  dispatch : ∀ c i owner t, (c.service i).dispatch c.moment action owner = .ok t →
    R c (c.adjust i fun _ => t)
  learn : ∀ c i reply, Q reply c → R c (c.learned i action reply) ∧ Q reply (c.learned i action reply)
  refuse : ∀ e c, Q (.error e) c

section Calls

variable {α : Type} {R : Cluster → Cluster → Prop} {c : Cluster}

theorem fulfils_inspect {i : ServiceId} {f : Service → Moment → α} {Q : α → Cluster → Prop}
    (h : Q (f (c.service i) c.moment) c) : (inspect i f).Fulfils Later R Q c := h

theorem fulfils_waitToRetry (i : ServiceId) {Q : Unit → Cluster → Prop}
    (h : ∀ c', Later c c' → Q () c') : (waitToRetry i).Fulfils Later R Q c :=
  Activity.Fulfils.bind (fulfils_inspect (Activity.fulfils_wait _ h))

/-- Wherever an action goes in the end, others may have acted before that is settled. -/
theorem fulfils_resolve {i : ServiceId} {action : Action} {hop : UInt32}
    {Q : Except Error (Option Silo) → Cluster → Prop} (h : ∀ target c', Later c c' → Q target c') :
    (resolve i action hop).Fulfils Later R Q c := by
  refine Activity.Fulfils.bind (fulfils_inspect ?_)
  split
  · split
    · exact Activity.fulfils_pure (h _ c (refl_of Later c))
    · exact Activity.Fulfils.bind (fulfils_waitToRetry i fun c' hc => fulfils_inspect (h _ c' hc))
  · exact Activity.fulfils_pure (h _ c (refl_of Later c))

/-- To hold a service meanwhile is only taken note of. -/
theorem fulfils_attended {i : ServiceId} {p : Activity Cluster α} {Q : α → Cluster → Prop}
    (hnote : ∀ c c', c'.services = c.services → c'.wiring = c.wiring →
      R c c' ∧ ∀ a, Q a c → Q a c')
    (hp : p.Fulfils Later R Q (c.engage i)) : (attended i p).Fulfils Later R Q c := by
  refine Activity.Fulfils.bind (Activity.fulfils_update (hnote c (c.engage i) rfl rfl).1
    (Activity.Fulfils.bind (hp.mono (fun _ _ => id) fun a c' ha => ?_)))
  obtain ⟨hstep, hkeep⟩ := hnote c' (c'.disengage i) rfl rfl
  exact Activity.Fulfils.bind (Activity.fulfils_update hstep (Activity.fulfils_pure (hkeep a ha)))

namespace Practice

variable {Q : Reply → Cluster → Prop} {action : Action} (h : Practice R Q action)

include h

section Handling

variable {ways : Ways} {hop : UInt32}
  (hways : ∀ c target peer, c.wiring ≠ .framed → ways c target = .ok peer →
    ∀ hop, (peer (.single action hop)).Fulfils Later R Q c)

include hways

theorem fulfils_forward (hwiring : c.wiring ≠ .framed) (i : ServiceId) (owner : Silo) :
    (forward ways i action hop owner).Fulfils Later R Q c := by
  unfold forward
  refine Activity.Fulfils.bind ?_
  cases hdispatch : (c.service i).dispatch c.moment action owner with
  | error e =>
    refine Activity.fulfils_act ?_ ?_ <;> dsimp only <;> rw [hdispatch]
    · exact (h.note _ _ (congrArg services (adjust_service c i)) rfl).1
    · exact Activity.fulfils_pure (h.refuse e _)
  | ok t =>
    refine Activity.fulfils_act ?_ ?_ <;> dsimp only <;> rw [hdispatch]
    · exact h.dispatch c i owner t hdispatch
    · refine Activity.Fulfils.bind (Activity.fulfils_look ?_)
      dsimp only
      split
      · exact Activity.fulfils_pure (h.refuse _ _)
      · rename_i peer hpeer
        have hready : (c.adjust i fun _ => t).wiring ≠ .framed := hwiring
        refine Activity.Fulfils.bind ((hways _ owner peer hready hpeer _).mono (fun _ _ => id) ?_)
        intro reply c' hreply
        obtain ⟨hlearn, hend⟩ := h.learn c' i reply hreply
        exact Activity.Fulfils.bind (Activity.fulfils_update hlearn (Activity.fulfils_pure hend))

theorem fulfils_handleAction (hwiring : c.wiring ≠ .framed) {i : ServiceId}
    (hi : i < c.services.length) : (handleAction ways i action hop).Fulfils Later R Q c := by
  have haccept := h.accept c i hop
  refine Activity.Fulfils.bind (Activity.fulfils_update haccept ?_)
  refine Activity.Fulfils.bind (fulfils_resolve fun target c' hc => ?_)
  have hlater : Later c c' := trans_of Later (h.later _ _ haccept) hc
  split
  · exact Activity.fulfils_pure (h.refuse _ _)
  · obtain ⟨hserve, hend⟩ := h.serve c' i (Nat.lt_of_lt_of_le hi hlater.length)
    exact Activity.Fulfils.bind (Activity.fulfils_act hserve (Activity.fulfils_pure hend))
  · exact h.fulfils_forward hways (hlater.wiring ▸ hwiring) i _

end Handling

/-- Of an in-process cluster, who is reached over its ways is called directly. -/
theorem fulfils_ways {peer : ServiceId → Peer}
    (hpeer : ∀ c i, c.wiring ≠ .framed → i < c.services.length →
      ∀ hop, (peer i (.single action hop)).Fulfils Later R Q c)
    {target : Silo} {way : Peer} (hwiring : c.wiring ≠ .framed) (hway : ways peer c target = .ok way)
    (hop : UInt32) : (way (.single action hop)).Fulfils Later R Q c := by
  unfold ways at hway
  split at hway
  · rename_i hframed
    exact absurd hframed hwiring
  · split at hway
    · rename_i j hj
      rw [← Except.ok.inj hway]
      have hlogged : (c.log target (.single action hop)).wiring ≠ .framed := hwiring
      exact Activity.Fulfils.bind (Activity.fulfils_update (h.note c (c.log target _) rfl rfl).1
        (hpeer _ j hlogged (live_of_reach? hj).1 hop))
    · cases hway
  · split at hway
    · rename_i j hj
      rw [← Except.ok.inj hway]
      exact hpeer c j hwiring (live_of_reach? hj).1 hop
    · cases hway

/-- What services do in the course of a call they do however often it is forwarded, and whatever others
do while it waits. -/
theorem fulfils_perform (forwards : Nat) {i : ServiceId} (hwiring : c.wiring ≠ .framed)
    (hi : i < c.services.length) (hop : UInt32) :
    (perform forwards i (.single action hop)).Fulfils Later R Q c := by
  induction forwards generalizing c i hop with
  | zero =>
    have hengaged : (c.engage i).wiring ≠ .framed := hwiring
    refine fulfils_attended h.note (h.fulfils_handleAction (fun _ _ _ _ hway => ?_) hengaged hi)
    cases hway
  | succ forwards ih =>
    have hengaged : (c.engage i).wiring ≠ .framed := hwiring
    refine fulfils_attended h.note (h.fulfils_handleAction (fun _ _ _ hwiring hway hop => ?_) hengaged hi)
    exact h.fulfils_ways (fun _ _ => ih) hwiring hway hop

/-- Whoever is reached in the course of a call does what services do, however often it is forwarded
yet. -/
theorem fulfils_waysOf (forwards : Nat) {target : Silo} {way : Peer} (hwiring : c.wiring ≠ .framed)
    (hway : waysOf forwards c target = .ok way) (hop : UInt32) :
    (way (.single action hop)).Fulfils Later R Q c := by
  cases forwards with
  | zero => cases hway
  | succ forwards =>
    exact h.fulfils_ways (fun _ _ hwiring hi hop => h.fulfils_perform forwards hwiring hi hop) hwiring
      hway hop

end Practice

/-! ## Removals -/

/-- In the course of a removal services store nothing, and no location is answered. -/
theorem practice_removal {action : Action} (h : ¬ action.Seeks) :
    Practice Fades (Finds action.grain.id) action where
  later := fun _ _ hfades => hfades.toLater
  note := fun c c' hservices hwiring => ⟨.of_services hservices hwiring, fun reply hreply =>
    hreply.of_partitions fun n => by rw [service, service, hservices]⟩
  accept := fun c i hop => .adjust (Service.fades_accept _ _ _ _)
  serve := by
    intro c i hi
    have hother : ∀ address previous, action ≠ .register address previous := by
      rintro address previous rfl
      exact h trivial
    refine ⟨.adjust (Service.fades_serve _ _ hother), fun answer hanswer _ => ?_⟩
    cases action with
    | register => exact absurd trivial h
    | lookup => exact absurd trivial h
    | unregister address cause => cases hanswer
    | delete grain => cases hanswer
  dispatch := fun c i owner t hdispatch => .adjust (Service.fades_dispatch _ _ hdispatch)
  learn := by
    intro c i reply hreply
    have hlearned : c.learned i action reply = c := by
      have hsame : (fun s : Service => s.learn c.moment action reply) = fun s => s :=
        funext fun s => s.learn_of_not_seeks c.moment h reply
      rw [learned, hsame, adjust_id]
    rw [hlearned]
    exact ⟨refl_of Fades c, hreply⟩
  refuse := fun e c => finds_error _ e c

/-! ## Questions -/

/-- A location that is registered with a service is found. -/
theorem finds_of_registration {n : ServiceId} {g : GrainId} {r : Registration}
    (h : (c.service n).partition.registration? g = some r) : Finds g (.ok (.located r.answer)) c := by
  intro answer hanswer _
  cases hanswer
  exact ⟨n, r, h, rfl⟩

/-- A service that serves a registration inserts the address or not, and its cache takes over what is
registered then. -/
theorem gains_served_register {i : ServiceId} (hi : i < c.services.length) (address : GrainAddress)
    (previous : Option GrainAddress) :
    Gains (some address) c (c.served i (.register address previous)) ∧
      Finds address.grain.id
        (.ok ((c.service i).serve c.moment (.register address previous)).1)
        (c.served i (.register address previous)) := by
  let s := c.service i
  obtain ⟨r, hr, hanswer⟩ :=
    s.partition.exists_registration_add c.moment.oracle c.moment.now address previous
  have hself : (c.served i (.register address previous)).service i =
      (s.serve c.moment (.register address previous)).2 := service_adjust_self hi _
  have hregistered : ((c.served i (.register address previous)).service i).partition.registration?
      address.grain.id = some r := by
    rw [hself]
    exact hr
  refine ⟨⟨later_adjust c i _, fun n => ?_, fun n id e he => ?_⟩, ?_⟩
  · rw [served, service_adjust]
    split
    · rename_i hin
      rw [← hin.1]
      exact s.partition.gains_add _ _ address previous
    · exact .kept
  · rw [served, service_adjust] at he
    split at he
    · rename_i hin
      rw [← hin.1]
      rw [Service.cache_serve_register] at he
      dsimp only at he
      rw [hanswer] at he
      rcases Cache.stored_add he with rfl | hold
      · have hid : r.address.grain.id = address.grain.id := Partition.registration?_grainId hr
        exact .inr (.inr ⟨i, r, (congrArg _ hid).trans hregistered, .refl _, rfl⟩)
      · exact .inl hold
    · exact .inl he
  · have houtcome : (s.serve c.moment (.register address previous)).1 = .located r.answer :=
      congrArg Outcome.located hanswer
    rw [houtcome]
    exact finds_of_registration hregistered

/-- In the course of a question one address may be inserted, caches take over what is registered, and
whatever location is answered is registered. -/
theorem practice_question {action : Action} (h : action.Seeks) :
    Practice (Gains action.registers?) (Finds action.grain.id) action where
  later := fun _ _ hgains => hgains.toLater
  note := fun c c' hservices hwiring => ⟨.of_services hservices hwiring, fun reply hreply =>
    hreply.of_partitions fun n => by rw [service, service, hservices]⟩
  accept := fun c i hop => .of_fades (Service.fades_accept _ _ _ _) (Service.partition_accept _ _ _ _)
  serve := by
    intro c i hi
    cases action with
    | register address previous => exact gains_served_register hi address previous
    | lookup grain =>
      have hfades : (c.service i).Fades ((c.service i).serve c.moment (.lookup grain)).2 :=
        Service.fades_serve _ _ fun _ _ => Action.noConfusion
      refine ⟨.of_fades hfades (Service.partition_serve _ _ _), fun answer hanswer hfound => ?_⟩
      have hlookup : (c.service i).partition.lookup grain = answer :=
        Outcome.located.inj (Except.ok.inj hanswer)
      unfold Partition.lookup at hlookup
      split at hlookup
      · rename_i r hr
        refine ⟨i, r, ?_, hlookup⟩
        rw [served, service_adjust_self hi, Service.partition_serve]
        exact hr
      · rw [← hlookup] at hfound
        cases hfound
    | unregister => exact h.elim
    | delete => exact h.elim
  dispatch := fun c i owner t hdispatch => .of_fades (Service.fades_dispatch _ _ hdispatch)
    (congrArg Stock.partition (Service.stock_dispatch _ _ hdispatch))
  learn := by
    intro c i reply hreply
    have hpartition (n : ServiceId) :
        ((c.learned i action reply).service n).partition = (c.service n).partition := by
      rw [learned, service_adjust]
      split
      · exact Service.partition_learn _ _ _ _
      · rfl
    refine ⟨⟨later_adjust c i _, fun n => (hpartition n).symm ▸ .kept, fun n id e he => ?_⟩,
      hreply.of_partitions hpartition⟩
    rw [learned, service_adjust] at he
    split at he
    · rcases Service.stored_learn _ _ he with hold | ⟨answer, found, rfl, hfound, hsame, htag⟩
      · exact .inl hold
      · obtain ⟨k, r, hr, rfl⟩ := hreply answer rfl (by rw [TaggedAddress.isFound, hfound]; rfl)
        cases hfound
        have hid : e.grainId = action.grain.id :=
          hsame.1.symm.trans (Partition.registration?_grainId hr)
        exact .inr (.inl ⟨k, r, hid ▸ hr, hsame, htag⟩)
    · exact .inl he
  refuse := fun e c => finds_error _ e c

/-- Whatever is asked about one grain. -/
theorem fulfils_call_single (hwiring : c.wiring ≠ .framed) {i : ServiceId}
    (hi : i < c.services.length) (action : Action) (hop : UInt32) :
    (call i (.single action hop)).Fulfils Later (Gains action.registers?)
      (Finds action.grain.id) c := by
  by_cases hseeks : action.Seeks
  · exact (practice_question hseeks).fulfils_perform maxForwards hwiring hi hop
  · have hremoval := (practice_removal hseeks).fulfils_perform maxForwards hwiring hi hop
    have hnone : action.registers? = none := by
      cases action with
      | register => exact absurd trivial hseeks
      | _ => rfl
    rw [hnone]
    exact hremoval.mono (fun _ _ => Fades.gains) fun _ _ => id

/-! ## Batches -/

section Batches

variable {ways : Ways}
  (hways : ∀ c target peer, c.wiring ≠ .framed → ways c target = .ok peer → ∀ addresses cause hop c',
    c'.wiring ≠ .framed → (peer (.batch addresses cause hop)).Fulfils Later Fades (fun _ _ => True) c')

include hways

/-- Every owner gets its part over the ways as they are when the first part is sent. -/
theorem fulfils_deliverAway (hwiring : c.wiring ≠ .framed) (i : ServiceId) (cause : RemovalCause)
    (hop : UInt32) (away : List (Silo × List GrainAddress)) :
    (deliverAway ways i cause hop away).Fulfils Later Fades (fun _ _ => True) c := by
  refine Activity.Fulfils.bind (Activity.fulfils_update (.adjust (.of_stores rfl rfl)) ?_)
  refine Activity.Fulfils.bind (Activity.fulfils_look ?_)
  refine Activity.Fulfils.bind (Activity.fulfils_all ?_ fun _ _ _ => Activity.fulfils_pure trivial)
  intro p hp c' hc
  obtain ⟨part, -, rfl⟩ := List.mem_map.mp hp
  unfold deliverTo
  split
  · exact Activity.fulfils_pure trivial
  · rename_i peer hpeer
    have hready : c'.wiring ≠ .framed := fun hframed => hwiring (hc.wiring.symm.trans hframed)
    refine hways _ _ peer ?_ hpeer _ _ _ c' hready
    exact hwiring

theorem fulfils_handleBatch (hwiring : c.wiring ≠ .framed) (i : ServiceId)
    (addresses : List GrainAddress) (cause : RemovalCause) (hop : UInt32) :
    (handleBatch ways i addresses cause hop).Fulfils Later Fades (fun _ _ => True) c := by
  have hremove (c : Cluster) (here : List GrainAddress) :
      Fades c (c.adjust i fun s => s.removeAllHere c.moment cause here) :=
    .adjust (Service.fades_removeAllHere _ _ _ _)
  refine Activity.Fulfils.bind (Activity.fulfils_update (.adjust (.of_stores rfl rfl)) ?_)
  refine Activity.Fulfils.bind (fulfils_inspect ?_)
  split
  · exact Activity.fulfils_pure trivial
  · refine Activity.Fulfils.bind (Activity.fulfils_update (hremove _ _) ?_)
    split
    · refine fulfils_deliverAway hways ?_ i cause hop _
      exact hwiring
    · refine Activity.Fulfils.bind (fulfils_waitToRetry i fun c' hc => ?_)
      refine Activity.Fulfils.bind (fulfils_inspect ?_)
      split
      · exact Activity.fulfils_pure trivial
      · refine Activity.Fulfils.bind (Activity.fulfils_update (hremove _ _) ?_)
        refine fulfils_deliverAway hways ?_ i cause hop _
        exact fun hframed => hwiring (hc.wiring.symm.trans hframed)

end Batches

/-- Whoever is reached over the ways of an in-process cluster is called directly. -/
theorem fulfils_ways_batch {peer : ServiceId → Peer}
    (hpeer : ∀ c i, c.wiring ≠ .framed → ∀ addresses cause hop,
      (peer i (.batch addresses cause hop)).Fulfils Later Fades (fun _ _ => True) c)
    {c c' : Cluster} {target : Silo} {way : Peer} (hwiring : c.wiring ≠ .framed)
    (hway : ways peer c target = .ok way) (addresses : List GrainAddress) (cause : RemovalCause)
    (hop : UInt32) (hwiring' : c'.wiring ≠ .framed) :
    (way (.batch addresses cause hop)).Fulfils Later Fades (fun _ _ => True) c' := by
  unfold ways at hway
  split at hway
  · rename_i hframed
    exact absurd hframed hwiring
  · split at hway
    · rename_i j _
      rw [← Except.ok.inj hway]
      have hlogged : (c'.log target (.batch addresses cause hop)).wiring ≠ .framed := hwiring'
      exact Activity.Fulfils.bind (Activity.fulfils_update (.of_services rfl rfl)
        (hpeer _ j hlogged addresses cause hop))
    · cases hway
  · split at hway
    · rename_i j _
      rw [← Except.ok.inj hway]
      exact hpeer c' j hwiring' addresses cause hop
    · cases hway

/-- In the course of a batch services store nothing. -/
theorem fulfils_perform_batch (forwards : Nat) (hwiring : c.wiring ≠ .framed) (i : ServiceId)
    (addresses : List GrainAddress) (cause : RemovalCause) (hop : UInt32) :
    (perform forwards i (.batch addresses cause hop)).Fulfils Later Fades (fun _ _ => True) c := by
  have hnote (c c' : Cluster) (hservices : c'.services = c.services) (hwiring : c'.wiring = c.wiring) :
      Fades c c' ∧ ∀ _ : Reply, True → True := ⟨.of_services hservices hwiring, fun _ => id⟩
  induction forwards generalizing c i addresses cause hop with
  | zero =>
    have hengaged : (c.engage i).wiring ≠ .framed := hwiring
    refine fulfils_attended hnote (fulfils_handleBatch (fun _ _ _ _ hway => ?_) hengaged i addresses
      cause hop)
    cases hway
  | succ forwards ih =>
    have hengaged : (c.engage i).wiring ≠ .framed := hwiring
    exact fulfils_attended hnote (fulfils_handleBatch
      (fun c target way hwiring hway addresses cause hop c' hwiring' =>
        fulfils_ways_batch (fun _ i hwiring => ih hwiring i) hwiring hway addresses cause hop hwiring')
      hengaged i addresses cause hop)

/-- Whoever is reached in the course of a batch stores nothing. -/
theorem fulfils_waysOf_batch (forwards : Nat) {target : Silo} {way : Peer}
    (hwiring : c.wiring ≠ .framed) (hway : waysOf forwards c target = .ok way)
    (addresses : List GrainAddress) (cause : RemovalCause) (hop : UInt32) :
    (way (.batch addresses cause hop)).Fulfils Later Fades (fun _ _ => True) c := by
  cases forwards with
  | zero => cases hway
  | succ forwards =>
    exact fulfils_ways_batch (fun _ i hwiring => fulfils_perform_batch forwards hwiring i) hwiring hway
      addresses cause hop hwiring

end Calls

/-! ## Commands -/

section Commands

variable {c : Cluster}

theorem fulfils_call (hwiring : c.wiring ≠ .framed) {i : ServiceId} (hi : i < c.services.length)
    (request : Request) : (call i request).Fulfils Later (Gains request.registers?)
      (fun reply c => ∀ action hop, request = .single action hop → Finds action.grain.id reply c) c := by
  cases request with
  | single action hop =>
    refine (fulfils_call_single hwiring hi action hop).mono (fun _ _ => id) fun reply c h => ?_
    rintro action' hop' heq
    cases heq
    exact h
  | batch addresses cause hop =>
    exact (fulfils_perform_batch maxForwards hwiring i addresses cause hop).mono
      (fun _ _ => Fades.gains) fun _ _ _ _ _ heq => nomatch heq

theorem fulfils_unregisterNonexistent (hwiring : c.wiring ≠ .framed) {i : ServiceId}
    (hi : i < c.services.length) (address : GrainAddress) (origin : Option Silo) :
    (unregisterNonexistent i address origin).Fulfils Later Fades (fun _ _ => True) c := by
  have hnote (c c' : Cluster) (hservices : c'.services = c.services) (hwiring : c'.wiring = c.wiring) :
      Fades c c' ∧ ∀ _ : Reply, True → True := ⟨.of_services hservices hwiring, fun _ => id⟩
  have hremoval : Practice Fades _ (.unregister address .nonexistentActivation) := practice_removal id
  have hcall {c : Cluster} (hwiring : c.wiring ≠ .framed) {i : ServiceId} (hi : i < c.services.length) :
      (call i (.single (.unregister address .nonexistentActivation) 0)).Fulfils Later Fades
        (fun _ _ => True) c :=
    (hremoval.fulfils_perform maxForwards hwiring hi 0).mono (fun _ _ => id) fun _ _ _ => trivial
  refine fulfils_attended hnote (Activity.Fulfils.bind (Activity.fulfils_look ?_))
  have hengaged : (c.engage i).wiring ≠ .framed := hwiring
  split
  · exact hcall hengaged hi
  · split
    · exact hcall hengaged hi
    · split
      · exact Activity.fulfils_pure trivial
      · rename_i peer hpeer
        exact (hremoval.fulfils_ways (fun _ _ hwiring hi hop =>
          hremoval.fulfils_perform maxForwards hwiring hi hop) hengaged hpeer 0).mono
            (fun _ _ => id) fun _ _ _ => trivial

theorem fulfils_awaitMember (i : ServiceId) (silo : Silo) (patience looks interval : Nat) :
    (awaitMember i silo patience looks interval).Fulfils Later Fades (fun _ _ => True) c := by
  have hnote (c c' : Cluster) (hservices : c'.services = c.services) (hwiring : c'.wiring = c.wiring) :
      Fades c c' ∧ ∀ _ : Bool, True → True := ⟨.of_services hservices hwiring, fun _ => id⟩
  have hlook (looks : Nat) (c : Cluster) :
      (lookForMember i silo interval looks).Fulfils Later Fades (fun _ _ => True) c := by
    induction looks generalizing c with
    | zero => trivial
    | succ looks ih =>
      show Activity.Fulfils _ _ (if _ then _ else _) _ c
      split
      · trivial
      · exact fun c' _ => ih c'
  have hend (time : Nat) (seen : Bool) (c : Cluster) :
      (if seen then pure true else do
        .update fun c => c.elapse time
        pure false : Activity Cluster Bool).Fulfils Later Fades (fun _ _ => True) c := by
    split
    · exact Activity.fulfils_pure trivial
    · exact Activity.Fulfils.bind
        (Activity.fulfils_update (.of_services rfl rfl) (Activity.fulfils_pure trivial))
  exact fulfils_attended hnote (Activity.Fulfils.bind
    ((hlook _ _).mono (fun _ _ => id) fun seen c' _ => hend _ seen c'))

/-- Where a command may have to wait, it gains what it asks to register, and a location that it answers to a
call is registered somewhere at that moment. -/
theorem fulfils_perform {command : Command} (hconverses : command.Converses)
    (hwiring : c.wiring ≠ .framed) (haddressed : c.Addresses command) :
    command.perform.Fulfils Later (Gains command.registers?) (Locates command) c := by
  cases command with
  | call i request =>
    refine Activity.Fulfils.bind ((fulfils_call hwiring haddressed request).mono (fun _ _ => id) ?_)
    intro reply c' hreply
    refine Activity.fulfils_pure ⟨hconverses, fun j action hop heq outcome houtcome => ?_⟩
    cases heq
    cases reply with
    | error e => cases houtcome
    | ok found =>
      cases houtcome
      exact hreply action hop rfl
  | serve i frame =>
    have hserve : (Cluster.serve i frame).Fulfils Later (Gains (Command.serve i frame).registers?)
        (fun _ _ => True) c := by
      unfold Cluster.serve serveFrame
      cases hdecode : Frame.decode Format.request frame with
      | error e => exact Activity.fulfils_pure trivial
      | ok request =>
        have hregisters : (Command.serve i frame).registers? = request.registers? := by
          rw [Command.registers?, hdecode]
        rw [hregisters]
        exact Activity.Fulfils.bind ((fulfils_call hwiring haddressed request).mono
          (fun _ _ => id) fun _ _ _ => Activity.fulfils_pure trivial)
    exact Activity.Fulfils.bind (hserve.mono (fun _ _ => id) fun _ _ _ =>
      Activity.fulfils_pure ⟨hconverses, fun _ _ _ heq => nomatch heq⟩)
  | unregisterNonexistent i address origin =>
    exact Activity.Fulfils.bind ((fulfils_unregisterNonexistent hwiring haddressed address origin).mono
      (fun _ _ => Fades.gains) fun _ _ _ => Activity.fulfils_pure ⟨hconverses, fun _ _ _ heq => nomatch heq⟩)
  | awaitMember i silo patience looks interval =>
    exact Activity.Fulfils.bind ((fulfils_awaitMember i silo patience looks interval).mono
      (fun _ _ => Fades.gains) fun _ _ _ => Activity.fulfils_pure ⟨hconverses, fun _ _ _ heq => nomatch heq⟩)
  | _ => exact hconverses.elim

theorem fades_dismiss (c : Cluster) (label : String) : Fades c (c.dismiss label) := by
  unfold dismiss
  split
  · rename_i i _
    refine trans_of Fades (.adjust (.of_stores rfl rfl)) (foldl_preorder (fun c j => ?_) _ _)
    split
    · exact refl_of Fades c
    · have hgiven : Fades c { c with oracle := ((c.service j).release c.oracle).2 } :=
        .of_services rfl rfl
      exact trans_of Fades hgiven (.adjust (Service.fades_release _ _))
  · exact refl_of Fades c

theorem fades_kill (c : Cluster) (i : ServiceId) : Fades c (c.kill i) := by
  have hgone : Fades c ((c.report (c.service i).home .dead).detach (c.service i).home).2 :=
    .of_services rfl rfl
  exact trans_of Fades hgone (foldl_preorder
    (f := fun c j => c.adjust j fun s => (s.removeSilo c.clock _ .dead).2)
    (fun c j => .adjust (Service.fades_removeSilo _ _ _ _)) _ _)

/-- A service that is built stores nothing. -/
theorem fades_install {b : Blueprint} {c' : Cluster} (h : c.install b = .ok c') : Fades c c' := by
  obtain ⟨s, hbuild, rfl⟩ := install_eq_ok h
  have hrest := fades_dismiss c b.label
  refine ⟨⟨hrest.wiring, ?_⟩, fun n => ?_⟩
  · rw [List.length_append]
    exact Nat.le_add_right_of_le hrest.length
  · rw [service_append]
    split
    · obtain ⟨hpartition, hcache, -⟩ := Service.empty_of_build hbuild
      exact .of_empty hpartition hcache
    · exact hrest.service n

/-- No other command has anything stored, but to suggest where a grain is. -/
theorem fades_perform {command : Command} (hconverses : ¬ command.Converses)
    (hother : ∀ i grain silo, command ≠ .suggest i grain silo) :
    Fades c (command.perform.run c).2 := by
  have hadjust {i : ServiceId} {f : Service → Service} {o : Oracle}
      (h : (c.service i).Fades (f (c.service i))) :
      Fades c ({ c with oracle := o }.adjust i f) := by
    have hgiven : Fades c { c with oracle := o } := .of_services rfl rfl
    exact trans_of Fades hgiven (.adjust h)
  cases command with
  | call => exact absurd trivial hconverses
  | serve => exact absurd trivial hconverses
  | unregisterNonexistent => exact absurd trivial hconverses
  | awaitMember => exact absurd trivial hconverses
  | suggest i grain silo => exact absurd rfl (hother i grain silo)
  | localLookup i grain =>
    rw [Command.perform, Activity.run_bind]
    exact .adjust (f := fun _ => _) (Service.fades_localLookup _ _ _)
  | cachedAddress i grain =>
    rw [Command.perform, Activity.run_bind]
    exact .adjust (f := fun _ => _) (Service.fades_cachedAddress _ _ _)
  | forget i grain =>
    rw [Command.perform, Command.run_flagged]
    exact .adjust (f := fun _ => _) (Service.fades_forget _ _ _)
  | forgetAddress i address =>
    rw [Command.perform, Command.run_flagged]
    exact .adjust (f := fun _ => _) (Service.fades_forgetAddress _ _ _)
  | follow i event => exact .adjust (Service.fades_follow _ _ _)
  | addSilo i silo =>
    rw [Command.perform, Command.run_flagged]
    exact .adjust (f := fun _ => _) (Service.fades_addSilo _ _ _)
  | removeSilo i silo status =>
    rw [Command.perform, Command.run_flagged]
    exact .adjust (f := fun _ => _) (Service.fades_removeSilo _ _ _ _)
  | deliver i =>
    show Fades c (c.deliver i)
    unfold deliver
    split
    · exact refl_of Fades c
    · split
      · exact refl_of Fades c
      · exact hadjust (Service.fades_follow _ _ _)
  | install b =>
    rw [Command.perform, Activity.run_act]
    split
    · exact refl_of Fades c
    · rename_i hinstall
      exact fades_install hinstall
  | start i => exact hadjust (Service.fades_start _ _)
  | stop i => exact hadjust (Service.fades_stop _ _)
  | dismiss label => exact fades_dismiss c label
  | kill i => exact fades_kill c i
  | attach i => exact .of_services rfl rfl
  | detach silo => exact .of_services rfl rfl
  | script silo answer => exact .of_services rfl rfl
  | unscript silo => exact .of_services rfl rfl
  | report silo status => exact .of_services rfl rfl
  | elapse time => exact .of_services rfl rfl

end Commands

end Cluster

end GrainDirectory

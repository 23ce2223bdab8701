import GrainDirectory.Proofs.Housekeeping
import GrainDirectory.Proofs.Scenes
import GrainDirectory.Proofs.Stores
import GrainDirectory.Proofs.Tags
set_option autoImplicit false

/-!
# What a service answers on its own

A service that is asked for a grain without asking its owner answers from its cache, and tags the answer
with zero, or from its own partition, with the tag of the registration.  That the tag tells the two apart
takes an invariant of all runs: no partition ever has a tag that is not positive (`Partition.Tagged`).
What a service serves of calls keeps it, whatever else goes on (`Stock.ServesAll.tagged`), and so does
what it does outside calls (`Service.Tidies.tagged`).

The main statement is `answers_locally`.
-/

namespace GrainDirectory

/-! ## Positive tags -/

namespace Partition

/-- Whether the tags of a partition are positive, and those that come will be. -/
structure Tagged (p : Partition) : Prop where
  next : ∃ k, p.nextTag = tagAt k
  stored : ∀ id r, p.registration? id = some r → 0 < r.tag

variable {p p' : Partition}

theorem Tagged.of_within (h : p.Tagged) (htag : p'.nextTag = p.nextTag) (hwithin : p'.Within p) :
    p'.Tagged :=
  ⟨htag.symm ▸ h.next, fun id r hr => h.stored id r (hwithin id r hr)⟩

theorem Tagged.filter (h : p.Tagged) (keep : Registration → Bool) :
    ({ p with entries := p.entries.filter keep } : Partition).Tagged := by
  refine h.of_within rfl fun id r hr => ?_
  have hfilter : (p.registration? id).filter keep = some r :=
    (Table.find?_filter p.entries keep id).symm.trans hr
  exact (Option.filter_eq_some_iff.mp hfilter).1

theorem Tagged.insert (h : p.Tagged) (now : Nat) (address : GrainAddress) :
    (p.insert now address).2.Tagged := by
  obtain ⟨k, hk⟩ := h.next
  refine ⟨⟨k + 1, ?_⟩, fun id r hr => ?_⟩
  · rw [← tagAfter_tagAt, ← hk]
    rfl
  · rw [registration?_insert] at hr
    split at hr
    · cases hr
      exact hk ▸ zero_lt_tagAt k
    · exact h.stored id r hr

/-- An action keeps tags positive. -/
theorem Tagged.apply (h : p.Tagged) (m : Moment) (action : Action) : (p.apply m action).2.Tagged := by
  cases action with
  | register address previous =>
    show (p.add m.oracle m.now address previous).2.Tagged
    by_cases hinserts : p.Inserts m.oracle address previous
    · rw [p.add_of_inserts m.oracle m.now hinserts]
      exact h.insert m.now address
    · rw [p.add_of_not_inserts m.oracle m.now hinserts]
      exact h
  | unregister address cause =>
    exact h.of_within (p.settings_removeActivation m.now address.grain address.activation cause).1
      (p.within_removeActivation m.now address cause)
  | lookup grain => exact h
  | delete grain => exact h.of_within (p.settings_removeGrain grain).1 (p.within_removeGrain grain)

/-- The tags of an empty partition are those that come. -/
theorem tagged_of_entries_empty (hempty : p.entries = .empty) (hnext : p.nextTag = 1) : p.Tagged := by
  refine ⟨⟨0, hnext.trans (by decide)⟩, fun id r hr => ?_⟩
  rw [registration?, hempty] at hr
  cases hr

end Partition

theorem Stock.ServesAll.tagged {asks : Action → Prop} {s s' : Stock} (h : ServesAll asks s s')
    (htagged : s.partition.Tagged) : s'.partition.Tagged := by
  induction h with
  | refl => exact htagged
  | tail _ hlast ih =>
    cases hlast with
    | served m _ _ _ => exact ih.apply m _

theorem Service.Tidies.tagged {s t : Service} (h : s.Tidies t) (htagged : s.partition.Tagged) :
    t.partition.Tagged := by
  obtain ⟨keep, hkeep⟩ := h.partition
  rw [hkeep]
  exact htagged.filter keep

namespace Scene

variable {n : ServiceId} {s : Scene}

/-- What every beat keeps of a service: its tags are positive, and whoever goes on serves it nothing but
what is asked for. -/
structure KeepsTags (n : ServiceId) (s : Scene) : Prop where
  tagged : (s.service n).partition.Tagged
  heeds : ∀ task ∈ s.tasks, task.progress.Heeds (Cluster.Serving task.command.Asks n)

/-- A command keeps the tags of a service positive; what it has still to do does so, too. -/
theorem tagged_advance {c : Cluster} (h : (c.service n).partition.Tagged) (command : Command)
    (moment : Nat) :
    ((Progress.advance moment command.perform c).2.service n).partition.Tagged ∧
      (Progress.advance moment command.perform c).1.Heeds (Cluster.Serving command.Asks n) := by
  by_cases hconverses : command.Converses
  · obtain ⟨hserving, hheeds⟩ :=
      (Cluster.obeys_perform (n := n) (c := c) hconverses).advance moment
    exact ⟨hserving.stock.tagged h, hheeds⟩
  · rw [Cluster.advance_perform hconverses]
    refine ⟨?_, trivial⟩
    rcases Cluster.tidies_perform (c := c) hconverses with htidies | ⟨b, t, rfl, hbuild, hafter⟩
    · exact (htidies.service n).tagged h
    · dsimp only
      rw [hafter, Cluster.service_append]
      split
      · obtain ⟨hpartition, -, -⟩ := Service.empty_of_build hbuild
        refine Partition.tagged_of_entries_empty hpartition ?_
        unfold Blueprint.build at hbuild
        split at hbuild
        · cases hbuild
        · split_ifs at hbuild
          cases hbuild
          rfl
      · exact ((Cluster.tidies_dismiss c b.label).service n).tagged h

theorem KeepsTags.next (h : KeepsTags n s) (beat : Beat) : KeepsTags n (s.next beat) := by
  cases beat with
  | begins command moment =>
    obtain ⟨htagged, hheeds⟩ := tagged_advance h.tagged command moment
    refine ⟨htagged, fun task htask => ?_⟩
    rcases List.mem_append.mp htask with hold | hnew
    · exact h.heeds task hold
    · rw [List.mem_singleton.mp hnew]
      exact hheeds
  | resumes index moment =>
    cases htask : s.tasks[index]? with
    | none =>
      rw [next_resumes_of_none htask]
      exact h
    | some task =>
      obtain ⟨hserving, hheeds⟩ :=
        (h.heeds task (List.mem_of_getElem? htask)).resume moment s.cluster
      rw [next_resumes_of_some htask]
      refine ⟨hserving.stock.tagged h.tagged, fun other hother => ?_⟩
      rcases List.mem_or_eq_of_mem_set hother with hold | rfl
      · exact h.heeds other hold
      · exact hheeds

/-- Whatever has happened since there was no service, the tags of a service are positive. -/
theorem tagged_after {c : Cluster} (hnone : c.services = []) (n : ServiceId) (beats : List Beat) :
    (((c.scene.after beats).service n).partition).Tagged := by
  have hdefault : (c.scene.service n).partition = default := by
    show (c.service n).partition = default
    rw [Cluster.service, hnone]
    rfl
  have hstart : KeepsTags n c.scene :=
    ⟨hdefault ▸ Partition.tagged_of_entries_empty rfl rfl, fun _ htask => absurd htask List.not_mem_nil⟩
  exact (List.foldlRecOn (motive := KeepsTags n) beats next hstart
    fun _ h beat _ => h.next beat).tagged

end Scene

/-! ## What a look into the cache leaves -/

namespace Cache

/-- Whether a cache shows the same as another one, now and later, and has forgotten at most what is past
its time to live. -/
structure ShowsAs (now : Nat) (c c' : Cache) : Prop where
  kind : c'.kind = c.kind
  timeToLive : c'.timeToLive = c.timeToLive
  found : ∀ time, now ≤ time → ∀ id, c'.find? time id = c.find? time id
  listed : ∀ time, now ≤ time → c'.visible time = c.visible time
  lasting : c.timeToLive = none → c' = c

theorem ShowsAs.refl (now : Nat) (c : Cache) : c.ShowsAs now c :=
  ⟨rfl, rfl, fun _ _ _ => rfl, fun _ _ => rfl, fun _ => rfl⟩

theorem fresh_of_later {c : Cache} {now later : Nat} {e : CacheEntry} (h : c.Fresh later e)
    (hle : now ≤ later) : c.Fresh now e := fun life hlife => Nat.lt_of_le_of_lt hle (h life hlife)

theorem showsAs_sweep (c : Cache) (now : Nat) (upkeep : Upkeep) (h : c.timeToLive ≠ none) :
    c.ShowsAs now { c.sweep now none with upkeep := upkeep } := by
  have hkept {time : Nat} (hle : now ≤ time) (e : CacheEntry) :
      (decide (c.Fresh time e) && decide (c.Fresh now e ∨ some e.grainId = none)) =
        decide (c.Fresh time e) := by
    by_cases hfresh : c.Fresh time e
    · simp [hfresh, fresh_of_later hfresh hle]
    · simp [hfresh]
  refine ⟨rfl, rfl, fun time hle id => ?_, fun time hle => ?_, fun hnone => absurd hnone h⟩
  · show ((c.entries.filter _).find? id).filter (fun e => decide (c.Fresh time e)) = _
    rw [Table.find?_filter, Option.filter_filter]
    simp only [Bool.and_comm (decide (c.Fresh now _ ∨ _)), hkept hle]
    rfl
  · show (c.entries.filter _).rows.filter (fun e => decide (c.Fresh time e)) = _
    rw [Table.filter, List.filter_filter]
    simp only [hkept hle]
    rfl

theorem showsAs_noteRead (c : Cache) (now : Nat) : c.ShowsAs now (c.noteRead now) := by
  unfold noteRead
  split
  · exact .refl now c
  · rename_i hlife
    split
    · exact showsAs_sweep c now _ hlife
    · exact ⟨rfl, rfl, fun _ _ _ => rfl, fun _ _ => rfl, fun hnone => absurd hnone hlife⟩

end Cache

/-! ## The answer -/

namespace Service

variable (s : Service) (m : Moment) (g : Grain)

/-- Who owns a grain is told, but for the membership table, which belongs to nobody while no seed is
configured. -/
theorem eq_missingSeed_of_owner?_error {s : Service} {g : Grain} {e : Error}
    (h : s.owner? g = .error e) : e = .missingSeed g ∧ s.config.seed = none := by
  unfold owner? Resolver.owner? at h
  split at h
  · split at h
    · rename_i hseed
      exact ⟨(Except.error.inj h).symm, hseed.2⟩
    · cases h
  · cases h

variable {s g}

theorem localLookup_of_error {e : Error} (h : s.owner? g = .error e) :
    (s.localLookup m g).1 = .error e := by
  unfold localLookup
  rw [h]

theorem localLookup_of_unowned (h : s.owner? g = .ok none) : (s.localLookup m g).1 = .ok none := by
  unfold localLookup
  rw [h]

/-- Of a grain that has an owner, the cache is asked first, and then, if the owner is the service itself,
the partition. -/
theorem localLookup_of_owner {owner : Silo} (h : s.owner? g = .ok (some owner)) :
    (s.localLookup m g).1 = .ok (((s.trustedEntry? m g).map fun e =>
      .found e.address TaggedAddress.cachedTag).or
        (if owner.id = s.home.id then (s.partition.registration? g.id).map (·.answer) else none)) := by
  unfold localLookup cachedAddress
  rw [h]
  cases s.trustedEntry? m g with
  | some e => rfl
  | none =>
    dsimp only [Option.map_none, count]
    by_cases hid : owner.id = s.home.id
    · rw [if_neg (not_not.mpr hid), if_pos hid]
      cases s.partition.registration? g.id <;> rfl
    · rw [if_pos hid, if_neg hid]
      rfl

variable {m}

theorem trustedEntry?_eq_some_iff {e : CacheEntry} :
    s.trustedEntry? m g = some e ↔
      s.cache.find? m.now g.id = some e ∧ s.Trusts m.oracle e.address.silo := by
  unfold trustedEntry?
  rw [Option.filter_eq_some_iff, decide_eq_true_eq]

theorem trustedEntry?_eq_none_iff :
    s.trustedEntry? m g = none ↔
      ∀ e, s.cache.find? m.now g.id = some e → ¬ s.Trusts m.oracle e.address.silo := by
  rw [Option.eq_none_iff_forall_ne_some]
  simp only [ne_eq, trustedEntry?_eq_some_iff, not_and]

variable (s m g)

/-- Nothing is kept otherwise after a lookup but the counts and the cache. -/
theorem localLookup_leaves : ∃ cache metrics,
    (s.localLookup m g).2 = { s with cache := cache, metrics := metrics } ∧
      s.cache.ShowsAs m.now cache := by
  rcases s.service_localLookup m g with hsame | ⟨metrics, hsame⟩
  · exact ⟨s.cache, s.metrics, hsame, .refl m.now s.cache⟩
  · exact ⟨s.cache.noteRead m.now, metrics, hsame, s.cache.showsAs_noteRead m.now⟩

end Service

/-- What a service may answer on its own about a grain, and what it leaves behind. -/
structure AnswersLocally (c : Cluster) (n : ServiceId) (g : Grain) (answer : Except Error Answer)
    (c' : Cluster) : Prop where
  /-- The service is asked, and nobody else; nothing is sent, and only the counts and the cache of the
  service may be touched. -/
  frame : ∃ cache metrics, c' = c.adjust n fun s => { s with cache := cache, metrics := metrics }
  /-- Nobody is called. -/
  silent : c'.calls = c.calls
  /-- The partition and the ring are what they were, -/
  partition : (c'.service n).partition = (c.service n).partition
  ring : (c'.service n).ring = (c.service n).ring
  /-- and the cache shows what it showed, at this moment and at all later ones. -/
  cache : (c.service n).cache.ShowsAs c.clock (c'.service n).cache
  /-- If the answer fails, the service does not know who owns the grain, for want of a seed. -/
  failed : ∀ e, answer = .error e → (c.service n).owner? g = .error e ∧ e = .missingSeed g ∧
    (c.service n).config.seed = none
  /-- Otherwise a location is told, with an address, or nothing. -/
  told : ∀ a, answer = .ok a → a = .located none ∨
    ∃ address tag, a = .located (some (.found address tag)) ∧ 0 ≤ tag
  /-- A location with the tag zero is what the cache has of the grain now, and it is on the own silo or on
  one that the oracle knows and that is not going away. -/
  hinted : ∀ address, answer = .ok (.located (some (.found address 0))) →
    (∃ e, (c.service n).cache.find? c.clock g.id = some e ∧ e.address = address) ∧
      (address.silo.id = (c.service n).home.id ∨ c.oracle.status address.silo ≠ .none ∧
        (c.oracle.status address.silo).isTerminating = false)
  /-- A location with another tag is what is registered for the grain now, with a positive tag; the service
  owns the grain, and its cache has no entry for it on a silo that is trusted. -/
  registered : ∀ address tag, answer = .ok (.located (some (.found address tag))) → tag ≠ 0 →
    0 < tag ∧
      (∃ since, (c.service n).partition.registration? g.id = some ⟨address, tag, since⟩) ∧
      (∃ owner, (c.service n).owner? g = .ok (some owner) ∧ owner.id = (c.service n).home.id) ∧
      ∀ e, (c.service n).cache.find? c.clock g.id = some e →
        ¬ (c.service n).Trusts c.oracle e.address.silo
  /-- Nothing is told exactly if there is no owner, or there is no such entry and the owner is another silo
  or nothing is registered. -/
  nothing : answer = .ok (.located none) ↔ (c.service n).owner? g = .ok none ∨
    ∃ owner, (c.service n).owner? g = .ok (some owner) ∧
      (∀ e, (c.service n).cache.find? c.clock g.id = some e →
        ¬ (c.service n).Trusts c.oracle e.address.silo) ∧
      (owner.id ≠ (c.service n).home.id ∨ (c.service n).partition.registration? g.id = none)

namespace Service

variable {s : Service} {m : Moment} {g : Grain} {t : TaggedAddress}

/-- A location that is told is what the cache has on a trusted silo; or there is no such entry, the
service owns the grain, and it is what is registered. -/
theorem localLookup_found (h : (s.localLookup m g).1 = .ok (some t)) :
    (∃ e, s.trustedEntry? m g = some e ∧ t = .found e.address TaggedAddress.cachedTag) ∨
      s.trustedEntry? m g = none ∧
        (∃ owner, s.owner? g = .ok (some owner) ∧ owner.id = s.home.id) ∧
          ∃ r, s.partition.registration? g.id = some r ∧ t = r.answer := by
  cases howner : s.owner? g with
  | error e =>
    rw [localLookup_of_error m howner] at h
    cases h
  | ok owner? =>
    cases owner? with
    | none =>
      rw [localLookup_of_unowned m howner] at h
      cases h
    | some owner =>
      rw [localLookup_of_owner m howner, Except.ok.injEq, Option.or_eq_some_iff] at h
      rcases h with hhint | ⟨hno, hregistered⟩
      · obtain ⟨e, he, ht⟩ := Option.map_eq_some_iff.mp hhint
        exact .inl ⟨e, he, ht.symm⟩
      · rw [Option.ite_none_right_eq_some] at hregistered
        obtain ⟨r, hr, ht⟩ := Option.map_eq_some_iff.mp hregistered.2
        exact .inr ⟨Option.map_eq_none_iff.mp hno, ⟨owner, rfl, hregistered.1⟩, r, hr, ht.symm⟩

theorem localLookup_nothing_iff : (s.localLookup m g).1 = .ok none ↔ s.owner? g = .ok none ∨
    ∃ owner, s.owner? g = .ok (some owner) ∧ s.trustedEntry? m g = none ∧
      (owner.id ≠ s.home.id ∨ s.partition.registration? g.id = none) := by
  cases howner : s.owner? g with
  | error e => simp [localLookup_of_error m howner]
  | ok owner? =>
    cases owner? with
    | none => simp [localLookup_of_unowned m howner]
    | some owner =>
      rw [localLookup_of_owner m howner]
      by_cases hid : owner.id = s.home.id <;> simp [hid]

end Service

/-- What a service answers on its own, in whatever state a run of the cluster has left it. -/
theorem answers_locally {c : Cluster} (hnone : c.services = []) (beats : List Beat) {n : ServiceId}
    (hn : n < (c.scene.after beats).cluster.services.length) (g : Grain) (moment : Nat) :
    ∃ answer c', Progress.advance moment (Command.localLookup n g).perform
        (c.scene.after beats).cluster = (.ended answer, c') ∧
      AnswersLocally (c.scene.after beats).cluster n g answer c' := by
  have htagged := Scene.tagged_after hnone n beats
  revert hn htagged
  show n < _ → ((c.scene.after beats).cluster.service n).partition.Tagged → _
  generalize (c.scene.after beats).cluster = c
  intro hn htagged
  obtain ⟨cache, metrics, hleaves, hcache⟩ := (c.service n).localLookup_leaves c.moment g
  have hafter : c.adjust n (fun _ => ((c.service n).localLookup c.moment g).2) =
      c.adjust n fun s => { s with cache := cache, metrics := metrics } := by
    rw [hleaves]
    exact c.adjust_worked_out n fun s => { s with cache := cache, metrics := metrics }
  have hservice : (c.adjust n fun _ => ((c.service n).localLookup c.moment g).2).service n =
      { c.service n with cache := cache, metrics := metrics } := by
    rw [Cluster.service_adjust_self hn, hleaves]
  have hcached : TaggedAddress.cachedTag = 0 := rfl
  -- What is answered is found in one of two places, or it is nothing, or the owner is not known.
  have hfound {t : TaggedAddress} {a : Answer} (ha : a = .located (some t))
      (h : ((c.service n).localLookup c.moment g).1.map Answer.located = .ok a) :
      ((c.service n).localLookup c.moment g).1 = .ok (some t) := by
    cases hanswer : ((c.service n).localLookup c.moment g).1 with
    | error e => rw [hanswer] at h; cases h
    | ok t' =>
      rw [hanswer] at h
      cases ha
      cases h
      rfl
  refine ⟨((c.service n).localLookup c.moment g).1.map .located,
    c.adjust n fun _ => ((c.service n).localLookup c.moment g).2, rfl, ?_⟩
  constructor
  case frame => exact ⟨cache, metrics, hafter⟩
  case silent => rfl
  case partition => rw [hservice]
  case ring => rw [hservice]
  case cache =>
    rw [hservice]
    exact hcache
  case failed =>
    intro e he
    cases hanswer : ((c.service n).localLookup c.moment g).1 with
    | error e' =>
      rw [hanswer] at he
      cases he
      have howner := (c.service n).owner?_of_localLookup_error c.moment hanswer
      exact ⟨howner, Service.eq_missingSeed_of_owner?_error howner⟩
    | ok t => rw [hanswer] at he; cases he
  case told =>
    intro a ha
    cases hanswer : ((c.service n).localLookup c.moment g).1 with
    | error e => rw [hanswer] at ha; cases ha
    | ok t? =>
      rw [hanswer] at ha
      cases ha
      cases t? with
      | none => exact .inl rfl
      | some t =>
        refine .inr ?_
        rcases Service.localLookup_found hanswer with ⟨e, -, rfl⟩ | ⟨-, -, r, hr, rfl⟩
        · exact ⟨e.address, _, rfl, Int32.le_refl 0⟩
        · exact ⟨r.address, r.tag, rfl, Int32.le_of_lt (htagged.stored _ r hr)⟩
  case hinted =>
    intro address ha
    rcases Service.localLookup_found (hfound rfl ha) with ⟨e, he, ht⟩ | ⟨-, -, r, hr, ht⟩
    · cases ht
      obtain ⟨hsees, htrusts⟩ := Service.trustedEntry?_eq_some_iff.mp he
      refine ⟨⟨e, hsees, rfl⟩, htrusts.imp id fun hfunctional => ?_⟩
      exact (SiloStatus.isFunctional_iff _).mp hfunctional
    · have htag : 0 = r.tag := congrArg TaggedAddress.tag ht
      exact absurd (htagged.stored _ r hr) (htag ▸ Int32.lt_irrefl)
  case registered =>
    intro address tag ha htag
    rcases Service.localLookup_found (hfound rfl ha) with ⟨e, -, ht⟩ | ⟨hno, howner, r, hr, ht⟩
    · cases ht
      exact absurd hcached htag
    · cases ht
      exact ⟨htagged.stored _ r hr, ⟨r.since, hr⟩, howner, Service.trustedEntry?_eq_none_iff.mp hno⟩
  case nothing =>
    have hnothing : ((c.service n).localLookup c.moment g).1.map Answer.located =
        .ok (.located none) ↔ ((c.service n).localLookup c.moment g).1 = .ok none := by
      cases ((c.service n).localLookup c.moment g).1 <;> simp [Except.map]
    rw [hnothing, Service.localLookup_nothing_iff]
    simp only [Service.trustedEntry?_eq_none_iff]
    rfl

/-- An activation at a service that is alone. -/
def soleActivation : GrainAddress := ⟨⟨⟨⟨"user"⟩, "k"⟩, 5⟩, ⟨1⟩, ⟨⟨.v4 1 1, 1⟩, 10⟩⟩

/-- The service starts, the activation is registered, and the cache is made to forget it. -/
def cacheForgets : List Beat :=
  [.begins (.install { label := "a", home := soleActivation.silo }) 0, .begins (.start 0) 0,
    .begins (.call 0 (.single (.register soleActivation none) 0)) 0,
    .begins (.forget 0 soleActivation.grain) 0]

theorem answers_locally_cacheForgets :
    ({} : Cluster).services = [] ∧
      0 < ((({} : Cluster).scene).after cacheForgets).cluster.services.length ∧
      ∃ answer c', Progress.advance 0 (Command.localLookup 0 soleActivation.grain).perform
          (({} : Cluster).scene.after cacheForgets).cluster = (.ended answer, c') ∧
        AnswersLocally (({} : Cluster).scene.after cacheForgets).cluster 0 soleActivation.grain answer c' ∧
        answer = .ok (.located (some (.found soleActivation 1))) := by
  have hn : 0 < ((({} : Cluster).scene).after cacheForgets).cluster.services.length := by decide
  refine ⟨rfl, hn, ?_⟩
  obtain ⟨answer, c', hadvance, hanswers⟩ :=
    answers_locally (c := {}) rfl cacheForgets hn soleActivation.grain 0
  refine ⟨answer, c', hadvance, hanswers, ?_⟩
  have hended : Progress.ended answer = .ended (.ok (.located (some (.found soleActivation 1)))) :=
    (congrArg Prod.fst hadvance).symm.trans rfl
  cases hended
  rfl

end GrainDirectory

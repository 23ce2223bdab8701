import GrainDirectory.Proofs.BatchRemoval
set_option autoImplicit false

/-!
# Reading one's own writes

Whoever changes the registration of a grain and then looks the grain up, at the same service, sees what
the change left behind, whatever the services on the way believe.  Where an action goes is decided by
its grain and its hops, so a lookup goes the way that the change went.  It can only end sooner, with a
service that does not trust the owner that it believes in.

The main statement is `reads_own_writes`.
-/

namespace GrainDirectory

/-! ## What a partition finds after a change -/

namespace Partition

variable (p : Partition) (now : Nat)

theorem lookup_removeGrain (g : Grain) : (p.removeGrain g).2.lookup g = .none := by
  rw [lookup, registration?_removeGrain, if_pos rfl]

/-- An activation that is removed by force is not registered any more. -/
theorem activation_ne_of_registration?_removeAll {addresses : List GrainAddress} {a : GrainAddress}
    {r : Registration} (ha : a ∈ addresses)
    (hr : (p.removeAll now .force addresses).registration? a.grain.id = some r) :
    r.address.activation ≠ a.activation := by
  have hgrain : r.grainId = a.grain.id := registration?_grainId hr
  rw [registration?_removeAll, Option.filter_eq_some_iff, decide_eq_true_eq] at hr
  exact fun hactivation => hr.2 a ha ⟨hgrain, hactivation, trivial⟩

/-- Nor is it found. -/
theorem activation_ne_of_lookup_removeAll {addresses : List GrainAddress} {a found : GrainAddress}
    (ha : a ∈ addresses)
    (h : ((p.removeAll now .force addresses).lookup a.grain).address = some found) :
    found.activation ≠ a.activation := by
  unfold lookup at h
  split at h
  · rename_i r hr
    cases h
    exact p.activation_ne_of_registration?_removeAll now ha hr
  · cases h

end Partition

/-! ## The way of a lookup -/

namespace Service

variable {s : Service} {o : Oracle} {action : Action} {hop : UInt32} {owner : Silo}

/-- A lookup is served where anything else about its grain is. -/
theorem verdict_lookup_of_serve (h : s.verdict o action hop = .serve) :
    s.verdict o (.lookup action.grain) hop = .serve := by
  have hanswers : s.Answers action.grain := serve_iff_answers.mp h
  exact serve_iff_answers.mpr hanswers

/-- A lookup is forwarded where anything else about its grain is, if the owner is trusted. -/
theorem verdict_lookup_of_forward (h : s.verdict o action hop = .forward owner) :
    s.verdict o (.lookup action.grain) hop = .forward owner ∨
      s.verdict o (.lookup action.grain) hop =
        .refuse (.unstableTarget action.grain s.home owner) := by
  have hforward := checkForward_of_forward h
  have hcheck : s.resolver.checkForward (Action.lookup action.grain).grain hop
      (Action.lookup action.grain).operation.name = .ok (some owner) :=
    checkForward_transfer rfl hforward
  rw [verdict, hcheck]
  dsimp only
  split
  · exact .inr rfl
  · exact .inl rfl

end Service

namespace Cluster

/-- A lookup ends where anything else about its grain does, unless it ends with an owner that is not
trusted. -/
theorem Journey.lookup {c : Cluster} {action : Action} {i last : ServiceId} {hop : UInt32}
    {before : List ServiceId} (h : Journey c action i hop before last none) :
    Journey c (.lookup action.grain) i hop before last none ∨
      ∃ before' last' here owner, Journey c (.lookup action.grain) i hop before' last'
        (some (.unstableTarget action.grain here owner)) := by
  generalize hserved : (none : Option Error) = failure at h
  induction h with
  | served hverdict => exact .inl (hserved ▸ .served (Service.verdict_lookup_of_serve hverdict))
  | refused _ => cases hserved
  | stranded _ _ => cases hserved
  | onward hverdict hj _ ih =>
    rcases Service.verdict_lookup_of_forward hverdict with hforward | hrefuse
    · rcases ih hserved with hrest | ⟨before', last', here, owner, hrest⟩
      · exact .inl (.onward hforward hj hrest)
      · exact .inr ⟨_, last', here, owner, .onward hforward hj hrest⟩
    · exact .inr ⟨_, _, _, _, .refused hrefuse⟩

/-- The reply to a lookup at a service some time later. -/
def laterLookup (c : Cluster) (i : ServiceId) (g : Grain) (hop : UInt32) (time : Nat) : Reply :=
  ((call i (.single (.lookup g) hop)).run (c.elapse time)).1

/-- Whether a lookup of a grain is answered as expected, or fails for an owner on its way that is not
trusted. -/
def Reads (g : Grain) (reply : Reply) (expected : TaggedAddress → Prop) : Prop :=
  (∃ answer, reply = .ok (.located answer) ∧ expected answer) ∨
    ∃ here owner, reply = .error (.unstableTarget g here owner)

theorem Reads.mono {g : Grain} {reply : Reply} {expected expected' : TaggedAddress → Prop}
    (h : Reads g reply expected) (himp : ∀ t, expected t → expected' t) :
    Reads g reply expected' := by
  rcases h with ⟨answer, hreply, hanswer⟩ | herror
  · exact .inl ⟨answer, hreply, himp answer hanswer⟩
  · exact .inr herror

/-- A lookup reads the partition of the service where the journey of something else about the grain
has ended, as long as the outline of the cluster stays. -/
theorem reads_of_journey {c c' : Cluster} (hwiring : c.wiring ≠ .framed) {i last : ServiceId}
    (hi : i < c.services.length) {action : Action} {hop : UInt32} {before : List ServiceId}
    (hjourney : Journey (c.engage i) action i hop before last none) (hkeep : c'.outline = c.outline)
    (time : Nat) :
    Reads action.grain (c'.laterLookup i action.grain hop time)
      (· = (c'.service last).partition.lookup action.grain) := by
  have hengaged : (c'.engage i).outline = (c.engage i).outline :=
    congrArg (Cluster.engage · i) hkeep
  have hagrees : Agrees (c.engage i) ((c'.elapse time).engage i) :=
    (Agrees.of_outline hengaged).trans (Agrees.elapse (c'.engage i) time)
  have hwiring' : c'.wiring ≠ .framed := by
    rw [wiring_eq_of_outline hkeep]
    exact hwiring
  have hi' : i < c'.services.length := by
    rw [length_eq_of_outline hkeep]
    exact hi
  obtain ⟨before', last', failure, hlookup, hconcluded⟩ :=
    call_action (c := c'.elapse time) hwiring' hi' (.lookup action.grain) hop
  rcases hjourney.lookup with hsame | ⟨before'', last'', here, owner, hfailed⟩
  · obtain ⟨rfl, rfl, rfl⟩ := (hsame.congr hagrees).unique hlookup
    exact .inl ⟨_, hconcluded.1, rfl⟩
  · obtain ⟨rfl, rfl, rfl⟩ := (hfailed.congr hagrees).unique hlookup
    exact .inr ⟨here, owner, hconcluded.1⟩

/-- After an action that has succeeded, a lookup reads what the partition that served it was left
with. -/
theorem reads_after_action {c : Cluster} (hwiring : c.wiring ≠ .framed) {i : ServiceId}
    (hi : i < c.services.length) {action : Action} {hop : UInt32} {outcome : Outcome}
    (h : ((call i (.single action hop)).run c).1 = .ok outcome) (time : Nat) :
    ∃ p : Partition, outcome = (p.apply c.moment action).1 ∧
      Reads action.grain
        (((call i (.single action hop)).run c).2.laterLookup i action.grain hop time)
        (· = (p.apply c.moment action).2.lookup action.grain) := by
  obtain ⟨before, last, failure, hjourney, hconcluded⟩ := call_action hwiring hi action hop
  have hkeep := outline_call i (.single action hop) c
  cases failure with
  | some e => cases h.symm.trans hconcluded.1
  | none =>
    obtain ⟨hreply, hbooks⟩ := hconcluded
    have hlast := congrArg Books.partition (congrFun hbooks last)
    rw [Function.update_self] at hlast
    have hpartition : (((call i (.single action hop)).run c).2.service last).partition =
        ((c.service last).partition.apply c.moment action).2 := hlast
    refine ⟨(c.service last).partition, Except.ok.inj (h.symm.trans hreply), ?_⟩
    have hreads := reads_of_journey hwiring hi hjourney hkeep time
    rw [hpartition] at hreads
    exact hreads

/-- A batch that has succeeded has had each of its addresses removed, among others, from the partition where
the journey of a single removal ends. -/
theorem removed_after_batch {c : Cluster} (hwiring : c.wiring ≠ .framed) {i : ServiceId}
    (hi : i < c.services.length) {addresses : List GrainAddress} {cause : RemovalCause}
    {hop : UInt32} {outcome : Outcome}
    (h : ((call i (.batch addresses cause hop)).run c).1 = .ok outcome) {address : GrainAddress}
    (haddress : address ∈ addresses) :
    ∃ before site portion, Journey (c.engage i) (.unregister address cause) i hop before site none ∧
      address ∈ portion ∧
      (((call i (.batch addresses cause hop)).run c).2.service site).partition =
        (c.service site).partition.removeAll c.clock cause portion := by
  obtain ⟨log, ⟨-, hsites⟩, hbooks, hperm, -⟩ := call_batch hwiring hi addresses cause hop
  obtain ⟨r, hr, rfl⟩ := List.mem_map.mp ((hperm outcome h).mem_iff.mpr haddress)
  obtain ⟨before, hjourney⟩ := hsites r hr
  have hsite := congrFun hbooks r.site
  rw [Removal.applyAll_eq, Books.foldl_apply] at hsite
  exact ⟨before, r.site, Removal.portion log r.site, hjourney,
    List.mem_map_of_mem (List.mem_filter.mpr ⟨hr, decide_eq_true rfl⟩),
    congrArg Books.partition hsite⟩

/-- After a batch that has succeeded, a lookup reads a partition that every occurrence of its grain has
been removed from. -/
theorem reads_after_batch {c : Cluster} (hwiring : c.wiring ≠ .framed) {i : ServiceId}
    (hi : i < c.services.length) {addresses : List GrainAddress} {cause : RemovalCause}
    {hop : UInt32} {outcome : Outcome}
    (h : ((call i (.batch addresses cause hop)).run c).1 = .ok outcome) {address : GrainAddress}
    (haddress : address ∈ addresses) (time : Nat) :
    ∃ (p : Partition) (portion : List GrainAddress), address ∈ portion ∧
      Reads address.grain
        (((call i (.batch addresses cause hop)).run c).2.laterLookup i address.grain hop time)
        (· = (p.removeAll c.clock cause portion).lookup address.grain) := by
  obtain ⟨before, site, portion, hjourney, hportion, hpartition⟩ :=
    removed_after_batch hwiring hi h haddress
  have hkeep := outline_call i (.batch addresses cause hop) c
  have hreads := reads_of_journey hwiring hi hjourney hkeep time
  rw [hpartition] at hreads
  exact ⟨_, _, hportion, hreads⟩

/-- What whoever has changed a registration at a service reads there afterwards. -/
structure ReadsOwnWrites (c : Cluster) (i : ServiceId) (hop : UInt32) (time : Nat) : Prop where
  /-- What a registration was answered is found. -/
  registered : ∀ address previous outcome,
    ((call i (.single (.register address previous) hop)).run c).1 = .ok outcome →
    ∃ answer, outcome = .located answer ∧ Reads address.grain
      (((call i (.single (.register address previous) hop)).run c).2.laterLookup i address.grain hop
        time) (· = answer)
  /-- After a deletion nothing is found. -/
  deleted : ∀ g outcome, ((call i (.single (.delete g) hop)).run c).1 = .ok outcome →
    Reads g (((call i (.single (.delete g) hop)).run c).2.laterLookup i g hop time)
      (· = TaggedAddress.none)
  /-- An activation that was removed by force is not found. -/
  unregistered : ∀ address outcome,
    ((call i (.single (.unregister address .force) hop)).run c).1 = .ok outcome →
    Reads address.grain
      (((call i (.single (.unregister address .force) hop)).run c).2.laterLookup i address.grain hop
        time)
      fun answer => ∀ found ∈ answer.address, found.activation ≠ address.activation
  /-- Nor is one that was removed by force in a batch. -/
  unregisteredMany : ∀ addresses outcome,
    ((call i (.batch addresses .force hop)).run c).1 = .ok outcome → ∀ address ∈ addresses,
    Reads address.grain
      (((call i (.batch addresses .force hop)).run c).2.laterLookup i address.grain hop time)
      fun answer => ∀ found ∈ answer.address, found.activation ≠ address.activation

/-- Everybody reads what it wrote, whatever the services of a cluster believe. -/
theorem reads_own_writes {c : Cluster} (hwiring : c.wiring ≠ .framed) {i : ServiceId}
    (hi : i < c.services.length) (hop : UInt32) (time : Nat) : ReadsOwnWrites c i hop time where
  registered := by
    intro address previous outcome h
    obtain ⟨p, rfl, hreads⟩ := reads_after_action hwiring hi h time
    refine ⟨_, rfl, hreads.mono fun t ht => ?_⟩
    rw [ht]
    exact p.lookup_add c.oracle c.clock address previous
  deleted := by
    intro g outcome h
    obtain ⟨p, -, hreads⟩ := reads_after_action hwiring hi h time
    refine hreads.mono fun t ht => ?_
    rw [ht]
    exact p.lookup_removeGrain g
  unregistered := by
    intro address outcome h
    obtain ⟨p, -, hreads⟩ := reads_after_action hwiring hi h time
    refine hreads.mono fun t ht found hfound => ?_
    -- The removal of one activation is the removal of a list of one.
    have hremoved : t = (p.removeAll c.clock .force [address]).lookup address.grain := ht
    rw [hremoved] at hfound
    exact p.activation_ne_of_lookup_removeAll c.clock (List.mem_singleton_self address) hfound
  unregisteredMany := by
    intro addresses outcome h address haddress
    obtain ⟨p, portion, hportion, hreads⟩ := reads_after_batch hwiring hi h haddress time
    refine hreads.mono fun t ht found hfound => ?_
    rw [ht] at hfound
    exact p.activation_ne_of_lookup_removeAll c.clock hportion hfound

/-- Three services, of which the first believes in the second and the second in the third. -/
def chainOfThree : Cluster :=
  let first : Silo := ⟨⟨.v4 1 1, 1⟩, 1⟩
  let second : Silo := ⟨⟨.v4 1 2, 1⟩, 2⟩
  let third : Silo := ⟨⟨.v4 1 3, 1⟩, 3⟩
  { oracle := .ofActive [first, second, third]
    services := [freshService first ⟨[second]⟩, freshService second ⟨[third]⟩,
      freshService third ⟨[third]⟩]
    routes := ((Table.empty.put ⟨first, 0⟩).put ⟨second, 1⟩).put ⟨third, 2⟩ }

/-- An activation at the first of them. -/
def chained : GrainAddress := ⟨⟨⟨⟨"g"⟩, "k"⟩, 0⟩, ⟨1⟩, (chainOfThree.service 0).home⟩

theorem reads_own_writes_chainOfThree :
    chainOfThree.wiring ≠ .framed ∧ 0 < chainOfThree.services.length ∧ ReadsOwnWrites chainOfThree 0 0 7 ∧
      ((call 0 (.single (.register chained none) 0)).run chainOfThree).1 =
        .ok (.located (.found chained 1)) ∧
      Reads chained.grain
        (((call 0 (.single (.register chained none) 0)).run chainOfThree).2.laterLookup 0 chained.grain 0 7)
        (· = .found chained 1) := by
  have hwiring : chainOfThree.wiring ≠ .framed := by decide
  have hlength : 0 < chainOfThree.services.length := by decide
  have hregister : ((call 0 (.single (.register chained none) 0)).run chainOfThree).1 =
      .ok (.located (.found chained 1)) := rfl
  have hreads := reads_own_writes hwiring hlength 0 7
  obtain ⟨answer, hanswer, hfound⟩ := hreads.registered chained none _ hregister
  cases hanswer
  exact ⟨hwiring, hlength, hreads, hregister, hfound⟩

end Cluster

end GrainDirectory

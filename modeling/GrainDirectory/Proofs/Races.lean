import GrainDirectory.Proofs.OneDirectory
import GrainDirectory.Proofs.Practice
import GrainDirectory.Proofs.Promptness
import GrainDirectory.Proofs.Scenes
set_option autoImplicit false

/-!
# Races

Several activations of one grain are to be registered, each at some service and in place of no other, and
others look for the grain meanwhile.  In a cluster that has settled the first wins: everybody is answered
its address under one tag, the site alone has it registered, and no cache says anything else.

All that a cluster knows of the grain is one registration, if any (`Cluster.Knows`).  One action of the
race settles it or leaves it as it is (`Knows.call`), and as nobody waits in a settled cluster, it makes no
difference how the clients take turns (`Scene.Racing.next`).
-/

namespace GrainDirectory

/-! ## The site -/

/-- What is told of a grain that has this registration, if any. -/
def toldOf (r? : Option Registration) : TaggedAddress := (r?.map (·.answer)).getD .none

/-- Whether an action is part of a race for a grain: it looks for the grain, or asks to register an
activation of it in place of no other. -/
def Action.Races (g : Grain) : Action → Prop
  | .register address previous => address.grain = g ∧ previous = none
  | .lookup grain => grain = g
  | _ => False

instance (g : Grain) (action : Action) : Decidable (action.Races g) :=
  match action with
  | .register _ _ => inferInstanceAs (Decidable (_ ∧ _))
  | .lookup grain => inferInstanceAs (Decidable (grain = g))
  | .unregister _ _ | .delete _ => inferInstanceAs (Decidable False)

theorem Action.Races.grain {g : Grain} {action : Action} (h : action.Races g) : action.grain = g := by
  cases action with
  | register address previous => exact h.1
  | lookup grain => exact h
  | _ => exact h.elim

/-- The registration of a grain after an action of a race: the one that there was, or the first that is
asked for. -/
def leader (tag : Int32) (now : Nat) (action : Action) (r? : Option Registration) :
    Option Registration :=
  r?.or (action.registers?.map fun a => ⟨a, tag, now⟩)

theorem mem_leader {tag : Int32} {now : Nat} {action : Action} {r? : Option Registration}
    {r : Registration} (hr : r ∈ r?) : r ∈ leader tag now action r? := by
  cases hr
  rfl

/-- Whether a cache entry says what is registered. -/
def Backs (r? : Option Registration) (e : CacheEntry) : Prop :=
  ∃ r ∈ r?, r.address.Same e.address ∧ r.tag = e.tag

theorem Backs.leader {tag : Int32} {now : Nat} {action : Action} {r? : Option Registration}
    {e : CacheEntry} (h : Backs r? e) : Backs (leader tag now action r?) e := by
  obtain ⟨r, hr, hsays⟩ := h
  exact ⟨r, mem_leader hr, hsays⟩

namespace Partition

variable {p : Partition} {m : Moment} {g : Grain} {action : Action} {r? : Option Registration}

theorem lookup_eq (p : Partition) (g : Grain) : p.lookup g = toldOf (p.registration? g.id) := by
  unfold lookup
  split <;> rename_i hr <;> rw [hr] <;> rfl

/-- In a race the first is registered, and everybody is told so. -/
theorem apply_races (haction : action.Races g) (hr : p.registration? g.id = r?)
    (hfirm : ∀ r ∈ r?, (m.oracle.status r.address.silo).isTerminating = false) :
    (p.apply m action).1 = .located (toldOf (leader p.nextTag m.now action r?)) ∧
      (p.apply m action).2.registration? g.id = leader p.nextTag m.now action r? := by
  subst hr
  cases action with
  | register address previous =>
    obtain ⟨rfl, rfl⟩ := haction
    cases hr : p.registration? address.grain.id with
    | none =>
      have hinserts : p.Inserts m.oracle address none := by
        intro r hr'
        cases hr.symm.trans hr'
      have hadd := p.add_of_inserts m.oracle m.now hinserts
      refine ⟨congrArg Outcome.located (congrArg Prod.fst hadd), ?_⟩
      show (p.add m.oracle m.now address none).2.registration? _ = _
      rw [hadd, registration?_insert, if_pos rfl]
      rfl
    | some r =>
      have hkeeps : ¬ p.Inserts m.oracle address none := by
        intro hinserts
        rcases (hinserts r hr).2 with ⟨_, hnone, -⟩ | ⟨-, hterminating⟩
        · cases hnone
        · cases (hfirm r hr).symm.trans hterminating
      have hadd := p.add_of_not_inserts m.oracle m.now hkeeps
      refine ⟨congrArg Outcome.located ((congrArg Prod.fst hadd).trans ?_), ?_⟩
      · rw [lookup_eq, hr]
        rfl
      · show (p.add m.oracle m.now address none).2.registration? _ = _
        rw [hadd, hr]
        rfl
  | lookup grain =>
    obtain rfl : grain = g := haction
    have hsame : leader p.nextTag m.now (.lookup grain) (p.registration? grain.id) =
        p.registration? grain.id := Option.or_none
    rw [hsame]
    exact ⟨congrArg Outcome.located (p.lookup_eq grain), rfl⟩
  | unregister => exact haction.elim
  | delete => exact haction.elim

end Partition

/-! ## The cluster -/

namespace Cluster

/-- Whether all that a cluster knows of a grain is one registration at its site, if any: no other service
has registered anything for it, and what a cache shows is this registration. -/
structure Knows (c : Cluster) (site : ServiceId) (id : GrainId) (r? : Option Registration) : Prop where
  registered : ∀ n, (c.service n).partition.registration? id = if n = site then r? else none
  cached : ∀ n e, (c.service n).cache.find? c.clock id = some e → Backs r? e

/-- Where a grain is registered at its site alone, all that is vouched for is this registration. -/
theorem backs_of_vouches {c : Cluster} {site : ServiceId} {r? : Option Registration} {e : CacheEntry}
    (hregistered : ∀ n, (c.service n).partition.registration? e.grainId =
      if n = site then r? else none) (h : c.Vouches e) : Backs r? e := by
  obtain ⟨n, r, hr, hsays⟩ := h
  rw [hregistered] at hr
  split at hr
  · exact ⟨r, hr, hsays⟩
  · cases hr

namespace Knows

variable {c : Cluster} {ring : Ring} {g : Grain} {action : Action} {r? : Option Registration}
  {site i : ServiceId}

/-- Caches only come to show less as time passes. -/
theorem elapse {id : GrainId} (h : c.Knows site id r?) (time : Nat) : (c.elapse time).Knows site id r? :=
  ⟨h.registered, fun n e he => h.cached n e (Cache.find?_of_later (Nat.le_add_right _ _) he)⟩

/-- An action of a race is answered what the cluster knows then, the cluster knows the first that was to be
registered, and whatever caches have come to store says so, seen or not. -/
theorem call (h : c.Knows (c.site ring g.position) g.id r?) (hstable : Stable c ring)
    (hi : i < c.services.length) (hordinary : g.isSystemTarget = false) (haction : action.Races g)
    (hfirm : ∀ r ∈ r?, (c.oracle.status r.address.silo).isTerminating = false)
    {r'? : Option Registration}
    (hleader : r'? = leader (c.service (c.site ring g.position)).partition.nextTag c.clock action r?) :
    ((Cluster.call i (.single action 0)).run c).1 = .ok (.located (toldOf r'?)) ∧
      ((Cluster.call i (.single action 0)).run c).2.Knows (c.site ring g.position) g.id r'? ∧
      ∀ n e, (((Cluster.call i (.single action 0)).run c).2.service n).cache.entries.find? g.id = some e →
        (c.service n).cache.entries.find? g.id = some e ∨ Backs r'? e := by
  obtain rfl := haction.grain
  obtain ⟨hreply, hpartitions⟩ := hstable.call_action hi hordinary
  obtain ⟨htold, hregistered⟩ := Partition.apply_races (m := c.moment) haction
    ((h.registered _).trans (if_pos rfl)) hfirm
  have hknown : ∀ n, (((Cluster.call i (.single action 0)).run c).2.service n).partition.registration?
      action.grain.id = if n = c.site ring action.grain.position then r'? else none := by
    intro n
    rw [hpartitions n]
    split
    · rename_i hn
      rw [hn, hregistered, hleader]
      rfl
    · rename_i hn
      rw [h.registered, if_neg hn]
  have hgains := ((fulfils_call_single hstable.direct hi action 0).run
    fun _ _ hgains => hgains.toLater).1
  have hstored : ∀ n e, (((Cluster.call i (.single action 0)).run c).2.service n).cache.entries.find?
      action.grain.id = some e →
      (c.service n).cache.entries.find? action.grain.id = some e ∨ Backs r'? e := by
    intro n e he
    have hgrain : e.grainId = action.grain.id := (Table.find?_eq_some_iff.mp he).2
    rcases hgains.cache n _ e he with hold | hvouched | hvouched
    · exact .inl hold
    · have hbacks := backs_of_vouches (fun n => hgrain ▸ h.registered n) hvouched
      exact .inr (hleader ▸ hbacks.leader)
    · exact .inr (backs_of_vouches (fun n => hgrain ▸ hknown n) hvouched)
  refine ⟨?_, ⟨hknown, fun n e he => ?_⟩, hstored⟩
  · rw [hreply, htold, hleader]
    rfl
  have hkeep := outline_call i (.single action 0) c
  have hclock : ((Cluster.call i (.single action 0)).run c).2.clock = c.clock :=
    congrArg Moment.now (moment_eq_of_outline hkeep)
  rw [Cache.find?_eq_some_iff, hclock] at he
  rcases hstored n e he.1 with hold | hbacks
  · have hfresh := (Service.fresh_iff_of_outline (outline_service_eq_of_outline hkeep n) c.clock e).mp
      he.2
    exact hleader ▸ (h.cached n e (Cache.find?_eq_some_iff.mpr ⟨hold, hfresh⟩)).leader
  · exact hbacks

end Knows

end Cluster

/-! ## The race -/

/-- Whether a beat is part of a race for a grain among so many services. -/
def Beat.Races (g : Grain) (count : Nat) : Beat → Prop
  | .begins (.call i (.single action hop)) _ => i < count ∧ hop = 0 ∧ action.Races g
  | .begins (.elapse _) _ => True
  | .begins _ _ => False
  | .resumes _ _ => True

/-- The address that is to be registered in a beat. -/
def Beat.registers? : Beat → Option GrainAddress
  | .begins command _ => command.registers?
  | .resumes _ _ => none

/-- Whether a command, if it is a call, was answered a location. -/
def Task.Told (task : Task) (t : TaggedAddress) : Prop :=
  ∀ i request, task.command = .call i request →
    task.progress.answer? = some (.ok (.outcome (.located t)))

namespace Scene

/-- How far a race for a grain has come that began in a settled cluster. -/
structure Racing (c : Cluster) (ring : Ring) (g : Grain) (r? : Option Registration) (s : Scene) :
    Prop where
  /-- Time has passed, and nothing else has changed but what services store. -/
  kept : ∃ time, s.cluster.outline = (c.elapse time).outline
  knows : s.cluster.Knows (c.site ring g.position) g.id r?
  /-- Whatever caches have come to store, seen or not, says what is known. -/
  stored : ∀ n e, (s.service n).cache.entries.find? g.id = some e →
    (c.service n).cache.entries.find? g.id = some e ∨ Backs r? e
  /-- Nobody waits. -/
  ended : ∀ task ∈ s.tasks, ∃ answer, task.progress = .ended answer

namespace Racing

variable {c : Cluster} {ring : Ring} {g : Grain} {r? : Option Registration} {s : Scene}

section Settled

variable (h : s.Racing c ring g r?) (hstable : Cluster.Stable c ring)
  (hordinary : g.isSystemTarget = false)
  (hfirm : ∀ r ∈ r?, (c.oracle.status r.address.silo).isTerminating = false)

include h hstable hordinary hfirm

/-- A call of the race ends at once. -/
theorem begins_call {i : ServiceId} {action : Action} (hi : i < c.services.length)
    (haction : action.Races g) {r'? : Option Registration}
    (hleader : r'? = leader (s.service (c.site ring g.position)).partition.nextTag
      s.cluster.clock action r?) (moment : Nat) :
    (s.next (.begins (.call i (.single action 0)) moment)).Racing c ring g r'? ∧
      ∃ task, (s.next (.begins (.call i (.single action 0)) moment)).tasks = s.tasks ++ [task] ∧
        task.Told (toldOf r'?) := by
  obtain ⟨time, hkept⟩ := h.kept
  have hstable' : Cluster.Stable s.cluster ring := (hstable.elapse time).of_outline hkept
  have hi' : i < s.cluster.services.length := by
    rw [Cluster.length_eq_of_outline hkept]
    exact hi
  have hsite : s.cluster.site ring g.position = c.site ring g.position :=
    Cluster.site_eq_of_outline hkept ring g.position
  have horacle : s.cluster.oracle = c.oracle :=
    congrArg Moment.oracle (Cluster.moment_eq_of_outline hkept)
  have hcall := Cluster.Knows.call (hsite ▸ h.knows) hstable' hi' hordinary haction
    (horacle ▸ hfirm) (hsite ▸ hleader)
  rw [hsite] at hcall
  obtain ⟨hreply, hknows, hstored⟩ := hcall
  have hgrain : action.grain.isSystemTarget = false := haction.grain.symm ▸ hordinary
  have hprompt : (Command.call i (.single action 0)).perform.Prompt s.cluster :=
    (hstable'.prompt_call hgrain hi').bind (Activity.prompt_pure _ _)
  have hrun : (Command.call i (.single action 0)).perform.run s.cluster =
      (.ok (.outcome (.located (toldOf r'?))),
        ((Cluster.call i (.single action 0)).run s.cluster).2) := by
    show (Command.replied _).run _ = _
    rw [Command.replied, Activity.run_bind, hreply]
    rfl
  have hnext : s.next (.begins (.call i (.single action 0)) moment) =
      ⟨((Cluster.call i (.single action 0)).run s.cluster).2, s.tasks ++
        [⟨.call i (.single action 0), .ended (.ok (.outcome (.located (toldOf r'?))))⟩]⟩ := by
    show Scene.mk (Progress.advance moment _ s.cluster).2 (s.tasks ++ [⟨_, _⟩]) = _
    rw [hprompt.advance moment, hrun]
  rw [hnext]
  refine ⟨⟨⟨time, (Cluster.outline_call i _ _).trans hkept⟩, hknows, fun n e he => ?_,
    fun task htask => ?_⟩, _, rfl, fun _ _ _ => rfl⟩
  · rcases hstored n e he with hold | hbacks
    · exact (h.stored n e hold).imp_right fun hbacks => hleader ▸ hbacks.leader
    · exact .inr hbacks
  · rcases List.mem_append.mp htask with hold | hnew
    · exact h.ended task hold
    · rw [List.mem_singleton.mp hnew]
      exact ⟨_, rfl⟩

/-- A beat that does not settle the race leaves it as it is. -/
theorem next {beat : Beat} (hbeat : beat.Races g c.services.length)
    (hquiet : r?.isSome ∨ beat.registers? = none) :
    (s.next beat).Racing c ring g r? ∧
      ∃ new, (s.next beat).tasks = s.tasks ++ new ∧ ∀ task ∈ new, task.Told (toldOf r?) := by
  cases beat with
  | resumes index moment =>
    have hidle : s.next (.resumes index moment) = s := by
      cases htask : s.tasks[index]? with
      | none => exact next_resumes_of_none htask moment
      | some task =>
        obtain ⟨answer, hended⟩ := h.ended task (List.mem_of_getElem? htask)
        rw [next_resumes_of_some htask, hended]
        have hsame : (⟨task.command, .ended answer⟩ : Task) = task := by rw [← hended]
        show Scene.mk s.cluster (s.tasks.set index ⟨task.command, .ended answer⟩) = s
        obtain ⟨hindex, hget⟩ := List.getElem?_eq_some_iff.mp htask
        rw [hsame, ← hget, List.set_getElem_self]
    rw [hidle]
    exact ⟨h, [], (List.append_nil _).symm, fun _ htask => nomatch htask⟩
  | begins command moment =>
    cases command with
    | call i request =>
      cases request with
      | batch => exact hbeat.elim
      | single action hop =>
        obtain ⟨hi, rfl, haction⟩ := hbeat
        have hleader : r? = leader (s.service (c.site ring g.position)).partition.nextTag
            s.cluster.clock action r? := by
          rcases hquiet with hsome | hnone
          · rw [leader, Option.or_of_isSome hsome]
          · have hasks : action.registers? = none := hnone
            rw [leader, hasks, Option.map_none, Option.or_none]
        obtain ⟨hracing, task, htasks, htold⟩ :=
          h.begins_call hstable hordinary hfirm hi haction hleader moment
        refine ⟨hracing, [task], htasks, fun other hother => ?_⟩
        rw [List.mem_singleton.mp hother]
        exact htold
    | elapse time =>
      obtain ⟨past, hkept⟩ := h.kept
      have hlater : (c.elapse past).elapse time = c.elapse (past + time) := by
        rw [Cluster.elapse, Cluster.elapse, Cluster.elapse, Nat.add_assoc]
      have hkept' : (s.cluster.elapse time).outline = (c.elapse (past + time)).outline :=
        hlater ▸ congrArg (Cluster.elapse · time) hkept
      refine ⟨⟨⟨_, hkept'⟩, h.knows.elapse time, h.stored, fun task htask => ?_⟩,
        [⟨.elapse time, .ended (.ok .nothing)⟩], rfl, fun task htask => ?_⟩
      · rcases List.mem_append.mp htask with hold | hnew
        · exact h.ended task hold
        · rw [List.mem_singleton.mp hnew]
          exact ⟨_, rfl⟩
      · rw [List.mem_singleton.mp htask]
        rintro _ _ ⟨⟩
    | _ => exact hbeat.elim

/-- Beats that do not settle the race leave it as it is, and all that is asked meanwhile is answered what
there is. -/
theorem after {beats : List Beat} (hbeats : ∀ beat ∈ beats, beat.Races g c.services.length)
    (hquiet : ∀ beat ∈ beats, r?.isSome ∨ beat.registers? = none) :
    (s.after beats).Racing c ring g r? ∧
      ∃ new, (s.after beats).tasks = s.tasks ++ new ∧ ∀ task ∈ new, task.Told (toldOf r?) := by
  induction beats generalizing s with
  | nil => exact ⟨h, [], (List.append_nil _).symm, fun _ htask => nomatch htask⟩
  | cons beat rest ih =>
    obtain ⟨hnext, first, hfirst, htold⟩ := h.next hstable hordinary hfirm
      (hbeats beat List.mem_cons_self) (hquiet beat List.mem_cons_self)
    obtain ⟨hafter, more, hmore, htoldMore⟩ := ih hnext
      (fun b hb => hbeats b (List.mem_cons_of_mem beat hb))
      (fun b hb => hquiet b (List.mem_cons_of_mem beat hb))
    refine ⟨hafter, first ++ more, ?_, fun task htask => ?_⟩
    · rw [← List.append_assoc, ← hfirst]
      exact hmore
    · exact (List.mem_append.mp htask).elim (htold task) (htoldMore task)

end Settled

end Racing

/-- A race has one winner, in every store.  Among services that have settled, let a grain be registered
nowhere and in no cache.  Whoever looks for it before anybody asks to register it, finds nothing.  The
first that is to be registered gets the next tag of the site; from then on everybody who asks to register
an activation, wherever it is, or looks for the grain is answered this address with this tag, and none
waits.  In the end the site alone has it registered, every cache that shows anything for the grain shows
this, and whatever a cache has come to store for the grain, seen or not, says the same. -/
theorem one_winner {c : Cluster} {ring : Ring} (hstable : Cluster.Stable c ring) {g : Grain}
    (hordinary : g.isSystemTarget = false)
    (hunregistered : ∀ n, (c.service n).partition.registration? g.id = none)
    (hunseen : ∀ n, (c.service n).cache.find? c.clock g.id = none)
    {before rest : List Beat} {i : ServiceId} {a : GrainAddress} {moment : Nat}
    (hbefore : ∀ beat ∈ before, beat.Races g c.services.length ∧ beat.registers? = none)
    (hi : i < c.services.length) (ha : a.grain = g)
    (hhost : (c.oracle.status a.silo).isTerminating = false)
    (hrest : ∀ beat ∈ rest, beat.Races g c.services.length) :
    let s := c.scene.after before
    let s' := s.after (.begins (.call i (.single (.register a none) 0)) moment :: rest)
    let winner : Registration :=
      ⟨a, (s.service (c.site ring g.position)).partition.nextTag, s.cluster.clock⟩
    (∀ task ∈ s.tasks, task.Told .none) ∧
      (∃ tasks, s'.tasks = s.tasks ++ tasks ∧ ∀ task ∈ tasks, task.Told winner.answer) ∧
      s'.cluster.Knows (c.site ring g.position) g.id (some winner) ∧
      ∀ n e, (s'.service n).cache.entries.find? g.id = some e →
        (c.service n).cache.entries.find? g.id = some e ∨ Backs (some winner) e := by
  intro s s' winner
  have hstart : c.scene.Racing c ring g none :=
    ⟨⟨0, rfl⟩, ⟨fun n => (hunregistered n).trans (ite_self none).symm, fun n e he =>
      nomatch (hunseen n).symm.trans he⟩, fun _ _ => .inl, fun _ htask => nomatch htask⟩
  have hnobody : ∀ r ∈ (none : Option Registration),
      (c.oracle.status r.address.silo).isTerminating = false := fun _ hr => nomatch hr
  obtain ⟨hopen, early, hearly, htoldEarly⟩ := hstart.after hstable hordinary hnobody
    (fun beat hbeat => (hbefore beat hbeat).1) (fun beat hbeat => .inr (hbefore beat hbeat).2)
  have haction : (Action.register a none).Races g := ⟨ha, rfl⟩
  have hleader : some winner = leader (s.service (c.site ring g.position)).partition.nextTag
      s.cluster.clock (.register a none) none := rfl
  obtain ⟨hsettled, first, hfirst, htoldFirst⟩ :=
    hopen.begins_call hstable hordinary hnobody hi haction hleader moment
  have hhosts : ∀ r ∈ some winner, (c.oracle.status r.address.silo).isTerminating = false := by
    rintro _ ⟨⟩
    exact hhost
  obtain ⟨hend, late, hlate, htoldLate⟩ := hsettled.after hstable hordinary hhosts hrest
    fun _ _ => .inl rfl
  refine ⟨fun task htask => ?_, ⟨first :: late, ?_, ?_⟩, hend.knows, hend.stored⟩
  · have hnew : task ∈ early := by
      rw [hearly] at htask
      exact htask
    exact htoldEarly task hnew
  · rw [List.append_cons, ← hfirst]
    exact hlate
  · exact List.forall_mem_cons.mpr ⟨htoldFirst, htoldLate⟩

/-- A grain of the second service of the pair. -/
def racedGrain : Grain := ⟨⟨⟨"g"⟩, "k"⟩, 2⟩

/-- Activations of that grain that have the same number, one at each service of the pair. -/
def activationBy (n : ServiceId) : GrainAddress := ⟨racedGrain, ⟨1⟩, (Cluster.agreedPair.service n).home⟩

/-- What follows when the first service of the pair has asked to register its activation. -/
def raceAfterFirst : List Beat :=
  [.begins (.call 1 (.single (.register (activationBy 1) none) 0)) 0, .begins (.elapse 5) 0, .resumes 0 3,
    .begins (.call 0 (.single (.lookup racedGrain) 0)) 0]

theorem one_winner_raceAfterFirst :
    let s := Cluster.agreedPair.scene.after [.begins (.call 1 (.single (.lookup racedGrain) 0)) 0]
    let s' := s.after (.begins (.call 0 (.single (.register (activationBy 0) none) 0)) 0 :: raceAfterFirst)
    Cluster.Stable Cluster.agreedPair (Cluster.agreedPair.service 0).ring ∧
      racedGrain.isSystemTarget = false ∧
      (∀ beat ∈ raceAfterFirst, beat.Races racedGrain Cluster.agreedPair.services.length) ∧
      (Cluster.agreedPair.oracle.status (activationBy 0).silo).isTerminating = false ∧
      (∀ task ∈ s.tasks, task.Told .none) ∧
      (∃ tasks, s'.tasks = s.tasks ++ tasks ∧ ∀ task ∈ tasks, task.Told (.found (activationBy 0) 1)) ∧
      s'.cluster.Knows 1 racedGrain.id (some ⟨activationBy 0, 1, 0⟩) ∧
      ∀ n e, (s'.service n).cache.entries.find? racedGrain.id = some e →
        Backs (some ⟨activationBy 0, 1, 0⟩) e := by
  have hordinary : racedGrain.isSystemTarget = false := by decide
  have hstores : ∀ n, (Cluster.agreedPair.service n).partition.registration? racedGrain.id = none ∧
      (Cluster.agreedPair.service n).cache.entries.find? racedGrain.id = none := by
    intro n
    match n with
    | 0 => exact ⟨rfl, rfl⟩
    | 1 => exact ⟨rfl, rfl⟩
    | _ + 2 => exact ⟨rfl, rfl⟩
  have hbefore : ∀ beat ∈ [Beat.begins (.call 1 (.single (.lookup racedGrain) 0)) 0],
      beat.Races racedGrain Cluster.agreedPair.services.length ∧ beat.registers? = none := by
    intro beat hbeat
    rw [List.mem_singleton.mp hbeat]
    exact ⟨⟨by decide, rfl, rfl⟩, rfl⟩
  have hhost : (Cluster.agreedPair.oracle.status (activationBy 0).silo).isTerminating = false := by decide
  have hrace : ∀ beat ∈ raceAfterFirst, beat.Races racedGrain Cluster.agreedPair.services.length := by
    intro beat hbeat
    fin_cases hbeat
    · exact ⟨by decide, rfl, rfl, rfl⟩
    · trivial
    · trivial
    · exact ⟨by decide, rfl, rfl⟩
  have hunseen : ∀ n,
      (Cluster.agreedPair.service n).cache.find? Cluster.agreedPair.clock racedGrain.id = none := by
    intro n
    rw [Cache.find?, (hstores n).2, Option.filter_none]
  have hi : 0 < Cluster.agreedPair.services.length := by decide
  obtain ⟨hearly, hlate, hknows, hstored⟩ := one_winner Cluster.agreedPair_stable hordinary
    (fun n => (hstores n).1) hunseen hbefore hi rfl hhost hrace
  refine ⟨Cluster.agreedPair_stable, hordinary, hrace, hhost, hearly, hlate, hknows, fun n e he => ?_⟩
  rcases hstored n e he with hold | hbacks
  · cases (hstores n).2.symm.trans hold
  · exact hbacks

end Scene

end GrainDirectory

import GrainDirectory.Proofs.Practice
import GrainDirectory.Proofs.ReadYourWrites
import GrainDirectory.Proofs.Scenes
set_option autoImplicit false

/-!
# Where locations come from

The directory never invents a location.  In an in-process cluster that starts with empty stores, and
whatever beats follow, everything that is registered, stored in a cache or answered was passed to a call
that asked to register it, or was suggested to a cache; and every positive tag was given to the address by
a partition that inserted it (`Scene.Sourced`).

A partition takes an address from the call itself.  A cache takes over what some partition has registered
at that moment, and an answer tells what is registered or stored at that moment; so everything goes back
to the beats of the past.  `Scene.Chronicle` is the invariant, and `Chronicle.next` says that every beat
continues it.
-/

namespace GrainDirectory

/-- Whether no service of a cluster stores anything. -/
def Cluster.Blank (c : Cluster) : Prop :=
  ∀ s ∈ c.services, s.partition.entries.rows = [] ∧ s.cache.entries.rows = []

instance (c : Cluster) : Decidable c.Blank := inferInstanceAs (Decidable (∀ s ∈ _, _))

/-- A service that is not there stores nothing either. -/
theorem Cluster.Blank.service {c : Cluster} (h : c.Blank) (n : ServiceId) :
    (c.service n).partition.entries.rows = [] ∧ (c.service n).cache.entries.rows = [] := by
  unfold Cluster.service
  rw [List.getD_eq_getElem?_getD]
  cases hn : c.services[n]? with
  | none => exact ⟨rfl, rfl⟩
  | some s => exact h s (List.mem_of_getElem? hn)

namespace Scene

/-! ## The past -/

/-- Whether every command that begins calls a service that is there. -/
def Addressed : Scene → List Beat → Prop
  | _, [] => True
  | s, beat :: rest =>
    (∀ command moment, beat = .begins command moment → s.cluster.Addresses command) ∧
      Addressed (s.next beat) rest

/-- Whether an address was passed to a call that asked to register it. -/
def Submitted (beats : List Beat) (a : GrainAddress) : Prop :=
  ∃ command moment previous, .begins command moment ∈ beats ∧ .register a previous ∈ command.actions

/-- Whether an address was suggested to a cache. -/
def Suggested (beats : List Beat) (a : GrainAddress) : Prop :=
  ∃ i grain silo moment, .begins (.suggest i grain silo) moment ∈ beats ∧ a = ⟨grain, .nil, silo⟩

/-- Whether in one of some beats a partition inserted an address and gave it a tag. -/
def Assigned (s : Scene) (beats : List Beat) (a : GrainAddress) (tag : Int32) : Prop :=
  ∃ past beat future n now, beats = past ++ beat :: future ∧
    ((s.after past).service n).partition.insert now a =
      (.found a tag, ((s.after (past ++ [beat])).service n).partition)

/-- Whether a location of a grain is not invented: it was submitted or suggested, and a positive tag was
assigned to it. -/
structure Sourced (s : Scene) (beats : List Beat) (g : GrainId) (a : GrainAddress) (tag : Int32) :
    Prop where
  grain : a.grain.id = g
  given : ∃ b, b.Same a ∧ (Submitted beats b ∨ Suggested beats b)
  assigned : 0 < tag → ∃ b, b.Same a ∧ Submitted beats b ∧ Assigned s beats b tag

/-- Whether the answer that a command ended with tells no invented location. -/
structure Candid (s : Scene) (beats : List Beat) (command : Command) (answer : Except Error Answer) :
    Prop where
  called : ∀ i action hop t a, command = .call i (.single action hop) →
    answer = .ok (.outcome (.located t)) → t.address = some a →
      s.Sourced beats action.grain.id a t.tag
  lookedUp : ∀ i g t a, command = .localLookup i g → answer = .ok (.located (some t)) →
    t.address = some a → s.Sourced beats g.id a t.tag
  believed : ∀ i g a, command = .cachedAddress i g → answer = .ok (.believed (some a)) →
    s.Sourced beats g.id a TaggedAddress.cachedTag

section Past

variable {s : Scene} {beats : List Beat} {a : GrainAddress} {tag : Int32} {g : GrainId}

theorem Submitted.concat (h : Submitted beats a) (beat : Beat) : Submitted (beats ++ [beat]) a := by
  obtain ⟨command, moment, previous, hbegins, hasks⟩ := h
  exact ⟨command, moment, previous, List.mem_append_left _ hbegins, hasks⟩

theorem Suggested.concat (h : Suggested beats a) (beat : Beat) : Suggested (beats ++ [beat]) a := by
  obtain ⟨i, grain, silo, moment, hbegins, heq⟩ := h
  exact ⟨i, grain, silo, moment, List.mem_append_left _ hbegins, heq⟩

theorem Assigned.concat (h : s.Assigned beats a tag) (beat : Beat) :
    s.Assigned (beats ++ [beat]) a tag := by
  obtain ⟨past, last, future, n, now, rfl, hinsert⟩ := h
  exact ⟨past, last, future ++ [beat], n, now, by simp, hinsert⟩

theorem Sourced.concat (h : s.Sourced beats g a tag) (beat : Beat) :
    s.Sourced (beats ++ [beat]) g a tag := by
  refine ⟨h.grain, ?_, fun htag => ?_⟩
  · obtain ⟨b, hsame, hgiven⟩ := h.given
    exact ⟨b, hsame, hgiven.imp (·.concat beat) (·.concat beat)⟩
  · obtain ⟨b, hsame, hsubmitted, hassigned⟩ := h.assigned htag
    exact ⟨b, hsame, hsubmitted.concat beat, hassigned.concat beat⟩

theorem Candid.concat {command : Command} {answer : Except Error Answer}
    (h : s.Candid beats command answer) (beat : Beat) :
    s.Candid (beats ++ [beat]) command answer where
  called := fun i action hop t a hcommand hanswer ha =>
    (h.called i action hop t a hcommand hanswer ha).concat beat
  lookedUp := fun i g t a hcommand hanswer ha => (h.lookedUp i g t a hcommand hanswer ha).concat beat
  believed := fun i g a hcommand hanswer => (h.believed i g a hcommand hanswer).concat beat

/-- What was submitted and inserted may be told with its tag. -/
theorem sourced_of_assigned {b : GrainAddress} (hsubmitted : Submitted beats b)
    (hassigned : s.Assigned beats b tag) (hsame : b.Same a) : s.Sourced beats a.grain.id a tag :=
  ⟨rfl, ⟨b, hsame, .inl hsubmitted⟩, fun _ => ⟨b, hsame, hsubmitted, hassigned⟩⟩

/-- What is told as cached needs only to have been submitted or suggested. -/
theorem Sourced.cached (h : s.Sourced beats g a tag) :
    s.Sourced beats g a TaggedAddress.cachedTag :=
  ⟨h.grain, h.given, fun hpositive => absurd hpositive (by decide)⟩

theorem sourced_of_suggested (h : Suggested beats a) :
    s.Sourced beats a.grain.id a TaggedAddress.cachedTag :=
  ⟨rfl, ⟨a, .refl a, .inr h⟩, fun hpositive => absurd hpositive (by decide)⟩

end Past

/-! ## The invariant -/

/-- Whether everything that is stored after some beats goes back to those beats. -/
structure Accounted (s : Scene) (beats : List Beat) : Prop where
  registered : ∀ n g r, ((s.after beats).service n).partition.registration? g = some r →
    Submitted beats r.address ∧ s.Assigned beats r.address r.tag
  stored : ∀ n g e, ((s.after beats).service n).cache.entries.find? g = some e →
    s.Sourced beats g e.address e.tag

/-- Whether a command that was begun in some beats goes back to them: what it asks to register, what it
has answered, and whatever becomes of it yet. -/
structure Pursued (s : Scene) (beats : List Beat) (task : Task) : Prop where
  submitted : ∀ a ∈ task.command.registers?, Submitted beats a
  answered : ∀ answer ∈ task.progress.answer?, s.Candid beats task.command answer
  waiting : task.progress.Awaits Cluster.Later (Cluster.Gains task.command.registers?)
    (Cluster.Locates task.command) (s.after beats).cluster

/-- Whether everything that is stored after some beats goes back to them, and so do all commands. -/
structure Chronicle (s : Scene) (beats : List Beat) : Prop extends Accounted s beats where
  wiring : (s.after beats).cluster.wiring ≠ .framed
  tasks : ∀ task ∈ (s.after beats).tasks, s.Pursued beats task

variable {s : Scene} {beats : List Beat} {beat : Beat}

namespace Accounted

variable (h : s.Accounted beats)

include h

/-- What some service vouches for goes back to the past. -/
theorem of_vouches {e : CacheEntry} (hvouched : (s.after beats).cluster.Vouches e) :
    s.Sourced beats e.grainId e.address e.tag := by
  obtain ⟨n, r, hr, hsame, htag⟩ := hvouched
  obtain ⟨hsubmitted, hassigned⟩ := h.registered n _ r hr
  exact sourced_of_assigned hsubmitted (htag ▸ hassigned) hsame

/-- What is answered to a call goes back to the past. -/
theorem of_finds {g : GrainId} {t : TaggedAddress} {a : GrainAddress}
    (hfinds : Cluster.Finds g (.ok (.located t)) (s.after beats).cluster) (ha : t.address = some a) :
    s.Sourced beats g a t.tag := by
  obtain ⟨n, r, hr, rfl⟩ := hfinds t rfl (by rw [TaggedAddress.isFound, ha]; rfl)
  obtain ⟨hsubmitted, hassigned⟩ := h.registered n _ r hr
  cases ha
  have hgrain : r.address.grain.id = g := Partition.registration?_grainId hr
  exact hgrain ▸ sourced_of_assigned hsubmitted hassigned (.refl _)

/-- A beat in which at most an address is inserted that has been submitted keeps all accounted for. -/
theorem gains {asked : Option GrainAddress}
    (hgains : Cluster.Gains asked (s.after beats).cluster (s.after (beats ++ [beat])).cluster)
    (hasked : ∀ a ∈ asked, Submitted (beats ++ [beat]) a) : s.Accounted (beats ++ [beat]) := by
  have hregistered : ∀ n g r,
      ((s.after (beats ++ [beat])).service n).partition.registration? g = some r →
        Submitted (beats ++ [beat]) r.address ∧ s.Assigned (beats ++ [beat]) r.address r.tag := by
    intro n g r hr
    have hold (hbefore : ((s.after beats).service n).partition.registration? g = some r) :
        Submitted (beats ++ [beat]) r.address ∧ s.Assigned (beats ++ [beat]) r.address r.tag := by
      obtain ⟨hsubmitted, hassigned⟩ := h.registered n g r hbefore
      exact ⟨hsubmitted.concat beat, hassigned.concat beat⟩
    rcases (hgains.partition n).within_or_inserted with hwithin | ⟨address, now, rfl, hinserted⟩
    · exact hold (hwithin g r hr)
    · rw [hinserted, Partition.registration?_insert] at hr
      split at hr
      · cases hr
        exact ⟨hasked address rfl, beats, beat, [], n, now, rfl, Prod.ext rfl hinserted.symm⟩
      · exact hold hr
  refine ⟨hregistered, fun n g e he => ?_⟩
  rcases hgains.cache n g e he with hold | hvouched | hvouched
  · exact (h.stored n g e hold).concat beat
  · have hgrain : e.grainId = g := Table.key_of_find? he
    exact hgrain ▸ (h.of_vouches hvouched).concat beat
  · obtain ⟨k, r, hr, hsame, htag⟩ := hvouched
    obtain ⟨hsubmitted, hassigned⟩ := hregistered k _ r hr
    have hgrain : e.grainId = g := Table.key_of_find? he
    exact hgrain ▸ sourced_of_assigned hsubmitted (htag ▸ hassigned) hsame

/-- A beat in which a location is suggested keeps all accounted for. -/
theorem suggests {i : ServiceId} {grain : Grain} {silo : Silo} {moment : Nat} :
    s.Accounted (beats ++ [.begins (.suggest i grain silo) moment]) := by
  have hsuggested : Suggested (beats ++ [.begins (.suggest i grain silo) moment])
      ⟨grain, .nil, silo⟩ :=
    ⟨i, grain, silo, moment, List.mem_append_right _ List.mem_cons_self, rfl⟩
  have hservice (n : ServiceId) :
      (s.after (beats ++ [.begins (.suggest i grain silo) moment])).service n =
        (((s.after beats).cluster.adjust i fun t =>
          t.suggest (s.after beats).cluster.moment grain silo).service n) := by
    rw [after_concat]
    rfl
  refine ⟨fun n g r hr => ?_, fun n g e he => ?_⟩
  · have hbefore : ((s.after beats).service n).partition.registration? g = some r := by
      rw [hservice, Cluster.service_adjust] at hr
      split at hr <;> exact hr
    obtain ⟨hsubmitted, hassigned⟩ := h.registered n g r hbefore
    exact ⟨hsubmitted.concat _, hassigned.concat _⟩
  · rw [hservice, Cluster.service_adjust] at he
    split at he
    · have hgrain : e.grainId = g := Table.key_of_find? he
      rcases Cache.stored_add he with rfl | hold
      · exact hgrain ▸ sourced_of_suggested hsuggested
      · exact (h.stored n g e hold).concat _
    · exact (h.stored n g e he).concat _

end Accounted

/-- What is asked to be registered has been submitted with the command. -/
theorem submitted_of_registers? {command : Command} {moment : Nat} {a : GrainAddress}
    (ha : a ∈ command.registers?) : Submitted (beats ++ [.begins command moment]) a := by
  have hrequest {request : Request} (h : a ∈ request.registers?) :
      ∃ previous, .register a previous ∈ request.actions := by
    cases request with
    | batch => cases h
    | single action hop =>
      cases action with
      | register address previous =>
        cases h
        exact ⟨previous, List.mem_cons_self⟩
      | _ => cases h
  have hasks : ∃ previous, .register a previous ∈ command.actions := by
    cases command with
    | call i request => exact hrequest ha
    | serve i frame =>
      unfold Command.registers? at ha
      unfold Command.actions
      dsimp only at ha ⊢
      cases hdecode : Frame.decode Format.request frame with
      | ok request =>
        rw [hdecode] at ha
        exact hrequest ha
      | error e =>
        rw [hdecode] at ha
        cases ha
    | _ => cases ha
  obtain ⟨previous, hasks⟩ := hasks
  exact ⟨command, moment, previous, List.mem_append_right _ List.mem_cons_self, hasks⟩

namespace Accounted

variable (h : s.Accounted beats) {command : Command} {answer : Except Error Answer}

include h

/-- What a command that may have waited answers goes back to the past. -/
theorem candid_of_locates (hlocates : Cluster.Locates command answer (s.after beats).cluster) :
    s.Candid beats command answer where
  called := by
    rintro i action hop t a hcommand rfl ha
    exact h.of_finds (hlocates.called i action hop hcommand _ rfl) ha
  lookedUp := by
    rintro i g t a rfl
    exact hlocates.converses.elim
  believed := by
    rintro i g a rfl
    exact hlocates.converses.elim

/-- What a service stores goes back to the past, and so does what it answers without asking anybody. -/
theorem candid_of_run (hconverses : ¬ command.Converses) :
    s.Candid beats command (command.perform.run (s.after beats).cluster).1 where
  called := by
    rintro i action hop t a rfl
    exact absurd trivial hconverses
  lookedUp := by
    rintro i g t a rfl hanswer ha
    rw [Command.perform, Activity.run_bind, Cluster.run_change, Activity.run_pure] at hanswer
    dsimp only at hanswer
    generalize hlookup : (((s.after beats).service i).localLookup (s.after beats).cluster.moment g).1 =
      looked at hanswer
    cases looked with
    | error e => cases hanswer
    | ok found =>
      cases hanswer
      rcases Service.localLookup_sources _ _ hlookup with ⟨e, hentry, rfl⟩ | ⟨-, r, hr, rfl⟩
      · cases ha
        exact (h.stored i _ e (Service.stored_of_trusted _ _ hentry)).cached
      · obtain ⟨hsubmitted, hassigned⟩ := h.registered i _ r hr
        cases ha
        have hgrain : r.address.grain.id = g.id := Partition.registration?_grainId hr
        exact hgrain ▸ sourced_of_assigned hsubmitted hassigned (.refl _)
  believed := by
    rintro i g a rfl hanswer
    rw [Command.perform, Activity.run_bind, Cluster.run_change, Activity.run_pure] at hanswer
    let t := (s.after beats).service i
    have hbelieved : ( t.trustedEntry? (s.after beats).cluster.moment g).map (·.address) = some a :=
      Answer.believed.inj (Except.ok.inj hanswer)
    obtain ⟨e, hentry, rfl⟩ := Option.map_eq_some_iff.mp hbelieved
    exact (h.stored i _ e (Service.stored_of_trusted _ _ hentry)).cached

end Accounted

/-- Commands are left alone by what others do. -/
theorem Pursued.concat {task : Task} (h : s.Pursued beats task)
    (hlater : (s.after beats).cluster.Later (s.after (beats ++ [beat])).cluster) :
    s.Pursued (beats ++ [beat]) task where
  submitted := fun a ha => (h.submitted a ha).concat beat
  answered := fun answer hanswer => (h.answered answer hanswer).concat beat
  waiting := h.waiting.later hlater

namespace Chronicle

variable (h : s.Chronicle beats)

include h

/-- A beat continues a chronicle if what is stored afterwards is accounted for, and so is the command that
was carried on. -/
theorem continued (haccounted : s.Accounted (beats ++ [beat]))
    (hlater : (s.after beats).cluster.Later (s.after (beats ++ [beat])).cluster)
    (htasks : ∀ task ∈ (s.after (beats ++ [beat])).tasks,
      task ∈ (s.after beats).tasks ∨ s.Pursued (beats ++ [beat]) task) :
    s.Chronicle (beats ++ [beat]) := by
  refine ⟨haccounted, fun hframed => h.wiring (hlater.wiring.symm.trans hframed), fun task htask => ?_⟩
  rcases htasks task htask with hold | hcarried
  · exact (h.tasks task hold).concat hlater
  · exact hcarried

/-- A command that begins continues a chronicle. -/
theorem begins {command : Command} {moment : Nat}
    (haddressed : (s.after beats).cluster.Addresses command) :
    s.Chronicle (beats ++ [.begins command moment]) := by
  have hnext : s.after (beats ++ [.begins command moment]) =
      ⟨(Progress.advance moment command.perform (s.after beats).cluster).2, (s.after beats).tasks ++
        [⟨command, (Progress.advance moment command.perform (s.after beats).cluster).1⟩]⟩ :=
    s.after_concat beats (.begins command moment)
  have hcluster := congrArg Scene.cluster hnext
  have htasks := congrArg Scene.tasks hnext
  dsimp only at hcluster htasks
  have hcarried (haccounted : s.Accounted (beats ++ [.begins command moment]))
      (hlater : (s.after beats).cluster.Later (s.after (beats ++ [.begins command moment])).cluster)
      (hpursued : s.Pursued (beats ++ [.begins command moment])
        ⟨command, (Progress.advance moment command.perform (s.after beats).cluster).1⟩) :
      s.Chronicle (beats ++ [.begins command moment]) := by
    refine h.continued haccounted hlater fun task htask => ?_
    rw [htasks, List.mem_append, List.mem_singleton] at htask
    rcases htask with hold | rfl
    · exact .inl hold
    · exact .inr hpursued
  have hsubmitted : ∀ a ∈ command.registers?, Submitted (beats ++ [.begins command moment]) a :=
    fun a => submitted_of_registers?
  by_cases hconverses : command.Converses
  · obtain ⟨hgains, hwaiting, hends⟩ :=
      (Cluster.fulfils_perform hconverses h.wiring haddressed).advance
        (fun _ _ hgains => hgains.toLater) moment
    rw [← hcluster] at hgains hwaiting hends
    have haccounted := h.toAccounted.gains hgains hsubmitted
    exact hcarried haccounted hgains.toLater ⟨hsubmitted, fun answer hanswer =>
      haccounted.candid_of_locates (hends answer hanswer), hwaiting⟩
  · have hrun := Cluster.advance_perform (c := (s.after beats).cluster) hconverses moment
    have hcandid : ∀ answer ∈ (Progress.advance moment command.perform
        (s.after beats).cluster).1.answer?, s.Candid (beats ++ [.begins command moment]) command
          answer := by
      rw [hrun]
      rintro answer ⟨⟩
      exact (h.toAccounted.candid_of_run hconverses).concat _
    have hpursued : s.Pursued (beats ++ [.begins command moment])
        ⟨command, (Progress.advance moment command.perform (s.after beats).cluster).1⟩ :=
      ⟨hsubmitted, hcandid, by rw [hrun]; trivial⟩
    rw [hrun] at hcluster
    by_cases hsuggest : ∃ i grain silo, command = .suggest i grain silo
    · obtain ⟨i, grain, silo, rfl⟩ := hsuggest
      refine hcarried h.toAccounted.suggests ?_ hpursued
      rw [hcluster]
      exact Cluster.later_adjust _ _ _
    · have hfades : (s.after beats).cluster.Fades
          (s.after (beats ++ [.begins command moment])).cluster := by
        rw [hcluster]
        exact Cluster.fades_perform hconverses fun i grain silo heq => hsuggest ⟨i, grain, silo, heq⟩
      exact hcarried (h.toAccounted.gains hfades.gains nofun) hfades.toLater hpursued

/-- A command that goes on continues a chronicle. -/
theorem resumes (index moment : Nat) : s.Chronicle (beats ++ [.resumes index moment]) := by
  have hnext := s.after_concat beats (.resumes index moment)
  cases htask : (s.after beats).tasks[index]? with
  | none =>
    rw [next_resumes_of_none htask] at hnext
    have hgains : Cluster.Gains none (s.after beats).cluster
        (s.after (beats ++ [.resumes index moment])).cluster := by
      rw [hnext]
      exact refl_of (Cluster.Gains none) _
    refine h.continued (h.toAccounted.gains hgains nofun) hgains.toLater fun task htask => .inl ?_
    rw [hnext] at htask
    exact htask
  | some task =>
    rw [next_resumes_of_some htask] at hnext
    have hpursued := h.tasks task (List.mem_of_getElem? htask)
    obtain ⟨hgains, hwaiting, hends⟩ :=
      hpursued.waiting.resume (fun _ _ hgains => hgains.toLater) moment
    have hcluster := congrArg Scene.cluster hnext
    dsimp only at hcluster
    rw [← hcluster] at hgains hwaiting hends
    have hsubmitted := fun a ha => (hpursued.submitted a ha).concat (.resumes index moment)
    have haccounted := h.toAccounted.gains hgains hsubmitted
    refine h.continued haccounted hgains.toLater fun other hother => ?_
    rw [hnext] at hother
    rcases List.mem_or_eq_of_mem_set hother with hold | rfl
    · exact .inl hold
    · refine .inr ⟨hsubmitted, fun answer hanswer => ?_, hwaiting⟩
      rcases hends answer hanswer with hold | hlocates
      · exact (hpursued.answered answer hold).concat _
      · exact haccounted.candid_of_locates hlocates

end Chronicle

/-! ## Runs -/

theorem Addressed.of_concat (h : s.Addressed (beats ++ [beat])) : s.Addressed beats ∧
    ∀ command moment, beat = .begins command moment →
      (s.after beats).cluster.Addresses command := by
  induction beats generalizing s with
  | nil => exact ⟨trivial, h.1⟩
  | cons first rest ih =>
    obtain ⟨hrest, hlast⟩ := ih h.2
    exact ⟨⟨h.1, hrest⟩, hlast⟩

/-- Before anything happens there is nothing to account for. -/
theorem chronicle_nil {c : Cluster} (hwiring : c.wiring ≠ .framed) (hblank : c.Blank) :
    c.scene.Chronicle [] where
  registered := by
    intro n g r hr
    have hrow : r ∈ (c.service n).partition.entries.rows := (Table.find?_eq_some_iff.mp hr).1
    rw [(hblank.service n).1] at hrow
    cases hrow
  stored := by
    intro n g e he
    have hrow : e ∈ (c.service n).cache.entries.rows := (Table.find?_eq_some_iff.mp he).1
    rw [(hblank.service n).2] at hrow
    cases hrow
  wiring := hwiring
  tasks := fun _ htask => nomatch htask

/-- Every run that calls services which are there is a chronicle. -/
theorem chronicle_after {c : Cluster} (hwiring : c.wiring ≠ .framed) (hblank : c.Blank)
    {beats : List Beat} (haddressed : c.scene.Addressed beats) : c.scene.Chronicle beats := by
  induction beats using List.reverseRecOn with
  | nil => exact chronicle_nil hwiring hblank
  | append_singleton beats beat ih =>
    obtain ⟨hbefore, hlast⟩ := haddressed.of_concat
    cases beat with
    | begins command moment => exact (ih hbefore).begins (hlast command moment rfl)
    | resumes index moment => exact (ih hbefore).resumes index moment

/-- The directory never invents a location.  In an in-process cluster that stores nothing to begin with,
whatever calls, changes of membership, stops, starts and installations follow, and however the calls take
turns, everything that is registered, everything that a cache stores, seen or not, and everything that is
answered to a call, to a lookup without the owner or out of the cache goes back to what has happened by
then: the address was submitted for registration or suggested to a cache, and if the tag is positive, some
partition gave it to that address when it inserted the address. -/
theorem nothing_invented {c : Cluster} (hwiring : c.wiring ≠ .framed) (hblank : c.Blank)
    {beats : List Beat} (haddressed : c.scene.Addressed beats) :
    (∀ n g r, ((c.scene.after beats).service n).partition.registration? g = some r →
      c.scene.Sourced beats g r.address r.tag) ∧
    (∀ n g e, ((c.scene.after beats).service n).cache.entries.find? g = some e →
      c.scene.Sourced beats g e.address e.tag) ∧
    ∀ task ∈ (c.scene.after beats).tasks, ∀ answer ∈ task.progress.answer?,
      c.scene.Candid beats task.command answer := by
  have hchronicle := chronicle_after hwiring hblank haddressed
  refine ⟨fun n g r hr => ?_, hchronicle.stored, fun task htask =>
    (hchronicle.tasks task htask).answered⟩
  obtain ⟨hsubmitted, hassigned⟩ := hchronicle.registered n g r hr
  have hgrain : r.address.grain.id = g := Partition.registration?_grainId hr
  exact hgrain ▸ sourced_of_assigned hsubmitted hassigned (.refl _)

/-- A grain whose location is only ever suggested. -/
def suggested : Grain := ⟨⟨⟨"g"⟩, "l"⟩, 0⟩

/-- The first service of the chain asks for its activation to be registered, which takes two waits; the
second is told where another grain is; then both answer from their caches. -/
def cacheSources : List Beat :=
  [.begins (.call 0 (.single (.register Cluster.chained none) 0)) 0,
    .resumes 0 1000000,
    .resumes 0 2000000,
    .begins (.suggest 1 suggested (Cluster.chainOfThree.service 2).home) 0,
    .begins (.localLookup 0 Cluster.chained.grain) 0,
    .begins (.cachedAddress 1 suggested) 0]

theorem addressed_cacheSources : Cluster.chainOfThree.scene.Addressed cacheSources := by
  refine ⟨?_, ?_, ?_, ?_, ?_, ?_, trivial⟩
  all_goals
    rintro command moment ⟨⟩ <;> decide

theorem nothing_invented_cacheSources :
    Cluster.chainOfThree.wiring ≠ .framed ∧ Cluster.chainOfThree.Blank ∧
      Cluster.chainOfThree.scene.Addressed cacheSources ∧
      ((Cluster.chainOfThree.scene.after cacheSources).service 2).partition.registration?
        Cluster.chained.grain.id = some ⟨Cluster.chained, 1, 0⟩ ∧
      Cluster.chainOfThree.scene.Sourced cacheSources Cluster.chained.grain.id Cluster.chained 1 ∧
      (Cluster.chainOfThree.scene.after cacheSources).tasks[3]?.bind (·.progress.answer?) =
        some (.ok (.believed (some ⟨suggested, .nil, (Cluster.chainOfThree.service 2).home⟩))) ∧
      Cluster.chainOfThree.scene.Sourced cacheSources suggested.id
        ⟨suggested, .nil, (Cluster.chainOfThree.service 2).home⟩ TaggedAddress.cachedTag := by
  have hwiring : Cluster.chainOfThree.wiring ≠ .framed := by decide
  have hblank : Cluster.chainOfThree.Blank := by decide
  have hregistered : ((Cluster.chainOfThree.scene.after cacheSources).service 2).partition.registration?
      Cluster.chained.grain.id = some ⟨Cluster.chained, 1, 0⟩ := rfl
  have hbelieved : (Cluster.chainOfThree.scene.after cacheSources).tasks[3]?.bind (·.progress.answer?) =
      some (.ok (.believed (some ⟨suggested, .nil, (Cluster.chainOfThree.service 2).home⟩))) := rfl
  obtain ⟨task, htask, hanswer⟩ := Option.bind_eq_some_iff.mp hbelieved
  obtain ⟨hsourced, -, hcandid⟩ := nothing_invented hwiring hblank addressed_cacheSources
  refine ⟨hwiring, hblank, addressed_cacheSources, hregistered, hsourced 2 _ _ hregistered, hbelieved, ?_⟩
  have hcommand : task.command = .cachedAddress 1 suggested := by
    cases htask
    rfl
  exact (hcandid task (List.mem_of_getElem? htask) _ hanswer).believed 1 suggested _ hcommand rfl

end Scene

end GrainDirectory

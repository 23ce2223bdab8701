import GrainDirectory.Proofs.Membership.EventQueue
import GrainDirectory.Proofs.Turns
set_option autoImplicit false

/-!
# Services that are started again

A service that is stopped hears of nothing, and keeps its ring.  When it is started again it puts those on
its ring that the oracle considers functional, and takes nobody off.  So a silo that has departed in
between stays on the ring of the service.

That is the only way.  A service that has followed all that waits for it has no other departed silo on
its ring, however often it is started and stopped and whatever is reported meanwhile: a departure that
is reported while the service follows membership takes the silo off.  What every command preserves is
`Attentive`; the main statement is `departed_was_left_over`.
-/

namespace GrainDirectory

/-- A report leaves everybody else where they are. -/
theorem Ring.contains_of_follow {r : Ring} {home x : Silo} {e : StatusEvent}
    (hne : e.silo.id ≠ x.id) (h : (r.follow home e).contains x = true) : r.contains x = true := by
  unfold Ring.follow at h
  split at h
  · exact h
  · split at h
    · exact (Ring.contains_change_remove.mp h).2
    · split at h
      · exact (Ring.contains_change_add.mp h).resolve_left hne
      · exact h

/-- The report that another silo leaves takes it off the ring. -/
theorem Ring.contains_follow_leave {r : Ring} {home : Silo} {e : StatusEvent}
    (hother : e.silo.id ≠ home.id) (hleave : e.isLeave = true) :
    (r.follow home e).contains e.silo = false := by
  unfold Ring.follow
  rw [if_neg hother, if_pos hleave, Bool.eq_false_iff]
  exact fun h => (Ring.contains_change_remove.mp h).1 rfl

theorem Ring.contains_congr {r : Ring} {x y : Silo} (h : x.id = y.id) :
    r.contains x = r.contains y := by
  rw [contains, contains, h]

namespace Cluster

variable {n : ServiceId} {home : Silo} {r r' : Ring} {c c' : Cluster} {o o' : Oracle}

/-! ## Departed silos on a ring -/

/-- Whether a silo other than its own is on the ring of a service although it is leaving or has left. -/
structure Departed (n : ServiceId) (x : Silo) (c : Cluster) : Prop where
  member : (c.service n).ring.contains x = true
  other : x.id ≠ (c.service n).home.id
  gone : (c.oracle.status x).isTerminating = true

/-- Whether every departed silo on a ring was on the ring of a service in an earlier state, and had
departed by then. -/
def LeftOver (n : ServiceId) (c : Cluster) (r : Ring) (o : Oracle) : Prop :=
  ∀ x : Silo, x.id ≠ (c.service n).home.id → (o.status x).isTerminating = true →
    r.contains x = true → Departed n x c

/-- Nobody that the oracle considers functional has departed. -/
theorem leftOver_start (hrecord : o.reports = c.oracle.reports) (others : Silo → Bool) :
    LeftOver n c ((c.oracle.functionalSilos.filter others).foldl Ring.insert (c.service n).ring)
      o := by
  intro x hother hgone hx
  rw [Oracle.status_of_reports_eq hrecord] at hgone
  refine ⟨?_, hother, hgone⟩
  rcases (Ring.contains_foldl_insert _).mp hx with ⟨s, hs, hid⟩ | hbefore
  · have hfunctional : c.oracle.isFunctional x = true :=
      Oracle.isFunctional_iff.mpr ⟨s, (List.mem_filter.mp hs).1, hid⟩
    rw [Oracle.isFunctional, SiloStatus.isFunctional, hgone, Bool.not_true, Bool.and_false]
      at hfunctional
    cases hfunctional
  · exact hbefore

/-- Reports leave no departed silo on a ring to come that was not there before. -/
theorem LeftOver.hears (h : LeftOver n c r o) {news : List StatusEvent}
    (hhears : Hears (c.service n).home o o' r news r') : LeftOver n c r' o' := by
  intro x hother hgone hx
  cases hhears with
  | nothing hrecord => exact h x hother (Oracle.status_of_reports_eq hrecord x ▸ hgone) hx
  | repeated _ hrecord => exact h x hother (Oracle.status_of_reports_eq hrecord x ▸ hgone) hx
  | @news e hrecord =>
    have hheard := @Hears.news (c.service n).home o o' r e hrecord
    rw [hheard.status_eq] at hgone
    by_cases hid : x.id = e.silo.id
    · rw [if_pos hid] at hgone
      rw [Ring.contains_congr hid, Ring.contains_follow_leave (hid ▸ hother) hgone] at hx
      cases hx
    · rw [if_neg hid] at hgone
      exact h x hother hgone (Ring.contains_of_follow (fun heq => hid heq.symm) hx)

/-! ## Runs -/

/-- Whether a command, in the state that it meets, starts or stops a service, or changes its ring in no
other way than that the service follows an event. -/
def Tends (n : ServiceId) (c : Cluster) : Command → Prop
  | .start _ => True
  | .stop _ => True
  | command => c.LeavesRing n command

/-- Whether every command of a run does so, in the state that it meets. -/
def AllTend (n : ServiceId) : Cluster → List Command → Prop
  | _, [] => True
  | c, command :: rest => c.Tends n command ∧ AllTend n (command.perform.run c).2 rest

theorem Tends.leavesRing {command : Command} (h : c.Tends n command) (hstop : command ≠ .stop n)
    (hstart : command = .start n → (c.service n).subscription ≠ none) : c.LeavesRing n command := by
  cases command with
  | start i =>
    rintro rfl
    exact hstart rfl
  | stop i =>
    rintro rfl
    exact hstop rfl
  | _ => exact h

/-- Whether a service was last started after some of the commands of a run that began in `c`, and has
foreseen since then what becomes of its ring. -/
structure Attends (n : ServiceId) (c : Cluster) (commands before since : List Command)
    (now : Cluster) : Prop where
  split : commands = before ++ .start n :: since
  unstopped : .stop n ∉ since
  stopped : ((c.afterAll before).service n).subscription = none
  foresees : ∃ r, Foresees n ((c.afterAll before).service n).home r now ∧
    LeftOver n (c.afterAll before) r now.oracle

/-- Whether a service rests and hears of nothing, or attends to what is reported. -/
structure Attentive (n : ServiceId) (c : Cluster) (commands : List Command) (now : Cluster) : Prop
    extends Enrolled n now where
  attends : ((now.service n).subscription = none ∧ (now.service n).running = false) ∨
    ∃ before since, Attends n c commands before since now

theorem Attends.perform {commands before since : List Command} {now : Cluster}
    (h : Attends n c commands before since now) (henrolled : Enrolled n now) {command : Command}
    (hleaves : now.LeavesRing n command) (hstop : command ≠ .stop n) :
    Attends n c (commands ++ [command]) before (since ++ [command]) (command.perform.run now).2 where
  split := by rw [h.split, List.append_assoc, List.cons_append]
  unstopped := by
    rw [List.mem_append, List.mem_singleton, not_or]
    exact ⟨h.unstopped, hstop.symm⟩
  stopped := h.stopped
  foresees := by
    obtain ⟨r, hforesees, hleft⟩ := h.foresees
    obtain ⟨r', hafter, hhears⟩ :=
      hforesees.course ((conducts_perform now command).course n henrolled hleaves)
    exact ⟨r', hafter, hleft.hears hhears⟩

/-- A service is attentive after a command if it was. -/
theorem Attentive.perform {commands : List Command} {now : Cluster}
    (h : Attentive n c commands now) (hnow : now = c.afterAll commands) {command : Command}
    (htends : now.Tends n command) :
    Attentive n c (commands ++ [command]) (command.perform.run now).2 := by
  by_cases hstop : command = .stop n
  · subst hstop
    have hservice : (now.stop n).service n = ((now.service n).stop now.moment).1 :=
      service_adjust_self (c := { now with oracle := _ }) h.present _
    have hsubscription : ((now.stop n).service n).subscription = none := by
      rw [hservice]
      rfl
    refine ⟨⟨?_, h.issued.of_enlists (moves_stop now n).enlists, fun j id _ hid => ?_⟩,
      .inl ⟨hsubscription, ?_⟩⟩
    · show n < (now.stop n).services.length
      rw [stop, length_adjust]
      exact h.present
    · cases hsubscription.symm.trans hid
    · show ((now.stop n).service n).running = false
      rw [hservice]
      rfl
  · by_cases hstart : command = .start n ∧ (now.service n).subscription = none
    · obtain ⟨rfl, hstopped⟩ := hstart
      obtain ⟨hforesees, hrecord⟩ := h.toEnrolled.start hstopped
      subst hnow
      exact ⟨hforesees.toEnrolled, .inr ⟨commands, [], rfl, List.not_mem_nil, hstopped, _, hforesees,
        leftOver_start hrecord _⟩⟩
    · have hleaves := htends.leavesRing hstop fun heq hnone => hstart ⟨heq, hnone⟩
      rcases h.attends with ⟨hstopped, hrests⟩ | ⟨before, since, hattends⟩
      · obtain ⟨henrolled, hpost⟩ := h.toEnrolled.course hstopped
          ((conducts_perform now command).course n h.toEnrolled hleaves)
        exact ⟨henrolled, .inl ⟨(congrArg Post.subscription hpost).trans hstopped,
          (running_perform h.present hleaves).trans hrests⟩⟩
      · have hafter := hattends.perform h.toEnrolled hleaves hstop
        obtain ⟨r, hforesees, -⟩ := hafter.foresees
        exact ⟨hforesees.toEnrolled, .inr ⟨before, _, hafter⟩⟩

theorem Attentive.afterAll {past : List Command} {now : Cluster} (h : Attentive n c past now)
    (hnow : now = c.afterAll past) {commands : List Command} (htend : AllTend n now commands) :
    Attentive n c (past ++ commands) (now.afterAll commands) := by
  induction commands generalizing past now with
  | nil =>
    rw [List.append_nil]
    exact h
  | cons command rest ih =>
    rw [List.append_cons]
    refine ih (h.perform hnow htend.1) ?_ htend.2
    rw [hnow, afterAll_concat]

/-! ## The main statement -/

/-- Whether a service is there, does not follow membership and does not run. -/
structure Rests (n : ServiceId) (c : Cluster) : Prop where
  present : n < c.services.length
  stopped : (c.service n).subscription = none
  running : (c.service n).running = false

/-- Whether a departed silo was on the ring of a service already when the service was last started in the
course of some commands. -/
def StartedWith (n : ServiceId) (x : Silo) (c : Cluster) (commands : List Command) : Prop :=
  ∃ before since, commands = before ++ .start n :: since ∧ .stop n ∉ since ∧
    ((c.afterAll before).service n).subscription = none ∧ Departed n x (c.afterAll before)

/-- However often a service is started and stopped, and whatever is reported and delivered in any order:
while it is running and nothing waits for it, the only departed silos on its ring are those that were
there when it was last started, and had departed by then. -/
theorem departed_was_left_over {commands : List Command} (hreached : c.Reached) (hrests : Rests n c)
    (htend : AllTend n c commands) (hrunning : ((c.afterAll commands).service n).running = true)
    (hpending : (c.afterAll commands).pending n = 0) {x : Silo}
    (hdeparted : Departed n x (c.afterAll commands)) : StartedWith n x c commands := by
  have hbegin : Attentive n c [] c := by
    refine ⟨⟨hrests.present, hreached.issued, fun j id _ hid => ?_⟩,
      .inl ⟨hrests.stopped, hrests.running⟩⟩
    cases hrests.stopped.symm.trans hid
  rcases (hbegin.afterAll rfl htend).attends with ⟨-, hresting⟩ | ⟨before, since, hattends⟩
  · cases hrunning.symm.trans hresting
  · obtain ⟨r, hforesees, hleft⟩ := hattends.foresees
    refine ⟨before, since, hattends.split, hattends.unstopped, hattends.stopped, ?_⟩
    refine hleft x (hforesees.home_eq ▸ hdeparted.other) hdeparted.gone ?_
    rw [← hforesees.ring_eq hpending]
    exact hdeparted.member

/-- A service that is alone, before it is started. -/
def oneInstalled : Cluster := ({} : Cluster).afterAll [.install blueprintAt1]

/-- Another silo becomes active, and dies while the service is stopped. -/
def diesWhileStopped : List Command :=
  [.start 0, .report (siloAt 2) .active, .deliver 0, .stop 0, .report (siloAt 2) .dead,
    .start 0]

theorem allTend_diesWhileStopped : AllTend 0 oneInstalled diesWhileStopped :=
  ⟨trivial, trivial, trivial, trivial, trivial, trivial, trivial⟩

theorem departed_was_left_over_diesWhileStopped :
    Rests 0 oneInstalled ∧ AllTend 0 oneInstalled diesWhileStopped ∧
      ((oneInstalled.afterAll diesWhileStopped).service 0).running = true ∧
      Departed 0 (siloAt 2) (oneInstalled.afterAll diesWhileStopped) ∧
      StartedWith 0 (siloAt 2) oneInstalled diesWhileStopped := by
  have hrests : Rests 0 oneInstalled := ⟨by decide, rfl, rfl⟩
  have hdeparted : Departed 0 (siloAt 2) (oneInstalled.afterAll diesWhileStopped) :=
    ⟨by decide, by decide, by decide⟩
  exact ⟨hrests, allTend_diesWhileStopped, by decide, hdeparted,
    departed_was_left_over ⟨{}, _, rfl, rfl⟩ hrests allTend_diesWhileStopped (by decide) (by decide)
      hdeparted⟩

/-- The dead silo is on the ring of the service that has been started again. -/
theorem exists_departed_member :
    ¬ ∀ (c : Cluster) (n : ServiceId) (commands : List Command), c.Reached → Rests n c →
      AllTend n c commands → ((c.afterAll commands).service n).running = true →
        (c.afterAll commands).pending n = 0 → ∀ x : Silo, ¬ Departed n x (c.afterAll commands) :=
  fun h => h oneInstalled 0 diesWhileStopped ⟨{}, _, rfl, rfl⟩ ⟨by decide, rfl, rfl⟩
    allTend_diesWhileStopped (by decide) (by decide) (siloAt 2) ⟨by decide, by decide, by decide⟩

end Cluster

end GrainDirectory

import GrainDirectory.Proofs.Membership.Foresight
set_option autoImplicit false

/-!
# The event queue loses nothing

A service that starts subscribes first and reads afterwards whom the oracle considers functional, so
every later report finds its inbox open.  From then on its ring, once it has followed what waits in
the inbox, shows what has been reported since the start on top of what was known then: a report that is
news goes to the end of the queue, a report that is no news repeats what is shown already, and an
event that is delivered is taken off the queue and followed.

What every step preserves is `Tracks`; the main statement is `ring_follows_reports`.
-/

namespace GrainDirectory.Cluster

variable {n : ServiceId} {home : Silo} {c c' : Cluster}

/-! ## Before the start -/

/-- Whether a service is as it was built, as far as membership goes. -/
structure Waits (n : ServiceId) (home : Silo) (c : Cluster) : Prop extends Enrolled n c where
  post : (c.service n).post = ⟨home, Ring.ofList [home], none⟩

/-- The service that has been installed last waits to be started. -/
theorem waits_of_install (hissued : c.Issued) {b : Blueprint} (h : c.install b = .ok c')
    (hn : n + 1 = c'.services.length) : Waits n b.home c' := by
  have henlists := enlists_install h
  obtain ⟨s, hbuild, rfl⟩ := install_eq_ok h
  have hlast : n = (c.dismiss b.label).services.length := by
    rw [List.length_append] at hn
    exact Nat.succ.inj hn
  have hpost : (({ c.dismiss b.label with
      services := (c.dismiss b.label).services ++ [s] } : Cluster).service n).post =
        ⟨b.home, Ring.ofList [b.home], none⟩ := by
    rw [service_append, if_pos hlast]
    exact post_of_build hbuild
  refine ⟨⟨hn ▸ Nat.lt_succ_self n, hissued.of_enlists henlists, fun j id _ hid => ?_⟩, hpost⟩
  cases (congrArg Post.subscription hpost).symm.trans hid

namespace Waits

variable (h : Waits n home c)

include h

theorem subscription_eq : (c.service n).subscription = none := congrArg Post.subscription h.post

theorem course {reports : List StatusEvent} (hcourse : Course n c reports c') : Waits n home c' := by
  obtain ⟨henrolled, hpost⟩ := h.toEnrolled.course h.subscription_eq hcourse
  exact ⟨henrolled, hpost.trans h.post⟩

/-- A service waits as long as nobody starts it. -/
theorem afterAll {commands : List Command} (hleave : AllLeaveRing n c commands) :
    Waits n home (c.afterAll commands) :=
  @AllLeaveRing.induction n c (fun _ => Waits n home) commands [] hleave h
    fun command hleaves hwaits =>
      hwaits.course ((conducts_perform _ command).course n hwaits.toEnrolled hleaves)

end Waits

/-! ## The invariant -/

/-- Whether the ring of a service, once it has followed the events in its inbox, shows what has been
reported on top of what was known, and the oracle has nothing else on record. -/
structure Tracks (n : ServiceId) (home : Silo) (known : Oracle) (reports : List StatusEvent)
    (c : Cluster) : Prop extends Enrolled n c where
  home_eq : (c.service n).home = home
  records : c.oracle.Records known reports
  following : ∃ id b, (c.service n).subscription = some id ∧ c.oracle.inboxes.find? id = some b ∧
    b.Open ∧ (b.queue.foldl (Ring.follow home) (c.service n).ring).Shows home known reports

theorem tracks_of_foresees {known : Oracle} {reports : List StatusEvent} {r : Ring}
    (hforesees : Foresees n home r c) (hrecords : c.oracle.Records known reports)
    (hshows : r.Shows home known reports) : Tracks n home known reports c := by
  obtain ⟨id, b, hid, hb, hopen, rfl⟩ := hforesees.inbox
  exact ⟨hforesees.toEnrolled, hforesees.home_eq, hrecords, id, b, hid, hb, hopen, hshows⟩

/-- A service that starts tracks what is reported from then on. -/
theorem Waits.start (h : Waits n home c) : Tracks n home c.oracle [] (c.start n) := by
  obtain ⟨hforesees, hrecord⟩ := h.toEnrolled.start h.subscription_eq
  have hhome : (c.service n).home = home := congrArg Post.home h.post
  have hring : (c.service n).ring = Ring.ofList [home] := congrArg Post.ring h.post
  rw [hring, hhome] at hforesees
  exact tracks_of_foresees hforesees (c.oracle.records_self.of_reports_eq hrecord)
    (Ring.shows_ofList home c.oracle)

namespace Tracks

variable {known : Oracle} {reports : List StatusEvent} (h : Tracks n home known reports c)

include h

theorem foresees : ∃ r, Foresees n home r c ∧ r.Shows home known reports := by
  obtain ⟨id, b, hid, hb, hopen, hshows⟩ := h.following
  exact ⟨_, ⟨h.toEnrolled, h.home_eq, id, b, hid, hb, hopen, rfl⟩, hshows⟩

theorem course {news : List StatusEvent} (hcourse : Course n c news c') :
    Tracks n home known (reports ++ news) c' := by
  obtain ⟨r, hforesees, hshows⟩ := h.foresees
  obtain ⟨r', hafter, hhears⟩ := hforesees.course hcourse
  cases hhears with
  | nothing hrecord =>
    rw [List.append_nil]
    exact tracks_of_foresees hafter (h.records.of_reports_eq hrecord) hshows
  | @repeated e hknown hrecord =>
    have hheard := @Hears.repeated home _ _ r _ hknown hrecord
    obtain ⟨k, hk, hstatus⟩ := hknown
    have hrecorded := h.records e.silo
    rw [Oracle.status_of_find? hk, hstatus] at hrecorded
    exact tracks_of_foresees hafter (h.records.concat hheard.status_eq) (hshows.repeated hrecorded)
  | news hrecord =>
    have hheard := @Hears.news home _ _ r _ hrecord
    exact tracks_of_foresees hafter (h.records.concat hheard.status_eq) (hshows.follow _)

/-- What a run reports is tracked. -/
theorem afterAll {commands : List Command} (hleave : AllLeaveRing n c commands) :
    Tracks n home known (reports ++ reportsIn c commands) (c.afterAll commands) :=
  hleave.induction (P := Tracks n home known) h fun command hleaves htracks =>
    htracks.course ((conducts_perform _ command).course n htracks.toEnrolled hleaves)

/-- Nothing waits once all that waits has been delivered. -/
theorem repeat_deliver (k : Nat) : Tracks n home known reports (k.repeat (Cluster.deliver · n) c) ∧
    (k.repeat (Cluster.deliver · n) c).pending n = c.pending n - k := by
  induction k with
  | zero => exact ⟨h, rfl⟩
  | succ k ih =>
    obtain ⟨htracks, hpending⟩ := ih
    obtain ⟨r, hforesees, hshows⟩ := htracks.foresees
    obtain ⟨hafter, hrecord, hdelivered⟩ := hforesees.deliver
    exact ⟨tracks_of_foresees hafter (htracks.records.of_reports_eq hrecord) hshows,
      by rw [Nat.repeat, hdelivered, hpending, Nat.sub_sub]⟩

/-- When nothing waits, the ring shows what has been reported. -/
theorem shows_of_pending (hpending : c.pending n = 0) :
    (c.service n).ring.Shows home known reports := by
  obtain ⟨r, hforesees, hshows⟩ := h.foresees
  rwa [← hforesees.ring_eq hpending] at hshows

end Tracks

/-! ## The main statement -/

/-- Whether a cluster has come about from one without services. -/
def Reached (c : Cluster) : Prop :=
  ∃ (origin : Cluster) (commands : List Command),
    origin.services = [] ∧ c = origin.afterAll commands

theorem Reached.issued (h : c.Reached) : c.Issued := by
  obtain ⟨origin, commands, hnew, rfl⟩ := h
  exact (issued_of_services_eq_nil hnew).afterAll commands

/-- Whether the ring of a service is what has been reported on top of what was known, as soon as the
service has followed the events that wait for it. -/
structure FollowsReports (n : ServiceId) (home : Silo) (known : Oracle) (reports : List StatusEvent)
    (c : Cluster) : Prop where
  foreseen : (((c.pending n).repeat (deliver · n) c).service n).ring.Shows home known reports
  settled : c.pending n = 0 → (c.service n).ring.Shows home known reports

/-- Whatever is reported before a service is started and after, and however that is mixed with the
deliveries to the service and with what everybody else does, the ring of the service follows the
reports. -/
theorem ring_follows_reports {b : Blueprint} {before after : List Command} (hreached : c.Reached)
    (hinstall : c.install b = .ok c') (hn : n + 1 = c'.services.length)
    (hbefore : AllLeaveRing n c' before)
    (hafter : AllLeaveRing n ((c'.afterAll before).start n) after) :
    FollowsReports n b.home (c'.afterAll before).oracle
      (reportsIn ((c'.afterAll before).start n) after)
      (((c'.afterAll before).start n).afterAll after) := by
  have hwaits := (waits_of_install hreached.issued hinstall hn).afterAll hbefore
  have htracks := hwaits.start.afterAll hafter
  refine ⟨?_, htracks.shows_of_pending⟩
  obtain ⟨hdrained, hpending⟩ := htracks.repeat_deliver _
  exact hdrained.shows_of_pending (hpending.trans (Nat.sub_self _))

/-- The silo at a place; its port is the same number. -/
def siloAt (number : UInt32) : Silo := ⟨⟨.v4 1 number.toUInt16, 1⟩, number⟩

/-- One silo is known to be active and another to be joining, and no service is there yet. -/
def activeAndJoining : Cluster :=
  ({} : Cluster).afterAll [.report (siloAt 2) .active, .report (siloAt 3) .joining]

/-- A service at place 1. -/
def blueprintAt1 : Blueprint := { label := "a", home := siloAt 1 }

/-- The same with the service at place 1 installed. -/
def installedAt1 : Cluster :=
  match activeAndJoining.install blueprintAt1 with
  | .ok c => c
  | .error _ => activeAndJoining

/-- A silo comes and goes before the service is started. -/
def comesAndGoes : List Command :=
  [.report (siloAt 4) .active, .report (siloAt 4) .dead]

/-- One silo dies, which is reported twice, and another comes back; the service hears of the death, and
what is reported then is no news or says nothing about the ring. -/
def deathTwice : List Command :=
  [.report (siloAt 2) .dead, .report (siloAt 2) .dead, .report (siloAt 4) .active,
    .deliver 0, .report (siloAt 3) .joining, .report (siloAt 2) .created]

theorem ring_follows_reports_deathTwice :
    activeAndJoining.Reached ∧ activeAndJoining.install blueprintAt1 = .ok installedAt1 ∧
      0 + 1 = installedAt1.services.length ∧
      AllLeaveRing 0 installedAt1 comesAndGoes ∧
      AllLeaveRing 0 ((installedAt1.afterAll comesAndGoes).start 0) deathTwice ∧
      FollowsReports 0 (siloAt 1) (installedAt1.afterAll comesAndGoes).oracle
        (reportsIn ((installedAt1.afterAll comesAndGoes).start 0) deathTwice)
        (((installedAt1.afterAll comesAndGoes).start 0).afterAll deathTwice) ∧
      (((installedAt1.afterAll comesAndGoes).start 0).afterAll deathTwice).pending 0 = 2 ∧
      ((((installedAt1.afterAll comesAndGoes).start 0).afterAll deathTwice).service 0).ring.silos =
        [siloAt 1, siloAt 3] := by
  have hreached : activeAndJoining.Reached := ⟨{}, _, rfl, rfl⟩
  have hinstall : activeAndJoining.install blueprintAt1 = .ok installedAt1 := rfl
  have hbefore : AllLeaveRing 0 installedAt1 comesAndGoes := allLeaveRing_of_tells (by decide)
  have hafter : AllLeaveRing 0 ((installedAt1.afterAll comesAndGoes).start 0) deathTwice :=
    allLeaveRing_of_tells (by decide)
  exact ⟨hreached, hinstall, rfl, hbefore, hafter,
    ring_follows_reports hreached hinstall rfl hbefore hafter, by decide, by decide⟩

end GrainDirectory.Cluster

import GrainDirectory.Proofs.Membership.EventQueue
import GrainDirectory.Proofs.Places
import GrainDirectory.Proofs.Ring.Placement
import GrainDirectory.Proofs.Turns
set_option autoImplicit false

/-!
# Services that agree on the ring

Services that share an oracle may be started one after the other.  The later one takes its ring from what
the oracle has on record then, the earlier one has made its own from the reports.  An oracle considers a
silo functional that is created or joining, and the report that a silo is created or joining puts it on
no ring.  So whether such a silo is on the ring of a service depends on when the service was started.

Where every silo on record at the later start was active or leaving, or is reported to be one of both
since, the two services have the same ring as soon as nothing waits for either, and the same owner for
every grain.  The main statement is `rings_agree`.
-/

namespace GrainDirectory

variable {place : SiloId → UInt32}

/-! ## One place for every silo -/

namespace Ring

variable {r r' : Ring} {home : Silo}

/-- Whether all silos of a ring are at their places. -/
def Placed (place : SiloId → UInt32) (r : Ring) : Prop := ∀ m ∈ r.silos, m.Placed place

theorem Placed.insert (h : r.Placed place) {s : Silo} (hs : s.Placed place) :
    (r.insert s).Placed place := by
  intro m hm
  rcases eq_or_mem_of_insert hm with rfl | hm
  · exact hs
  · exact h m hm

theorem Placed.foldl_insert (h : r.Placed place) {silos : List Silo}
    (hsilos : ∀ s ∈ silos, s.Placed place) : (silos.foldl Ring.insert r).Placed place :=
  List.foldlRecOn silos Ring.insert h fun _ h s hs => h.insert (hsilos s hs)

theorem Placed.follow (h : r.Placed place) {e : StatusEvent} (he : e.silo.Placed place) :
    (r.follow home e).Placed place := by
  unfold Ring.follow
  split
  · exact h
  · split
    · exact fun m hm => h m (mem_change_remove hm)
    · split
      · exact h.insert he
      · exact h

/-- Rings with the same silos, each at its place, are the same. -/
theorem Placed.eq_of_contains_iff (h : r.Placed place) (h' : r'.Placed place) (hordered : r.Ordered)
    (hordered' : r'.Ordered) (hmem : ∀ x, r.contains x = true ↔ r'.contains x = true) : r = r' := by
  have hsub {r r' : Ring} (h : r.Placed place) (h' : r'.Placed place)
      (hmem : ∀ x, r.contains x = true → r'.contains x = true) :
      ∀ m ∈ r.silos, m ∈ r'.silos := by
    intro m hm
    obtain ⟨m', hm', hid⟩ := contains_eq_true_iff.mp (hmem m (contains_eq_true_iff.mpr ⟨m, hm, rfl⟩))
    rwa [(h m hm).eq_of_identity (h' m' hm') hid.symm]
  exact hordered.eq_of_mem_iff hordered' fun m =>
    ⟨hsub h h' (fun x => (hmem x).mp) m, hsub h' h (fun x => (hmem x).mpr) m⟩

end Ring

/-! ## What is on record -/

namespace Oracle

variable {o o' known : Oracle} {early late : List StatusEvent} {s x : Silo}

/-- Whether all silos on record are at their places. -/
def Placed (place : SiloId → UInt32) (o : Oracle) : Prop :=
  ∀ r ∈ o.reports.rows, r.silo.Placed place

instance (o : Oracle) : Decidable (o.Placed place) := inferInstanceAs (Decidable (∀ _ ∈ _, _))

theorem Placed.of_reports_eq (h : o.Placed place) (heq : o'.reports = o.reports) :
    o'.Placed place := fun r hr => h r (heq ▸ hr)

/-- A silo keeps the place that it was first reported with. -/
theorem Placed.record (h : o.Placed place) (hs : s.Placed place) (status : SiloStatus) :
    (o.record s status).Placed place := by
  have hput (silo : Silo) (hsilo : silo.Placed place) :
      ({ o with reports := o.reports.put ⟨silo, status⟩ } : Oracle).Placed place := by
    intro r hr
    have hfound := Table.find?_eq_some_iff.mpr ⟨hr, rfl⟩
    dsimp only at hfound
    rw [Table.find?_put] at hfound
    split at hfound
    · rw [← Option.some.inj hfound]
      exact hsilo
    · exact h r (Table.find?_eq_some_iff.mp hfound).1
  unfold Oracle.record
  split
  · rename_i r hr
    exact hput r.silo (h r (Table.find?_eq_some_iff.mp hr).1)
  · exact hput s hs

theorem Placed.of_functionalSilos (h : o.Placed place) : ∀ s ∈ o.functionalSilos, s.Placed place := by
  intro s hs
  obtain ⟨r, hr, rfl⟩ := List.mem_map.mp hs
  exact h r (List.mem_filter.mp hr).1

/-- Whether everybody is on record who was known or has been reported. -/
def Covers (o known : Oracle) (reports : List StatusEvent) : Prop :=
  ∀ id, o.reports.find? id = none →
    known.reports.find? id = none ∧ ∀ e ∈ reports, e.silo.id ≠ id

theorem covers_self (o : Oracle) : o.Covers o [] := fun _ h => ⟨h, fun _ he => nomatch he⟩

theorem Covers.of_reports_eq (h : o.Covers known early) (heq : o'.reports = o.reports) :
    o'.Covers known early := fun id hid => h id (heq ▸ hid)

theorem Covers.concat (h : o.Covers known early) {e : StatusEvent}
    (hrecord : ∀ id, o'.reports.find? id = none → o.reports.find? id = none ∧ e.silo.id ≠ id) :
    o'.Covers known (early ++ [e]) := by
  intro id hid
  obtain ⟨hbefore, hnew⟩ := hrecord id hid
  obtain ⟨hknown, hreported⟩ := h id hbefore
  refine ⟨hknown, fun e' he' => ?_⟩
  rcases List.mem_append.mp he' with he' | he'
  · exact hreported e' he'
  · rw [List.mem_singleton.mp he']
    exact hnew

theorem find?_record_eq_none {status : SiloStatus} {id : SiloId}
    (h : (o.record s status).reports.find? id = none) : o.reports.find? id = none ∧ s.id ≠ id := by
  obtain ⟨silo, hsilo, heq⟩ := o.record_eq s status
  rw [heq, Table.find?_put] at h
  split at h
  · cases h
  · rename_i hne
    exact ⟨h, fun hid => hne (hid.symm.trans hsilo.symm)⟩

/-- Whether of everybody on record it was known or has been reported since that the silo belongs on the
ring or that it does not. -/
def Decided (known : Oracle) (reports : List StatusEvent) : Prop :=
  ∀ r ∈ known.reports.rows,
    r.status.Decisive ∨ ∃ e ∈ reports, e.silo.id = r.silo.id ∧ e.status.Decisive

instance (reports : List StatusEvent) : Decidable (o.Decided reports) :=
  inferInstanceAs (Decidable (∀ _ ∈ _, _))

/-- Where everybody is decided, it does not matter for who belongs on the ring which reports came before
the record was made and which came after. -/
theorem announced_append_iff (hrecords : o.Records known early) (hcovers : o.Covers known early)
    (hdecided : o.Decided late) : Announced known (early ++ late) x ↔ Announced o late x := by
  unfold Announced
  have hlast : lastWord? (early ++ late) x = (lastWord? late x).or (lastWord? early x) := by
    rw [lastWord?, List.filter_append, List.getLast?_append, lastWord?, lastWord?]
  rw [hlast]
  cases hlate : lastWord? late x with
  | some e => rfl
  | none =>
    rw [Option.none_or]
    -- Nothing decisive has been reported since, so the record itself decides.
    have hsilent : ∀ e ∈ late, ¬ (e.silo.id = x.id ∧ e.status.Decisive) := by
      rw [lastWord?, List.getLast?_eq_none_iff, List.filter_eq_nil_iff] at hlate
      exact fun e he hsame => hlate e he (decide_eq_true hsame)
    cases hrecord : o.reports.find? x.id with
    | some r =>
      have hstatus := status_of_find? hrecord
      have hdecisive : (o.status x).Decisive := by
        rw [hstatus]
        obtain ⟨hrow, hid⟩ := Table.find?_eq_some_iff.mp hrecord
        refine (hdecided r hrow).resolve_right fun hreported => ?_
        obtain ⟨e, he, hsame, hdecisive⟩ := hreported
        exact hsilent e he ⟨hsame.trans hid, hdecisive⟩
      exact (hrecords x hdecisive).trans hdecisive.isFunctional_iff.symm
    | none =>
      obtain ⟨hknown, hreported⟩ := hcovers x.id hrecord
      have hearly : lastWord? early x = none := by
        rw [lastWord?, List.getLast?_eq_none_iff, List.filter_eq_nil_iff]
        exact fun e he hsame => hreported e he (of_decide_eq_true hsame).1
      rw [hearly]
      simp only [isFunctional, status, hknown, hrecord]

end Oracle

namespace Cluster

variable {n n' : ServiceId} {home : Silo} {known : Oracle} {reports : List StatusEvent}
  {c c' : Cluster}

/-! ## The invariant -/

/-- Whether a service is running and tracks reports, everybody being at one place, and whoever was known
or has been reported is on record. -/
structure Charts (place : SiloId → UInt32) (n : ServiceId) (home : Silo) (known : Oracle)
    (reports : List StatusEvent) (c : Cluster) : Prop extends Tracks n home known reports c where
  running : (c.service n).running = true
  charted : ∃ r, Foresees n home r c ∧ r.Placed place
  placed : c.oracle.Placed place
  covers : c.oracle.Covers known reports

/-- A service that is started for the first time charts what is reported from then on. -/
theorem Waits.charts (h : Waits n home c) (hplaced : c.oracle.Placed place)
    (hhome : home.Placed place) : Charts place n home c.oracle [] (c.start n) := by
  obtain ⟨hforesees, hrecord⟩ := h.toEnrolled.start h.subscription_eq
  have hown : (c.service n).home = home := congrArg Post.home h.post
  have hring : (c.service n).ring = Ring.ofList [home] := congrArg Post.ring h.post
  rw [hring, hown] at hforesees
  refine ⟨h.start, ?_, ⟨_, hforesees, ?_⟩, hplaced.of_reports_eq hrecord,
    c.oracle.covers_self.of_reports_eq hrecord⟩
  · have hservice : (c.start n).service n = ((c.service n).start c.moment).1 :=
      service_adjust_self (c := { c with oracle := _ }) h.present _
    rw [hservice]
    exact Service.running_start h.subscription_eq c.moment
  · refine Ring.Placed.foldl_insert (fun m hm => ?_) fun s hs =>
      hplaced.of_functionalSilos s (List.mem_filter.mp hs).1
    rwa [List.mem_singleton.mp hm]

namespace Charts

variable (h : Charts place n home known reports c)

include h

theorem perform {command : Command} (hleaves : c.LeavesRing n command)
    (hreported : ∀ e ∈ c.reportsOf command, e.silo.Placed place) :
    Charts place n home known (reports ++ c.reportsOf command) (command.perform.run c).2 := by
  have hcourse := (conducts_perform c command).course n h.toEnrolled hleaves
  have hrunning := (running_perform h.present hleaves).trans h.running
  have htracks := h.toTracks.course hcourse
  obtain ⟨r, hforesees, hring⟩ := h.charted
  obtain ⟨r', hafter, hhears⟩ := hforesees.course hcourse
  generalize c.reportsOf command = news at *
  cases hhears with
  | nothing hrecord =>
    refine ⟨htracks, hrunning, ⟨r, hafter, hring⟩, h.placed.of_reports_eq hrecord, ?_⟩
    rw [List.append_nil]
    exact h.covers.of_reports_eq hrecord
  | @repeated e hknown hrecord =>
    obtain ⟨k, hk, -⟩ := hknown
    refine ⟨htracks, hrunning, ⟨r, hafter, hring⟩, h.placed.of_reports_eq hrecord,
      h.covers.concat fun id hid => ?_⟩
    rw [hrecord] at hid
    refine ⟨hid, fun hsame => ?_⟩
    rw [hsame, hid] at hk
    cases hk
  | @news e hrecord =>
    have he := hreported e (List.mem_singleton_self e)
    refine ⟨htracks, hrunning, ⟨_, hafter, hring.follow he⟩,
      (h.placed.record he e.status).of_reports_eq hrecord, h.covers.concat fun id hid => ?_⟩
    rw [hrecord] at hid
    exact Oracle.find?_record_eq_none hid

/-- What a run reports is charted. -/
theorem afterAll {commands : List Command} (hleave : AllLeaveRing n c commands)
    (hreported : ∀ e ∈ reportsIn c commands, e.silo.Placed place) :
    Charts place n home known (reports ++ reportsIn c commands) (c.afterAll commands) := by
  induction commands generalizing c reports with
  | nil =>
    rw [reportsIn, List.append_nil]
    exact h
  | cons command rest ih =>
    rw [reportsIn, ← List.append_assoc]
    have hfirst := h.perform hleave.1 fun e he => hreported e (List.mem_append_left _ he)
    exact ih hfirst hleave.2 fun e he => hreported e (List.mem_append_right _ he)

end Charts

/-! ## The main statement -/

/-- Whether a service is as it was built: it knows no silo but its own, and has never been started. -/
structure Fresh (n : ServiceId) (c : Cluster) : Prop where
  present : n < c.services.length
  post : (c.service n).post = ⟨(c.service n).home, Ring.ofList [(c.service n).home], none⟩

theorem Fresh.waits (h : Fresh n c) (hissued : c.Issued) : Waits n (c.service n).home c := by
  have hstopped : (c.service n).subscription = none := congrArg Post.subscription h.post
  refine ⟨⟨h.present, hissued, fun j id _ hid => ?_⟩, h.post⟩
  cases hstopped.symm.trans hid

/-- Whether one service is started in a cluster `c` and, after some commands, another in `d`; whatever is
done before, in between and afterwards leaves each its ring from its start on. -/
structure Companions (n n' : ServiceId) (c d : Cluster) (early late : List Command) : Prop where
  reached : c.Reached
  first : Fresh n c
  meanwhile : AllLeaveRing n (c.start n) early
  later : (c.start n).afterAll early = d
  second : Fresh n' d
  aside : d.LeavesRing n (.start n')
  afterwards : AllLeaveRing n (d.start n') late
  afterwards' : AllLeaveRing n' (d.start n') late

/-- Whether whatever was known at the start of the first of two services, whatever has been reported
since, and the two services themselves have every silo at one place. -/
structure PlacedAlike (place : SiloId → UInt32) (n n' : ServiceId) (c d : Cluster)
    (early late : List Command) : Prop where
  known : c.oracle.Placed place
  home : (c.service n).home.Placed place
  home' : (d.service n').home.Placed place
  meanwhile : ∀ e ∈ reportsIn (c.start n) early, e.silo.Placed place
  afterwards : ∀ e ∈ reportsIn (d.start n') late, e.silo.Placed place

/-- Whether nothing waits for a service, and its own silo is active. -/
structure Settled (n : ServiceId) (c : Cluster) : Prop where
  pending : c.pending n = 0
  active : c.oracle.status (c.service n).home = .active

/-- Whether two services have the same ring, and the same owner for every ordinary grain. -/
structure Agree (n n' : ServiceId) (c : Cluster) : Prop where
  ring : (c.service n).ring = (c.service n').ring
  owner : ∀ g : Grain, g.isSystemTarget = false → (c.service n).owner? g = (c.service n').owner? g

/-- The ring of a service that nothing waits for has exactly the silos that belong on it, when its own
does. -/
theorem Charts.settled (h : Charts place n home known reports c) (hsettled : Settled n c) :
    (c.service n).ring.Ordered ∧ (c.service n).ring.Placed place ∧
      ∀ x, (c.service n).ring.contains x = true ↔ Announced known reports x := by
  have hshows := h.toTracks.shows_of_pending hsettled.pending
  obtain ⟨r, hforesees, hring⟩ := h.charted
  have hactive : c.oracle.status home = .active := h.home_eq ▸ hsettled.active
  have hhome : Announced known reports home :=
    (h.records home (.inl hactive)).mpr hactive
  refine ⟨hshows.ordered, hforesees.ring_eq hsettled.pending ▸ hring, fun x => ?_⟩
  rw [hshows.members]
  exact or_iff_right_of_imp fun hid => (announced_congr hid).mpr hhome

/-- Such a service takes the owner of an ordinary grain from its ring. -/
theorem Charts.owner?_eq (h : Charts place n home known reports c) (hsettled : Settled n c) {g : Grain}
    (hg : g.isSystemTarget = false) :
    (c.service n).owner? g = .ok ((c.service n).ring.owner? g.position none) := by
  have hshows := h.toTracks.shows_of_pending hsettled.pending
  obtain ⟨m, hm, -⟩ := Ring.contains_eq_true_iff.mp ((hshows.members home).mpr (.inl rfl))
  have hring : (c.service n).ring.isEmpty = false :=
    List.isEmpty_eq_false_iff.mpr (List.ne_nil_of_mem hm)
  exact Resolver.owner?_of_running (q := (c.service n).resolver) hg hring h.running

/-- Whatever is reported and whenever the two services are started: as soon as nothing waits for either
they have the same ring and the same owner for every ordinary grain, where everybody on record at the
later start was active or leaving then or is reported to be one of both since. -/
theorem rings_agree {d : Cluster} {early late : List Command}
    (hcompanions : Companions n n' c d early late) (hplaced : PlacedAlike place n n' c d early late)
    (hdecided : d.oracle.Decided (reportsIn (d.start n') late))
    (hsettled : Settled n ((d.start n').afterAll late))
    (hsettled' : Settled n' ((d.start n').afterAll late)) :
    Agree n n' ((d.start n').afterAll late) := by
  have hissued := hcompanions.reached.issued
  have hfirst := ((hcompanions.first.waits hissued).charts hplaced.known hplaced.home).afterAll
    hcompanions.meanwhile hplaced.meanwhile
  rw [List.nil_append, hcompanions.later] at hfirst
  have hsecond := ((hcompanions.second.waits hfirst.issued).charts hfirst.placed
    hplaced.home').afterAll hcompanions.afterwards' hplaced.afterwards
  rw [List.nil_append] at hsecond
  -- To the first service it is nothing that the second is started.
  have hstart : Charts place n (c.service n).home c.oracle (reportsIn (c.start n) early ++ [])
      (d.start n') := hfirst.perform hcompanions.aside fun e he => nomatch he
  rw [List.append_nil] at hstart
  have hstarted := hstart.afterAll hcompanions.afterwards hplaced.afterwards
  obtain ⟨hordered, hring, hmembers⟩ := hstarted.settled hsettled
  obtain ⟨hordered', hring', hmembers'⟩ := hsecond.settled hsettled'
  have hrings := hring.eq_of_contains_iff hring' hordered hordered' fun x => by
    rw [hmembers, hmembers']
    exact Oracle.announced_append_iff hfirst.records hfirst.covers hdecided
  refine ⟨hrings, fun g hg => ?_⟩
  rw [hstarted.owner?_eq hsettled hg, hsecond.owner?_eq hsettled' hg, hrings]

/-- A service at place 2. -/
def blueprintAt2 : Blueprint := { label := "b", home := siloAt 2 }

/-- Two services that are installed, at silos that are known to be active, before either is started. -/
def twoInstalled : Cluster :=
  ({} : Cluster).afterAll [.install blueprintAt1, .install blueprintAt2, .report (siloAt 1) .active,
    .report (siloAt 2) .active]

/-- The places that these silos have go by their ports. -/
def placeOfPort (id : SiloId) : UInt32 :=
  match id.endpoint with
  | .v4 _ port => port.toUInt32
  | .v6 _ port _ _ => port.toUInt32

/-- Between the start of the one and that of the other a silo joins and becomes active. -/
def joinsThenActive : List Command :=
  [.report (siloAt 3) .joining, .deliver 0, .report (siloAt 3) .active]

/-- Another comes and goes once both are started, and both hear of it. -/
def comesAndGoesHeard : List Command :=
  [.report (siloAt 4) .active, .deliver 0, .deliver 0, .deliver 1, .report (siloAt 4) .dead,
    .deliver 1, .deliver 0]

/-- The two services when the second is about to be started. -/
def beforeSecondStart (early : List Command) : Cluster := (twoInstalled.start 0).afterAll early

theorem companions_of_tells {early late : List Command}
    (hearly : ∀ command ∈ early, Tells command = true) (hlate : ∀ command ∈ late, Tells command = true)
    (hfresh : Fresh 1 (beforeSecondStart early)) :
    Companions 0 1 twoInstalled (beforeSecondStart early) early late where
  reached := ⟨{}, _, rfl, rfl⟩
  first := ⟨by decide, rfl⟩
  meanwhile := allLeaveRing_of_tells hearly
  later := rfl
  second := hfresh
  aside := fun h => nomatch h
  afterwards := allLeaveRing_of_tells hlate
  afterwards' := allLeaveRing_of_tells hlate

theorem rings_agree_joinsThenActive :
    Companions 0 1 twoInstalled (beforeSecondStart joinsThenActive) joinsThenActive comesAndGoesHeard ∧
      Agree 0 1 (((beforeSecondStart joinsThenActive).start 1).afterAll comesAndGoesHeard) ∧
      ((((beforeSecondStart joinsThenActive).start 1).afterAll comesAndGoesHeard).service 0).ring.silos =
        [siloAt 1, siloAt 2, siloAt 3] := by
  have hcompanions : Companions 0 1 twoInstalled (beforeSecondStart joinsThenActive) joinsThenActive
      comesAndGoesHeard :=
    companions_of_tells (by decide) (by decide) ⟨by decide, rfl⟩
  have hplaced : PlacedAlike placeOfPort 0 1 twoInstalled (beforeSecondStart joinsThenActive)
      joinsThenActive comesAndGoesHeard :=
    ⟨by decide, by decide, by decide, by decide, by decide⟩
  exact ⟨hcompanions, rings_agree hcompanions hplaced (by decide) ⟨by decide, by decide⟩
    ⟨by decide, by decide⟩, by decide⟩

/-- A silo is reported to be joining after the first was started and before the second is. -/
def joinsOnly : List Command := [.report (siloAt 3) .joining, .deliver 0]

/-- A silo that is only joining is on the ring of the service that was started later. -/
theorem exists_joining_disagreement :
    ¬ ∀ (place : SiloId → UInt32) (n n' : ServiceId) (c d : Cluster) (early late : List Command),
      Companions n n' c d early late → PlacedAlike place n n' c d early late →
        Settled n ((d.start n').afterAll late) → Settled n' ((d.start n').afterAll late) →
          Agree n n' ((d.start n').afterAll late) := by
  intro h
  have hcompanions : Companions 0 1 twoInstalled (beforeSecondStart joinsOnly) joinsOnly [] :=
    companions_of_tells (by decide) (by decide) ⟨by decide, rfl⟩
  have hplaced : PlacedAlike placeOfPort 0 1 twoInstalled (beforeSecondStart joinsOnly) joinsOnly [] :=
    ⟨by decide, by decide, by decide, by decide, by decide⟩
  have hagree := h placeOfPort 0 1 twoInstalled _ joinsOnly [] hcompanions hplaced ⟨by decide, by decide⟩
    ⟨by decide, by decide⟩
  have hring := congrArg Ring.silos hagree.ring
  revert hring
  decide

end Cluster

end GrainDirectory

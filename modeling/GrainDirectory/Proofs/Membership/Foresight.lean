import GrainDirectory.Proofs.Membership.Noninterference
set_option autoImplicit false

/-!
# The ring to come

What a service is told of the others waits in its inbox until it is delivered.  The ring to come is the
ring of the service once it has followed all that waits.  To deliver an event does not change the ring
to come, a report that is news changes it as the service is going to follow the report, and nothing else
does, as long as the ring is left to the service.

What every step preserves is `Foresees`, and `Foresees.course` says what becomes of the ring to come.
-/

namespace GrainDirectory

/-! ## News -/

/-- Whether events go into an inbox and its holder keeps it. -/
structure Inbox.Open (b : Inbox) : Prop where
  subscribed : b.subscribed = true
  held : b.held = true

namespace Oracle

variable {o : Oracle} {id : Nat} {b : Inbox}

/-- An inbox that is open gets the news, after all that waits in it. -/
theorem find?_notify (h : o.inboxes.find? id = some b) (hopen : b.Open) (e : StatusEvent) :
    (o.notify e).inboxes.find? id = some { b with queue := b.queue ++ [e] } := by
  rw [notify]
  dsimp only
  rw [Table.find?_change, Table.find?_filter, h, Option.filter_some, if_pos hopen.held,
    Option.map_some, Inbox.receive, if_pos hopen.subscribed]

theorem find?_subscribe (o : Oracle) :
    (o.subscribe.2).inboxes.find? o.nextId = some { id := o.nextId } :=
  (Table.find?_put _ _ _).trans (if_pos rfl)

end Oracle

namespace Cluster

variable {n : ServiceId} {home : Silo} {r : Ring} {c c' : Cluster}

/-! ## Deliveries -/

section Inbox

variable {id : Nat} {b : Inbox} (hid : (c.service n).subscription = some id)
  (hb : c.oracle.inboxes.find? id = some b)

include hid hb

theorem pending_eq : c.pending n = b.queue.length := by
  rw [pending, hid]
  dsimp only
  rw [Oracle.waiting, hb]

theorem deliver_of_nil (hqueue : b.queue = []) : c.deliver n = c := by
  have htake : c.oracle.take id = none := by
    rw [Oracle.take, hb]
    dsimp only
    rw [hqueue]
  rw [deliver, hid]
  dsimp only
  rw [htake]

theorem deliver_of_cons {e : StatusEvent} {rest : List StatusEvent} (hqueue : b.queue = e :: rest) :
    c.deliver n = { c with oracle := { c.oracle with
      inboxes := c.oracle.inboxes.put { b with queue := rest } } }.adjust n
        fun s => s.follow c.clock e := by
  have htake : c.oracle.take id =
      some (e, { c.oracle with inboxes := c.oracle.inboxes.put { b with queue := rest } }) := by
    rw [Oracle.take, hb]
    dsimp only
    rw [hqueue]
  rw [deliver, hid]
  dsimp only
  rw [htake]

end Inbox

/-! ## The invariant -/

/-- Whether a service has an open inbox of its own, and is going to have a certain ring once it has
followed the events in it. -/
structure Foresees (n : ServiceId) (home : Silo) (r : Ring) (c : Cluster) : Prop
    extends Enrolled n c where
  home_eq : (c.service n).home = home
  inbox : ∃ id b, (c.service n).subscription = some id ∧ c.oracle.inboxes.find? id = some b ∧
    b.Open ∧ b.queue.foldl (Ring.follow home) (c.service n).ring = r

/-- What reports make of a ring to come, and what is on record then. -/
inductive Hears (home : Silo) (o o' : Oracle) (r : Ring) : List StatusEvent → Ring → Prop
  | nothing (hrecord : o'.reports = o.reports) : Hears home o o' r [] r
  /-- A report that repeats what is on record is no news. -/
  | repeated {e : StatusEvent} (hknown : ∃ k, o.reports.find? e.silo.id = some k ∧ k.status = e.status)
      (hrecord : o'.reports = o.reports) : Hears home o o' r [e] r
  | news {e : StatusEvent} (hrecord : o'.reports = (o.record e.silo e.status).reports) :
      Hears home o o' r [e] (r.follow home e)

/-- What is on record after a report. -/
theorem Hears.status_eq {o o' : Oracle} {e : StatusEvent} {r' : Ring}
    (h : Hears home o o' r [e] r') (x : Silo) :
    o'.status x = if x.id = e.silo.id then e.status else o.status x := by
  cases h with
  | repeated hknown hrecord =>
    obtain ⟨k, hk, hstatus⟩ := hknown
    rw [Oracle.status_of_reports_eq hrecord]
    split
    · rename_i hx
      exact (Oracle.status_of_find? (hx ▸ hk)).trans hstatus
    · rfl
  | news hrecord => rw [Oracle.status_of_reports_eq hrecord, Oracle.status_record]

/-- A service that is not subscribed hears of nothing. -/
theorem Enrolled.course (h : Enrolled n c) (hstopped : (c.service n).subscription = none)
    {reports : List StatusEvent} (hcourse : Course n c reports c') :
    Enrolled n c' ∧ (c'.service n).post = (c.service n).post := by
  cases hcourse with
  | spared hspares => exact ⟨h.of_spares hspares, hspares.post⟩
  | reported silo status hspares =>
    have hreported : Enrolled n (c.report silo status) :=
      h.of_enlists (enlists_report c silo status) (Nat.le_refl _) rfl
    exact ⟨hreported.of_spares hspares, hspares.post⟩
  | delivered =>
    rw [deliver, hstopped]
    exact ⟨h, rfl⟩

/-- A service that starts foresees the ring that it had with whom the oracle considers functional. -/
theorem Enrolled.start (h : Enrolled n c) (hstopped : (c.service n).subscription = none) :
    Foresees n (c.service n).home
      ((c.oracle.functionalSilos.filter fun silo => silo.id ≠ (c.service n).home.id).foldl
        Ring.insert (c.service n).ring) (c.start n) ∧
      (c.start n).oracle.reports = c.oracle.reports := by
  have hservice : (c.start n).service n = ((c.service n).start c.moment).1 :=
    service_adjust_self (c := { c with oracle := _ }) h.present _
  have hpost := hservice ▸ Service.post_start hstopped c.moment
  have hsubscription : ((c.start n).service n).subscription = some c.oracle.nextId :=
    congrArg Post.subscription hpost
  have horacle : (c.start n).oracle = c.oracle.subscribe.2 := oracle_start hstopped
  refine ⟨⟨⟨?_, h.issued.of_enlists (enlists_start c n), fun j id hj hid => ?_⟩,
    congrArg Post.home hpost, _, { id := c.oracle.nextId }, hsubscription, ?_, ⟨rfl, rfl⟩,
    congrArg Post.ring hpost⟩, ?_⟩
  · rw [Cluster.start, length_adjust]
    exact h.present
  · -- the others have inboxes that were given out before
    cases hsubscription.symm.trans hid
    intro hother
    rcases subscription_start hstopped hother with hother | ⟨hjn, -⟩
    · exact Nat.lt_irrefl _ (h.issued j _ hother)
    · exact hj hjn
  · rw [horacle]
    exact c.oracle.find?_subscribe
  · rw [horacle]
    rfl

namespace Foresees

variable (h : Foresees n home r c)

include h

theorem spared (hspares : Spares n c c') : Foresees n home r c' := by
  obtain ⟨id, b, hid, hb, hopen, hring⟩ := h.inbox
  refine ⟨h.toEnrolled.of_spares hspares, (congrArg Post.home hspares.post).trans h.home_eq, id, b,
    (congrArg Post.subscription hspares.post).trans hid, (hspares.inbox id hid).trans hb, hopen, ?_⟩
  rw [show (c'.service n).ring = _ from congrArg Post.ring hspares.post]
  exact hring

/-- A report that is news is put at the end of the queue. -/
theorem report (silo : Silo) (status : SiloStatus) :
    ∃ r', Foresees n home r' (c.report silo status) ∧
      Hears home c.oracle (c.report silo status).oracle r [⟨silo, status⟩] r' := by
  obtain ⟨id, b, hid, hb, hopen, hring⟩ := h.inbox
  have henrolled : Enrolled n (c.report silo status) :=
    h.toEnrolled.of_enlists (enlists_report c silo status) (Nat.le_refl _) rfl
  rcases c.oracle.setStatus_cases silo status with ⟨hknown, heq⟩ | heq
  · have hsame : (c.report silo status).oracle = c.oracle := heq
    refine ⟨r, ⟨henrolled, h.home_eq, id, b, hid, ?_, hopen, hring⟩,
      .repeated hknown (congrArg Oracle.reports hsame)⟩
    rw [hsame]
    exact hb
  · have htold : (c.report silo status).oracle = (c.oracle.record silo status).notify ⟨silo, status⟩ :=
      heq
    refine ⟨r.follow home ⟨silo, status⟩, ⟨henrolled, h.home_eq, id,
      { b with queue := b.queue ++ [⟨silo, status⟩] }, hid, ?_, ⟨hopen.subscribed, hopen.held⟩, ?_⟩,
      .news ((congrArg Oracle.reports htold).trans rfl)⟩
    · rw [htold]
      exact Oracle.find?_notify hb hopen _
    · rw [List.foldl_append]
      exact congrArg (Ring.follow home · _) hring

/-- An event that is delivered is taken off the queue and followed. -/
theorem deliver : Foresees n home r (c.deliver n) ∧
    (c.deliver n).oracle.reports = c.oracle.reports ∧
    (c.deliver n).pending n = c.pending n - 1 := by
  obtain ⟨id, b, hid, hb, hopen, hring⟩ := h.inbox
  rw [pending_eq hid hb]
  cases hqueue : b.queue with
  | nil =>
    rw [deliver_of_nil hid hb hqueue, pending_eq hid hb, hqueue]
    exact ⟨h, rfl, rfl⟩
  | cons e rest =>
    have hpost := (c.service n).post_follow c.clock e
    have hkey : b.id = id := Table.key_of_find? hb
    have hservice : (c.deliver n).service n = (c.service n).follow c.clock e := by
      rw [deliver_of_cons hid hb hqueue]
      exact service_adjust_self (c := { c with oracle := _ }) h.present _
    have hsubscription : ((c.deliver n).service n).subscription = some id := by
      rw [hservice]
      exact (congrArg Post.subscription hpost).trans hid
    have hinbox : (c.deliver n).oracle.inboxes.find? id = some { b with queue := rest } := by
      rw [deliver_of_cons hid hb hqueue]
      exact (Table.find?_put _ _ _).trans (if_pos hkey.symm)
    have hlength : (c.deliver n).services.length = c.services.length := by
      rw [deliver_of_cons hid hb hqueue]
      exact length_adjust _ _ _
    refine ⟨⟨h.toEnrolled.of_enlists (moves_deliver c n).enlists (Nat.le_of_eq hlength.symm)
      (hsubscription.trans hid.symm), ?_, id, _, hsubscription, hinbox,
      ⟨hopen.subscribed, hopen.held⟩, ?_⟩, ?_, pending_eq hsubscription hinbox⟩
    · rw [hservice]
      exact (congrArg Post.home hpost).trans h.home_eq
    · rw [hservice, show ((c.service n).follow c.clock e).ring = _ from congrArg Post.ring hpost,
        h.home_eq]
      rw [hqueue, List.foldl_cons] at hring
      exact hring
    · rw [deliver_of_cons hid hb hqueue]
      rfl

/-- What becomes of the ring to come in a step that leaves the ring to the service. -/
theorem course {reports : List StatusEvent} (hcourse : Course n c reports c') :
    ∃ r', Foresees n home r' c' ∧ Hears home c.oracle c'.oracle r reports r' := by
  cases hcourse with
  | spared hspares => exact ⟨r, h.spared hspares, .nothing hspares.reports⟩
  | reported silo status hspares =>
    obtain ⟨r', hafter, hhears⟩ := h.report silo status
    refine ⟨r', hafter.spared hspares, ?_⟩
    cases hhears with
    | repeated hknown hrecord => exact .repeated hknown (hspares.reports.trans hrecord)
    | news hrecord => exact .news (hspares.reports.trans hrecord)
  | delivered =>
    obtain ⟨hafter, hrecord, -⟩ := h.deliver
    exact ⟨r, hafter, .nothing hrecord⟩

/-- When nothing waits, the ring to come is there. -/
theorem ring_eq (hpending : c.pending n = 0) : (c.service n).ring = r := by
  obtain ⟨id, b, hid, hb, -, hring⟩ := h.inbox
  rw [pending_eq hid hb] at hpending
  rwa [List.length_eq_zero_iff.mp hpending] at hring

end Foresees

/-! ## Runs -/

/-- What every command of a run preserves that leaves the ring of a service to the service. -/
theorem AllLeaveRing.induction {P : List StatusEvent → Cluster → Prop} {commands : List Command}
    {reports : List StatusEvent} (hleave : AllLeaveRing n c commands) (h : P reports c)
    (hstep : ∀ {reports c} command, c.LeavesRing n command → P reports c →
      P (reports ++ c.reportsOf command) (command.perform.run c).2) :
    P (reports ++ reportsIn c commands) (c.afterAll commands) := by
  induction commands generalizing c reports with
  | nil =>
    rw [reportsIn, List.append_nil]
    exact h
  | cons command rest ih =>
    rw [reportsIn, ← List.append_assoc]
    exact ih hleave.2 (hstep command hleave.1 h)

end Cluster

end GrainDirectory

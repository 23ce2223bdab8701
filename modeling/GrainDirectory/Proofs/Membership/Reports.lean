import GrainDirectory.Membership.Oracle
import GrainDirectory.Proofs.Ring.Order
set_option autoImplicit false

/-!
# What reports say about the ring

The report that a silo is active puts the silo on the ring of everybody else, the report that it is
leaving or has left takes it off, and other reports say nothing about the ring.  So only the last
report about a silo counts that says something, and as long as there is none the silo is taken for what
was known of it to begin with.

`Ring.Shows` is what a ring has to do with reports.  A ring that follows one more report shows one
report more (`Shows.follow`), and so does a ring that is left as it is because the report only repeats
what the oracle has on record (`Shows.repeated`).
-/

namespace GrainDirectory

/-! ## The last word -/

/-- Whether a report of this status says something about the ring. -/
def SiloStatus.Decisive (status : SiloStatus) : Prop :=
  status = .active ∨ status.isTerminating = true

instance (status : SiloStatus) : Decidable status.Decisive := inferInstanceAs (Decidable (_ ∨ _))

theorem SiloStatus.ne_active_of_isTerminating {status : SiloStatus}
    (h : status.isTerminating = true) : status ≠ .active := by
  rintro rfl
  cases h

/-- Of decisive statuses those are functional that are active. -/
theorem SiloStatus.Decisive.isFunctional_iff {status : SiloStatus} (h : status.Decisive) :
    status.isFunctional = true ↔ status = .active := by
  cases status <;> simp_all [Decisive, SiloStatus.isFunctional, SiloStatus.isTerminating]

/-- The last report about a silo that says something about the ring. -/
def lastWord? (reports : List StatusEvent) (x : Silo) : Option StatusEvent :=
  (reports.filter fun e => e.silo.id = x.id ∧ e.status.Decisive).getLast?

/-- Whether a silo belongs on the ring by the last word about it or, if there is none, by what an oracle
knew. -/
def Announced (known : Oracle) (reports : List StatusEvent) (x : Silo) : Prop :=
  match lastWord? reports x with
  | some e => e.status = .active
  | none => known.isFunctional x = true

section Announced

variable {known : Oracle} {reports : List StatusEvent} {e : StatusEvent} {x y : Silo}

theorem announced_nil : Announced known [] x ↔ known.isFunctional x = true := Iff.rfl

theorem announced_concat_of_decisive (hid : e.silo.id = x.id) (h : e.status.Decisive) :
    Announced known (reports ++ [e]) x ↔ e.status = .active := by
  have hlast : lastWord? (reports ++ [e]) x = some e := by
    rw [lastWord?, List.filter_append, List.filter_cons_of_pos (by simp [hid, h]), List.filter_nil,
      List.getLast?_concat]
  rw [Announced, hlast]

theorem announced_concat_of_not (h : ¬ (e.silo.id = x.id ∧ e.status.Decisive)) :
    Announced known (reports ++ [e]) x ↔ Announced known reports x := by
  have hlast : lastWord? (reports ++ [e]) x = lastWord? reports x := by
    rw [lastWord?, List.filter_append, List.filter_cons_of_neg (by simpa using h), List.filter_nil,
      List.append_nil, lastWord?]
  rw [Announced, Announced, hlast]

/-- Reports are about the identity of a silo. -/
theorem announced_congr (h : x.id = y.id) : Announced known reports x ↔ Announced known reports y := by
  rw [Announced, Announced, lastWord?, lastWord?, h, Oracle.isFunctional, Oracle.isFunctional,
    Oracle.status, Oracle.status, h]

end Announced

/-! ## Rings that follow reports -/

namespace Ring

variable {r : Ring} {home m : Silo} {known : Oracle} {reports : List StatusEvent}

/-- The ring of a silo once the silo has followed a report. -/
def follow (home : Silo) (r : Ring) (e : StatusEvent) : Ring :=
  if e.silo.id = home.id then r
  else if e.isLeave then r.change (.remove e.silo)
  else if e.isJoin then r.change (.add e.silo)
  else r

/-- Who is new on a ring that follows a report was not on it. -/
theorem mem_follow {e : StatusEvent} (h : m ∈ (r.follow home e).silos) :
    m ∈ r.silos ∨ r.contains m = false := by
  unfold follow at h
  split at h
  · exact .inl h
  · split at h
    · exact .inl (mem_change_remove h)
    · split at h
      · exact mem_insert h
      · exact .inl h

/-- A ring that follows reports keeps its own silo. -/
theorem mem_follow_home {e : StatusEvent} (h : home ∈ r.silos) : home ∈ (r.follow home e).silos := by
  unfold follow
  split
  · exact h
  · rename_i hother
    split
    · exact mem_change_remove_of_mem h fun hid => hother hid.symm
    · split
      · exact mem_insert_of_mem _ h
      · exact h

theorem Ordered.follow (h : r.Ordered) (home : Silo) (e : StatusEvent) :
    (r.follow home e).Ordered := by
  unfold Ring.follow
  split
  · exact h
  · split
    · exact h.change _
    · split
      · exact h.change _
      · exact h

/-- Whether the ring of a silo has, in ring order and once each, that silo and those who belong on the
ring by some reports and by what was known before. -/
structure Shows (r : Ring) (home : Silo) (known : Oracle) (reports : List StatusEvent) : Prop where
  ordered : r.Ordered
  members : ∀ x, r.contains x = true ↔ x.id = home.id ∨ Announced known reports x

/-- A ring that follows a report shows it. -/
theorem Shows.follow (h : r.Shows home known reports) (e : StatusEvent) :
    (r.follow home e).Shows home known (reports ++ [e]) := by
  unfold Ring.follow
  split
  · -- a report about the own silo
    rename_i hown
    refine ⟨h.ordered, fun x => ?_⟩
    rw [h.members]
    by_cases hx : x.id = home.id
    · simp only [hx, true_or]
    · rw [announced_concat_of_not fun hsame => hx (hsame.1.symm.trans hown)]
  · rename_i hother
    split
    · rename_i hleave
      refine ⟨h.ordered.change _, fun x => ?_⟩
      rw [contains_change_remove, h.members]
      by_cases hx : e.silo.id = x.id
      · rw [announced_concat_of_decisive hx (.inr hleave)]
        simp [hx, SiloStatus.ne_active_of_isTerminating hleave, hx ▸ hother]
      · rw [announced_concat_of_not fun hsame => hx hsame.1]
        simp only [ne_eq, hx, not_false_eq_true, true_and]
    · split
      · rename_i hstays hjoin
        have hactive : e.status = .active := by simpa [StatusEvent.isJoin] using hjoin
        refine ⟨h.ordered.change _, fun x => ?_⟩
        rw [contains_change_add, h.members]
        by_cases hx : e.silo.id = x.id
        · rw [announced_concat_of_decisive hx (.inl hactive)]
          simp only [hx, hactive, true_or, or_true]
        · rw [announced_concat_of_not fun hsame => hx hsame.1]
          simp only [hx, false_or]
      · rename_i hstays hjoin
        refine ⟨h.ordered, fun x => ?_⟩
        rw [h.members, announced_concat_of_not]
        rintro ⟨-, hactive | hleave⟩
        · exact hjoin (by rw [StatusEvent.isJoin, hactive]; rfl)
        · exact hstays hleave

/-- A report that repeats what is known is shown already. -/
theorem Shows.repeated (h : r.Shows home known reports) {e : StatusEvent}
    (hknown : e.status.Decisive → (Announced known reports e.silo ↔ e.status = .active)) :
    r.Shows home known (reports ++ [e]) := by
  refine ⟨h.ordered, fun x => ?_⟩
  rw [h.members]
  by_cases hx : e.silo.id = x.id ∧ e.status.Decisive
  · rw [announced_concat_of_decisive hx.1 hx.2, ← hknown hx.2, announced_congr hx.1]
  · rw [announced_concat_of_not hx]

end Ring

/-! ## The record of the oracle -/

namespace Oracle

variable {o known : Oracle} {reports : List StatusEvent}

theorem status_of_find? {s : Silo} {r : Report} (h : o.reports.find? s.id = some r) :
    o.status s = r.status := by
  rw [status, h]

/-- A report repeats what is on record, or is written down and passed on. -/
theorem setStatus_cases (o : Oracle) (s : Silo) (status : SiloStatus) :
    ((∃ r, o.reports.find? s.id = some r ∧ r.status = status) ∧ o.setStatus s status = o) ∨
      o.setStatus s status = (o.record s status).notify ⟨s, status⟩ := by
  unfold setStatus
  split
  · rename_i r hr
    split
    · rename_i hrepeat
      exact .inl ⟨⟨r, hr, hrepeat⟩, rfl⟩
    · exact .inr rfl
  · exact .inr rfl

/-- Whatever place a silo is recorded with, it is recorded under its identity. -/
theorem record_eq (o : Oracle) (s : Silo) (status : SiloStatus) :
    ∃ place : Silo, place.id = s.id ∧
      o.record s status = { o with reports := o.reports.put ⟨place, status⟩ } := by
  unfold record
  split
  · rename_i r hr
    exact ⟨r.silo, (Table.find?_eq_some_iff.mp hr).2, rfl⟩
  · exact ⟨s, rfl, rfl⟩

theorem status_record (o : Oracle) (s x : Silo) (status : SiloStatus) :
    (o.record s status).status x = if x.id = s.id then status else o.status x := by
  obtain ⟨place, hplace, heq⟩ := o.record_eq s status
  rw [heq, Oracle.status, Table.find?_put, hplace]
  by_cases hx : x.id = s.id
  · rw [if_pos hx, if_pos hx]
  · rw [if_neg hx, if_neg hx, Oracle.status]

/-- Whether what an oracle has on record of the silos agrees with the last word about each. -/
def Records (o known : Oracle) (reports : List StatusEvent) : Prop :=
  ∀ x, (o.status x).Decisive → (Announced known reports x ↔ o.status x = .active)

theorem records_self (o : Oracle) : o.Records o [] := fun _ hdecisive =>
  announced_nil.trans hdecisive.isFunctional_iff

theorem status_of_reports_eq {o' : Oracle} (h : o'.reports = o.reports) (x : Silo) :
    o'.status x = o.status x := by
  rw [status, status, h]

theorem Records.of_reports_eq {o' : Oracle} (h : o.Records known reports)
    (heq : o'.reports = o.reports) : o'.Records known reports := by
  intro x hdecisive
  rw [status_of_reports_eq heq] at hdecisive ⊢
  exact h x hdecisive

/-- One more report becomes the last word about its silo. -/
theorem Records.concat {o' : Oracle} {e : StatusEvent} (h : o.Records known reports)
    (hstatus : ∀ x, o'.status x = if x.id = e.silo.id then e.status else o.status x) :
    o'.Records known (reports ++ [e]) := by
  intro x
  rw [hstatus]
  split
  · rename_i hx
    exact announced_concat_of_decisive hx.symm
  · rename_i hx
    rw [announced_concat_of_not fun hsame => hx hsame.1.symm]
    exact h x

theorem isFunctional_iff {x : Silo} :
    o.isFunctional x = true ↔ ∃ m ∈ o.functionalSilos, m.id = x.id := by
  simp only [functionalSilos, List.mem_map, List.mem_filter]
  constructor
  · intro h
    unfold isFunctional at h
    cases hr : o.reports.find? x.id with
    | none =>
      rw [Oracle.status, hr] at h
      cases h
    | some r =>
      rw [status_of_find? hr] at h
      obtain ⟨hrow, hkey⟩ := Table.find?_eq_some_iff.mp hr
      exact ⟨r.silo, ⟨r, ⟨hrow, h⟩, rfl⟩, hkey⟩
  · rintro ⟨-, ⟨r, ⟨hrow, h⟩, rfl⟩, hkey⟩
    rw [isFunctional, status_of_find? (Table.find?_eq_some_iff.mpr ⟨hrow, hkey⟩)]
    exact h

end Oracle

/-- The ring that a service starts with shows what the oracle knows. -/
theorem Ring.shows_ofList (home : Silo) (o : Oracle) :
    (Ring.ofList (home :: o.functionalSilos.filter fun silo => silo.id ≠ home.id)).Shows home o [] := by
  refine ⟨ordered_ofList _, fun x => ?_⟩
  rw [contains_ofList, List.exists_mem_cons_iff, announced_nil, Oracle.isFunctional_iff,
    eq_comm (a := home.id)]
  by_cases hx : x.id = home.id
  · simp only [hx, true_or]
  · simp only [hx, false_or, List.mem_filter, decide_eq_true_eq]
    constructor
    · rintro ⟨m, ⟨hm, -⟩, hid⟩
      exact ⟨m, hm, hid⟩
    · rintro ⟨m, hm, hid⟩
      exact ⟨m, ⟨hm, fun hown => hx (hid.symm.trans hown)⟩, hid⟩

end GrainDirectory

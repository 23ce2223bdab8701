import GrainDirectory.Proofs.Membership.Posts
import GrainDirectory.Proofs.Membership.Reports
import GrainDirectory.Proofs.Turns
set_option autoImplicit false

/-!
# Reports about different silos in any order

What a report does to the ring depends on whether the ring has the silo that the report is about, and on
nothing else: where the silo is put depends on the others, but the order of a ring is settled by who is
on it.  So reports about different silos may be exchanged, while those about one silo must stay in their
order.

The changes of the ring that reports really make (`Ring.made`) determine what becomes of the partition
and of the counts, whatever order they are made in (`Aftermath.after_perm`).  Lists of reports that agree
silo by silo make the same changes up to their order (`Ring.made_perm`), and so leave the same behind.
-/

namespace GrainDirectory

/-- Whether two lists have the same reports about each silo, in the same order. -/
def SameBySilo (reports reports' : List StatusEvent) : Prop :=
  ∀ id : SiloId, reports.filter (fun e => e.silo.id = id) = reports'.filter fun e => e.silo.id = id

/-- Only the silos that reports are about have to be looked at. -/
theorem sameBySilo_iff {reports reports' : List StatusEvent} : SameBySilo reports reports' ↔
    ∀ about ∈ reports ++ reports', reports.filter (fun e => e.silo.id = about.silo.id) =
      reports'.filter fun e => e.silo.id = about.silo.id := by
  refine ⟨fun h about _ => h about.silo.id, fun h id => ?_⟩
  by_cases hid : ∃ about ∈ reports ++ reports', about.silo.id = id
  · obtain ⟨about, habout, rfl⟩ := hid
    exact h about habout
  · have hnone (e : StatusEvent) (he : e ∈ reports ++ reports') :
        ¬ decide (e.silo.id = id) = true := fun heq => hid ⟨e, he, of_decide_eq_true heq⟩
    rw [List.filter_eq_nil_iff.mpr fun e he => hnone e (List.mem_append_left _ he),
      List.filter_eq_nil_iff.mpr fun e he => hnone e (List.mem_append_right _ he)]

instance (reports reports' : List StatusEvent) : Decidable (SameBySilo reports reports') :=
  decidable_of_iff _ sameBySilo_iff.symm

namespace Ring

variable {r r' : Ring} {home m : Silo} {e : StatusEvent} {id : SiloId}

/-! ## The changes that reports really make -/

/-- The silo that a change is about. -/
def Change.silo : Change → Silo
  | .add s => s
  | .remove s => s

/-- Whether a change makes registrations on a silo void: it takes the silo off the ring, or it adds or
removes a later incarnation of it. -/
def Change.Voids : Change → Silo → Prop
  | .add s, host => host.Precedes s
  | .remove s, host => host.id = s.id ∨ host.Precedes s

instance (c : Change) (host : Silo) : Decidable (c.Voids host) :=
  match c with
  | .add _ => inferInstanceAs (Decidable (Silo.Precedes _ _))
  | .remove _ => inferInstanceAs (Decidable (_ ∨ _))

/-- The change of the ring of a silo that a report really makes, if it makes one: the silo it is about
was not on the ring and is, or was and is not. -/
def made? (home : Silo) (r : Ring) (e : StatusEvent) : Option Change :=
  match r.contains e.silo, (r.follow home e).contains e.silo with
  | false, true => some (.add e.silo)
  | true, false => some (.remove e.silo)
  | _, _ => none

/-- The changes of the ring of a silo that reports really make, one after the other. -/
def made (home : Silo) : Ring → List StatusEvent → List Change
  | _, [] => []
  | r, e :: rest => (r.made? home e).toList ++ made home (r.follow home e) rest

theorem silo_of_made? {c : Change} (h : c ∈ r.made? home e) : c.silo = e.silo := by
  unfold made? at h
  split at h
  · cases h; rfl
  · cases h; rfl
  · cases h

theorem made?_of_home (h : e.silo.id = home.id) : r.made? home e = none := by
  unfold made? follow
  rw [if_pos h]
  cases r.contains e.silo <;> rfl

theorem made?_of_leave (hother : e.silo.id ≠ home.id) (h : e.isLeave = true) :
    r.made? home e = if r.contains e.silo then some (.remove e.silo) else none := by
  have hfollow : (r.follow home e).contains e.silo = false := by
    unfold follow
    rw [if_neg hother, if_pos h, Bool.eq_false_iff, Ne, contains_change_remove]
    exact fun hon => hon.1 rfl
  unfold made?
  rw [hfollow]
  cases r.contains e.silo <;> rfl

theorem made?_of_join (hother : e.silo.id ≠ home.id) (hstays : ¬ e.isLeave = true)
    (h : e.isJoin = true) :
    r.made? home e = if r.contains e.silo then none else some (.add e.silo) := by
  have hfollow : (r.follow home e).contains e.silo = true := by
    unfold follow
    rw [if_neg hother, if_neg hstays, if_pos h, contains_change_add]
    exact .inl rfl
  unfold made?
  rw [hfollow]
  cases r.contains e.silo <;> rfl

theorem made?_of_idle (hstays : ¬ e.isLeave = true) (h : ¬ e.isJoin = true) :
    r.made? home e = none := by
  unfold made? follow
  rw [if_neg hstays, if_neg h, ite_self]
  cases r.contains e.silo <;> rfl

/-! ## One identity at a time -/

/-- Whether two rings have the same silo under an identity, or both have none. -/
def AgreeOn (id : SiloId) (r r' : Ring) : Prop := ∀ m, m.id = id → (m ∈ r.silos ↔ m ∈ r'.silos)

theorem AgreeOn.trans {r'' : Ring} (h : AgreeOn id r r') (h' : AgreeOn id r' r'') :
    AgreeOn id r r'' := fun m hm => (h m hm).trans (h' m hm)

/-- A ring in order is known by whom it has under each identity. -/
theorem Ordered.eq_of_agreeOn (h : r.Ordered) (h' : r'.Ordered) (hagree : ∀ id, AgreeOn id r r') :
    r = r' :=
  h.eq_of_mem_iff h' fun m => hagree m.id m rfl

theorem AgreeOn.contains_eq {s : Silo} (h : AgreeOn s.id r r') : r.contains s = r'.contains s := by
  rw [Bool.eq_iff_iff, contains_eq_true_iff, contains_eq_true_iff]
  refine exists_congr fun m => ?_
  rw [and_comm, and_comm (a := m ∈ r'.silos)]
  exact and_congr_right fun hm => h m hm

theorem mem_change_add_iff {s : Silo} : m ∈ (r.change (.add s)).silos ↔
    m ∈ r.silos ∨ (m = s ∧ r.contains s = false) := by
  show m ∈ ((r.insert? s).getD r).silos ↔ _
  cases hinsert : r.insert? s with
  | none =>
    have hon : r.contains s = true := by simpa [insert?] using hinsert
    simp [hon]
  | some t =>
    rw [Option.getD_some, mem_of_insert? hinsert, (insert?_eq_some_iff.mp hinsert).1, or_comm]
    simp only [and_true]

theorem mem_change_remove_iff {s : Silo} : m ∈ (r.change (.remove s)).silos ↔
    m ∈ r.silos ∧ m.id ≠ s.id := by
  refine ⟨fun hm => ⟨mem_change_remove hm, fun hid => ?_⟩, fun hm =>
    mem_change_remove_of_mem hm.1 hm.2⟩
  exact (contains_change_remove.mp (contains_eq_true_iff.mpr ⟨m, hm, rfl⟩)).1 hid.symm

/-- A report leaves a ring as it is but for the silo that it is about. -/
theorem agreeOn_follow_of_ne (r : Ring) (hne : e.silo.id ≠ id) :
    AgreeOn id (r.follow home e) r := by
  rintro m rfl
  unfold follow
  split
  · rfl
  · split
    · rw [mem_change_remove_iff, and_iff_left fun hid => hne hid.symm]
    · split
      · rw [mem_change_add_iff, or_iff_left fun hm => hne (congrArg Silo.id hm.1.symm)]
      · rfl

/-- What a report makes of the silo that it is about does not depend on the others. -/
theorem AgreeOn.follow (h : AgreeOn e.silo.id r r') (home : Silo) :
    AgreeOn e.silo.id (r.follow home e) (r'.follow home e) := by
  intro m hm
  unfold Ring.follow
  split
  · exact h m hm
  · split
    · rw [mem_change_remove_iff, mem_change_remove_iff, h m hm]
    · split
      · rw [mem_change_add_iff, mem_change_add_iff, h m hm, h.contains_eq]
      · exact h m hm

theorem AgreeOn.made?_eq (h : AgreeOn e.silo.id r r') (home : Silo) :
    r.made? home e = r'.made? home e := by
  unfold made?
  rw [h.contains_eq, (h.follow home).contains_eq]

section Filtered

variable (reports : List StatusEvent)

/-- Under one identity a ring has whom the reports about that identity alone put there. -/
theorem AgreeOn.foldl_follow (h : AgreeOn id r r') (home : Silo) :
    AgreeOn id (reports.foldl (Ring.follow home) r)
      ((reports.filter fun e => e.silo.id = id).foldl (Ring.follow home) r') := by
  induction reports generalizing r r' with
  | nil => exact h
  | cons e rest ih =>
    by_cases he : e.silo.id = id
    · subst he
      rw [List.filter_cons_of_pos (by simp)]
      exact ih (h.follow home)
    · rw [List.filter_cons_of_neg (by simpa using he)]
      exact ih ((agreeOn_follow_of_ne r he).trans h)

/-- Of the changes that reports make, those of one identity are made by the reports about it alone. -/
theorem AgreeOn.filter_made (h : AgreeOn id r r') (home : Silo) :
    (made home r reports).filter (fun c => c.silo.id = id) =
      made home r' (reports.filter fun e => e.silo.id = id) := by
  induction reports generalizing r r' with
  | nil => rfl
  | cons e rest ih =>
    rw [made, List.filter_append]
    by_cases he : e.silo.id = id
    · subst he
      rw [ih (h.follow home), List.filter_cons_of_pos (by simp), made, h.made?_eq home,
        List.filter_eq_self.mpr]
      intro c hc
      rw [silo_of_made? (Option.mem_toList.mp hc), decide_eq_true_eq]
    · rw [ih ((agreeOn_follow_of_ne r he).trans h), List.filter_cons_of_neg (by simpa using he),
        List.filter_eq_nil_iff.mpr, List.nil_append]
      intro c hc
      rw [silo_of_made? (Option.mem_toList.mp hc), decide_eq_true_eq]
      exact he

end Filtered

/-! ## Reports in another order -/

variable {reports reports' : List StatusEvent}

/-- Lists of reports that agree silo by silo make the same ring. -/
theorem Ordered.foldl_follow_eq (h : r.Ordered) (home : Silo) (hsame : SameBySilo reports reports') :
    reports.foldl (Ring.follow home) r = reports'.foldl (Ring.follow home) r := by
  have hordered (reports : List StatusEvent) : (reports.foldl (Ring.follow home) r).Ordered :=
    List.foldlRecOn reports _ h fun _ ht e _ => ht.follow home e
  refine (hordered reports).eq_of_agreeOn (hordered reports') fun id m hm => ?_
  have hself : AgreeOn id r r := fun _ _ => Iff.rfl
  rw [hself.foldl_follow reports home m hm, hself.foldl_follow reports' home m hm, hsame id]

/-- Lists of reports that agree silo by silo make the same changes, in some order. -/
theorem made_perm (home : Silo) (r : Ring) (hsame : SameBySilo reports reports') :
    (made home r reports).Perm (made home r reports') := by
  refine List.perm_iff_count.mpr fun c => ?_
  have hself : AgreeOn c.silo.id r r := fun _ _ => Iff.rfl
  have hcount (reports : List StatusEvent) : (made home r reports).count c =
      (made home r (reports.filter fun e => e.silo.id = c.silo.id)).count c := by
    rw [← hself.filter_made reports home, List.count_filter (by simp)]
  rw [hcount, hcount reports', hsame]

end Ring

/-! ## What changes leave behind -/

/-- What is left of a partition once some changes of the ring have dropped what they make void. -/
def Partition.purge (p : Partition) (changes : List Ring.Change) : Partition :=
  { p with entries := p.entries.filter fun r => decide (∀ c ∈ changes, ¬ c.Voids r.address.silo) }

/-- What changes of the ring leave their mark on: the partition, and the counts of the silos that were
added and removed and of the registrations that were dropped. -/
structure Aftermath where
  partition : Partition
  added : UInt64
  removed : UInt64
  evicted : UInt64

namespace Aftermath

/-- Whether a change adds a silo. -/
def adds : Ring.Change → Bool
  | .add _ => true
  | .remove _ => false

/-- What some changes leave. -/
def after (a : Aftermath) (changes : List Ring.Change) : Aftermath where
  partition := a.partition.purge changes
  added := a.added + UInt64.ofNat (changes.countP adds)
  removed := a.removed + UInt64.ofNat (changes.countP fun c => !adds c)
  evicted := a.evicted + UInt64.ofNat (a.partition.size - (a.partition.purge changes).size)

/-- What a change leaves before the silo is counted. -/
def drop (a : Aftermath) (c : Ring.Change) : Aftermath :=
  { a with
    partition := a.partition.purge [c]
    evicted := a.evicted + UInt64.ofNat (a.partition.size - (a.partition.purge [c]).size) }

variable (a : Aftermath) (changes changes' : List Ring.Change)

theorem after_add (silo : Silo) :
    a.after [.add silo] = { a.drop (.add silo) with added := a.added + 1 } := by
  simp [after, drop, adds]

theorem after_remove (silo : Silo) :
    a.after [.remove silo] = { a.drop (.remove silo) with removed := a.removed + 1 } := by
  simp [after, drop, adds]

/-- The order of changes leaves no mark. -/
theorem after_perm {changes changes' : List Ring.Change} (h : changes.Perm changes') :
    a.after changes = a.after changes' := by
  have hpurge : a.partition.purge changes = a.partition.purge changes' := by
    unfold Partition.purge
    simp only [h.mem_iff]
  unfold after
  rw [hpurge, h.countP_eq, h.countP_eq]

theorem purge_nil (p : Partition) : p.purge [] = p := by
  simp [Partition.purge, Table.filter]

theorem purge_purge (p : Partition) :
    (p.purge changes).purge changes' = p.purge (changes ++ changes') := by
  simp only [Partition.purge, Table.filter, List.filter_filter, List.mem_append, or_imp, forall_and,
    Bool.decide_and, Bool.and_comm]

theorem size_purge_le (p : Partition) : (p.purge changes).size ≤ p.size :=
  List.length_filter_le _ _

theorem after_nil : a.after [] = a := by
  simp [after, purge_nil]

/-- Changes leave what they would leave had they been made in two parts. -/
theorem after_append : (a.after changes).after changes' = a.after (changes ++ changes') := by
  have hfirst := size_purge_le changes a.partition
  have hsecond := size_purge_le changes' (a.partition.purge changes)
  simp only [after, purge_purge, List.countP_append, UInt64.ofNat_add, mk.injEq, true_and,
    UInt64.add_assoc]
  rw [purge_purge] at hsecond
  rw [← UInt64.ofNat_add]
  congr 2
  omega

end Aftermath

/-! ## A service that follows reports -/

namespace Service

variable (s : Service) (now : Nat)

/-- What changes of the ring leave their mark on at a service. -/
def aftermath (s : Service) : Aftermath where
  partition := s.partition
  added := s.metrics.silosAdded
  removed := s.metrics.silosRemoved
  evicted := s.metrics.partitionEvictions

theorem aftermath_tell (news : News) : (s.tell now news).aftermath = s.aftermath := by
  unfold tell
  split <;> rfl

theorem aftermath_adjust {changed : Silo} {left : Bool} {c : Ring.Change}
    (hvoids : ∀ host, Stale changed left host ↔ c.Voids host) :
    ((s.adjustPartition now changed left).adjustCache now changed left).aftermath =
      s.aftermath.drop c := by
  have hrows (r : Registration) : decide (∀ c' ∈ [c], ¬ c'.Voids r.address.silo) =
      !decide (Stale changed left r.address.silo) := by
    simp [hvoids]
  have hpurge : s.partition.purge [c] =
      (s.partition.evict now fun a => Stale changed left a.silo).2 := by
    rw [Partition.evict_eq]
    simp only [Partition.purge, hrows]
  show _ = { s.aftermath with
    partition := s.partition.purge [c]
    evicted := s.metrics.partitionEvictions +
      UInt64.ofNat (s.partition.size - (s.partition.purge [c]).size) }
  rw [hpurge, ← Partition.evicted_eq]
  rfl

theorem aftermath_addSilo (silo : Silo) : (s.addSilo now silo).2.aftermath =
    s.aftermath.after (if s.ring.contains silo then [] else [.add silo]) := by
  unfold addSilo
  split
  · rename_i hrefused
    have hon : s.ring.contains silo = true := by simpa [Ring.insert?] using hrefused
    rw [if_pos hon]
    exact s.aftermath.after_nil.symm
  · rename_i ring hinsert
    have hoff : ¬ s.ring.contains silo = true :=
      Bool.eq_false_iff.mp (Ring.insert?_eq_some_iff.mp hinsert).1
    have hvoids (host : Silo) : Stale silo false host ↔ (Ring.Change.add silo).Voids host := by
      simp [Stale, Ring.Change.Voids]
    have hadjusted :=
      aftermath_adjust (({ s with ring := ring } : Service).tell now (.joined silo)) now hvoids
    rw [aftermath_tell] at hadjusted
    rw [if_neg hoff, Aftermath.after_add]
    exact congrArg (fun a : Aftermath => { a with added := a.added + 1 }) hadjusted

theorem aftermath_removeSilo (silo : Silo) (status : SiloStatus) :
    (s.removeSilo now silo status).2.aftermath =
      s.aftermath.after (if s.ring.contains silo then [.remove silo] else []) := by
  have htold := s.aftermath_tell now (.leaving silo status s.ring (s.catalog s.ring silo status))
  have hpost := s.post_tell now (.leaving silo status s.ring (s.catalog s.ring silo status))
  unfold removeSilo
  dsimp only
  generalize s.tell now _ = told at htold hpost ⊢
  have hring : told.ring = s.ring := congrArg Post.ring hpost
  rw [← hring]
  split
  · rename_i hrefused
    have hoff : told.ring.contains silo = false := by simpa [Ring.erase?] using hrefused
    rw [hoff, if_neg Bool.false_ne_true, Aftermath.after_nil]
    exact htold
  · rename_i ring herase
    have hvoids (host : Silo) : Stale silo true host ↔ (Ring.Change.remove silo).Voids host := by
      simp [Stale, Ring.Change.Voids]
    have hadjusted := aftermath_adjust ({ told with ring := ring } : Service) now hvoids
    rw [if_pos (Ring.erase?_eq_some_iff.mp herase).1, Aftermath.after_remove, ← htold]
    exact congrArg (fun a : Aftermath => { a with removed := a.removed + 1 }) hadjusted

/-- A report leaves its mark by the change of the ring that it really makes. -/
theorem aftermath_follow (e : StatusEvent) :
    (s.follow now e).aftermath = s.aftermath.after (s.ring.made? s.home e).toList := by
  unfold follow
  split
  · rename_i hown
    rw [Ring.made?_of_home hown]
    exact s.aftermath.after_nil.symm
  · rename_i hother
    split
    · rename_i hleave
      rw [aftermath_removeSilo, Ring.made?_of_leave hother hleave]
      split <;> rfl
    · rename_i hstays
      split
      · rename_i hjoin
        rw [aftermath_addSilo, Ring.made?_of_join hother hstays hjoin]
        split <;> rfl
      · rename_i hidle
        rw [Ring.made?_of_idle hstays hidle]
        exact s.aftermath.after_nil.symm

/-- The service once it has followed some reports, each at its own time. -/
def followAll (s : Service) (reports : List (Nat × StatusEvent)) : Service :=
  reports.foldl (fun s report => s.follow report.1 report.2) s

theorem post_followAll (reports : List (Nat × StatusEvent)) :
    (s.followAll reports).post =
      { s.post with ring := (reports.map (·.2)).foldl (Ring.follow s.home) s.ring } := by
  unfold followAll
  induction reports generalizing s with
  | nil => rfl
  | cons report rest ih =>
    have hfirst := s.post_follow report.1 report.2
    have hhome : (s.follow report.1 report.2).home = s.home := congrArg Post.home hfirst
    have hring : (s.follow report.1 report.2).ring = s.ring.follow s.home report.2 :=
      congrArg Post.ring hfirst
    rw [List.foldl_cons, ih, hfirst, hhome, hring]
    rfl

theorem aftermath_followAll (reports : List (Nat × StatusEvent)) :
    (s.followAll reports).aftermath =
      s.aftermath.after (Ring.made s.home s.ring (reports.map (·.2))) := by
  unfold followAll
  induction reports generalizing s with
  | nil => exact s.aftermath.after_nil.symm
  | cons report rest ih =>
    have hfirst := s.post_follow report.1 report.2
    have hhome : (s.follow report.1 report.2).home = s.home := congrArg Post.home hfirst
    have hring : (s.follow report.1 report.2).ring = s.ring.follow s.home report.2 :=
      congrArg Post.ring hfirst
    rw [List.foldl_cons, ih, aftermath_follow, Aftermath.after_append, hhome, hring]
    rfl

/-- Reports about different silos may reach a service in any order: as long as those about one silo stay
in their order, the service comes to the same ring, the same partition and the same counts of silos that
were added and removed and of registrations that were dropped.  The partition loses exactly the
registrations on silos that a report really took off the ring, and on earlier incarnations of silos that a
report really put on the ring or took off it. -/
theorem followAll_in_any_order (hordered : s.ring.Ordered)
    {reports reports' : List (Nat × StatusEvent)}
    (hsame : SameBySilo (reports.map (·.2)) (reports'.map (·.2))) :
    (s.followAll reports).ring = (s.followAll reports').ring ∧
      (s.followAll reports).partition = (s.followAll reports').partition ∧
      (s.followAll reports).metrics.silosAdded = (s.followAll reports').metrics.silosAdded ∧
      (s.followAll reports).metrics.silosRemoved = (s.followAll reports').metrics.silosRemoved ∧
      (s.followAll reports).metrics.partitionEvictions =
        (s.followAll reports').metrics.partitionEvictions ∧
      (s.followAll reports).partition =
        s.partition.purge (Ring.made s.home s.ring (reports.map (·.2))) := by
  have hring (reports : List (Nat × StatusEvent)) : (s.followAll reports).ring =
      (reports.map (·.2)).foldl (Ring.follow s.home) s.ring :=
    congrArg Post.ring (s.post_followAll reports)
  have hleft : (s.followAll reports).aftermath = (s.followAll reports').aftermath := by
    rw [aftermath_followAll, aftermath_followAll,
      Aftermath.after_perm _ (Ring.made_perm s.home s.ring hsame)]
  refine ⟨?_, congrArg Aftermath.partition hleft, congrArg Aftermath.added hleft,
    congrArg Aftermath.removed hleft, congrArg Aftermath.evicted hleft,
    congrArg Aftermath.partition (s.aftermath_followAll reports)⟩
  rw [hring, hring, hordered.foldl_follow_eq s.home hsame]

/-- A service on whose ring is the first of two incarnations of a silo, with a registration on itself and
one on that incarnation. -/
def withEarlier : Service :=
  let home : Silo := ⟨⟨.v4 1 1, 1⟩, 10⟩
  let early : Silo := ⟨⟨.v4 1 2, 1⟩, 50⟩
  { label := "a"
    home := home
    config := {}
    ring := Ring.ofList [home, early]
    partition :=
      { entries := (Table.empty.put ⟨⟨⟨⟨⟨"user"⟩, "k"⟩, 40⟩, ⟨1⟩, home⟩, 1, 0⟩).put
          ⟨⟨⟨⟨⟨"user"⟩, "l"⟩, 41⟩, ⟨2⟩, early⟩, 2, 0⟩
        nextTag := 3
        lazyDelay := 0 }
    cache := {} }

/-- The second incarnation joins, the first is reported dead, and another silo comes and goes. -/
def joinThenDeath : List (Nat × StatusEvent) :=
  [(1, ⟨⟨⟨.v4 1 2, 2⟩, 50⟩, .active⟩), (2, ⟨⟨⟨.v4 1 2, 1⟩, 50⟩, .dead⟩),
    (3, ⟨⟨⟨.v4 1 3, 1⟩, 90⟩, .active⟩), (4, ⟨⟨⟨.v4 1 3, 1⟩, 90⟩, .dead⟩)]

/-- The same, but the other silo comes first, and the first incarnation is reported dead before the
second joins. -/
def deathThenJoin : List (Nat × StatusEvent) :=
  [(5, ⟨⟨⟨.v4 1 3, 1⟩, 90⟩, .active⟩), (6, ⟨⟨⟨.v4 1 2, 1⟩, 50⟩, .dead⟩),
    (7, ⟨⟨⟨.v4 1 3, 1⟩, 90⟩, .dead⟩), (8, ⟨⟨⟨.v4 1 2, 2⟩, 50⟩, .active⟩)]

theorem followAll_in_any_order_incarnations :
    withEarlier.ring.Ordered ∧ SameBySilo (joinThenDeath.map (·.2)) (deathThenJoin.map (·.2)) ∧
      (withEarlier.followAll joinThenDeath).ring = (withEarlier.followAll deathThenJoin).ring ∧
      (withEarlier.followAll joinThenDeath).partition = (withEarlier.followAll deathThenJoin).partition ∧
      (withEarlier.followAll joinThenDeath).metrics.silosAdded =
        (withEarlier.followAll deathThenJoin).metrics.silosAdded ∧
      (withEarlier.followAll joinThenDeath).metrics.silosRemoved =
        (withEarlier.followAll deathThenJoin).metrics.silosRemoved ∧
      (withEarlier.followAll joinThenDeath).metrics.partitionEvictions =
        (withEarlier.followAll deathThenJoin).metrics.partitionEvictions ∧
      (withEarlier.followAll joinThenDeath).partition =
        withEarlier.partition.purge
          (Ring.made withEarlier.home withEarlier.ring (joinThenDeath.map (·.2))) ∧
      (Ring.made withEarlier.home withEarlier.ring (joinThenDeath.map (·.2))).length = 4 ∧
      (withEarlier.followAll joinThenDeath).partition.size = 1 := by
  have hordered : withEarlier.ring.Ordered := Ring.ordered_ofList _
  have hsame : SameBySilo (joinThenDeath.map (·.2)) (deathThenJoin.map (·.2)) := by decide
  obtain ⟨hring, hpartition, hadded, hremoved, hevicted, hpurged⟩ :=
    withEarlier.followAll_in_any_order hordered hsame
  exact ⟨hordered, hsame, hring, hpartition, hadded, hremoved, hevicted, hpurged, by decide,
    by decide⟩

end Service

end GrainDirectory

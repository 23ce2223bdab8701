import GrainDirectory.Proofs.Membership.Reports
import GrainDirectory.Service.RingChange
set_option autoImplicit false

/-!
# The posts of services

The post of a service is what it follows membership with: its silo, its ring and the inbox that it is
subscribed with.  A service that follows a report changes its post as its ring follows the report, and
whatever it does with its inbox touches no other inbox and no report of the oracle.
-/

namespace GrainDirectory

/-- What a service follows membership with. -/
structure Post where
  home : Silo
  ring : Ring
  subscription : Option Nat

namespace Service

/-- The post of a service. -/
def post (s : Service) : Post := ⟨s.home, s.ring, s.subscription⟩

variable (s : Service) (now : Nat)

/-! ## What changes the post of a service -/

theorem post_tell (news : News) : (s.tell now news).post = s.post := by
  unfold tell
  split <;> rfl

theorem post_addSilo (silo : Silo) :
    (s.addSilo now silo).2.post = { s.post with ring := s.ring.change (.add silo) } := by
  unfold addSilo
  show _ = { s.post with ring := (s.ring.insert? silo).getD s.ring }
  split
  · rename_i hinsert
    rw [hinsert, Option.getD_none]
    rfl
  · rename_i ring hinsert
    rw [hinsert, Option.getD_some]
    exact post_tell _ now _

theorem post_removeSilo (silo : Silo) (status : SiloStatus) :
    (s.removeSilo now silo status).2.post = { s.post with ring := s.ring.change (.remove silo) } := by
  have htold := s.post_tell now (.leaving silo status s.ring (s.catalog s.ring silo status))
  unfold removeSilo
  dsimp only
  generalize s.tell now _ = told at htold ⊢
  have hring : told.ring = s.ring := congrArg Post.ring htold
  show _ = { s.post with ring := (s.ring.erase? silo).getD s.ring }
  rw [← htold, ← hring]
  split
  · rename_i herase
    rw [herase, Option.getD_none]
    rfl
  · rename_i ring herase
    rw [herase, Option.getD_some]
    rfl

/-- A service follows a report as its ring does. -/
theorem post_follow (e : StatusEvent) :
    (s.follow now e).post = { s.post with ring := s.ring.follow s.home e } := by
  unfold follow Ring.follow
  split
  · rfl
  · split
    · exact s.post_removeSilo now _ _
    · split
      · exact s.post_addSilo now _
      · rfl

theorem post_addSilos (silos : List Silo) :
    (silos.foldl (fun s silo => (s.addSilo now silo).2) s).post =
      { s.post with ring := silos.foldl Ring.insert s.ring } := by
  induction silos generalizing s with
  | nil => rfl
  | cons silo rest ih =>
    have hfirst := s.post_addSilo now silo
    have hring : (s.addSilo now silo).2.ring = s.ring.insert silo := congrArg Post.ring hfirst
    rw [List.foldl_cons, ih, List.foldl_cons, hfirst, hring]

/-- A service that starts subscribes with the next inbox, and puts the silos that the oracle considers
functional on its ring. -/
theorem post_start {s : Service} (hstopped : s.subscription = none) (m : Moment) :
    (s.start m).1.post =
      { s.post with
        ring := (m.oracle.functionalSilos.filter fun silo => silo.id ≠ s.home.id).foldl
          Ring.insert s.ring
        subscription := some m.oracle.nextId } := by
  unfold start
  rw [hstopped]
  exact post_addSilos _ _ _

theorem oracle_start {s : Service} (hstopped : s.subscription = none) (m : Moment) :
    (s.start m).2 = m.oracle.subscribe.2 := by
  unfold start
  rw [hstopped]

/-- A service that has started stays as it is. -/
theorem start_of_subscribed {s : Service} {id : Nat} (h : s.subscription = some id) (m : Moment) :
    s.start m = (s, m.oracle) := by
  unfold start
  rw [h]

theorem post_localLookup (m : Moment) (g : Grain) : (s.localLookup m g).2.post = s.post := by
  unfold localLookup
  split
  · rfl
  · rfl
  · split
    · rename_i hcached
      rw [show s.post = (s.cachedAddress m g).2.post from rfl, hcached]
    · rename_i hcached
      rw [show s.post = (s.cachedAddress m g).2.post from rfl, hcached]
      split
      · rfl
      · dsimp only
        split <;> rfl

theorem subscription_release (o : Oracle) : (s.release o).1.subscription = none := by
  unfold release
  split
  · rfl
  · assumption

end Service

/-! ## What changes an inbox -/

namespace Oracle

/-- Whether of an oracle nothing has changed but the inbox of a subscription. -/
structure Touches (o : Oracle) (subscription : Option Nat) (o' : Oracle) : Prop where
  reports : o'.reports = o.reports
  nextId : o'.nextId = o.nextId
  others : ∀ id, subscription ≠ some id → o'.inboxes.find? id = o.inboxes.find? id

variable {o o' o'' : Oracle} {subscription : Option Nat}

theorem Touches.refl (o : Oracle) (subscription : Option Nat) : o.Touches subscription o :=
  ⟨rfl, rfl, fun _ _ => rfl⟩

theorem Touches.trans (h : o.Touches subscription o') (h' : o'.Touches subscription o'') :
    o.Touches subscription o'' :=
  ⟨h'.reports.trans h.reports, h'.nextId.trans h.nextId, fun id hid =>
    (h'.others id hid).trans (h.others id hid)⟩

theorem touches_settle (o : Oracle) (b : Inbox) : o.Touches (some b.id) (o.settle b) := by
  refine ⟨rfl, rfl, fun id hid => ?_⟩
  have hne : id ≠ b.id := fun heq => hid (congrArg some heq.symm)
  unfold settle
  dsimp only
  split
  · rw [Table.find?_put, if_neg hne]
  · rw [Table.find?_erase, if_neg hne]

theorem touches_unsubscribe (o : Oracle) (id : Nat) : o.Touches (some id) (o.unsubscribe id) := by
  unfold unsubscribe
  split
  · rename_i b hb
    obtain rfl : b.id = id := Table.key_of_find? hb
    exact o.touches_settle { b with subscribed := false }
  · exact .refl o _

theorem touches_giveUp (o : Oracle) (id : Nat) : o.Touches (some id) (o.giveUp id) := by
  unfold giveUp
  split
  · rename_i b hb
    obtain rfl : b.id = id := Table.key_of_find? hb
    exact o.touches_settle { b with held := false }
  · exact .refl o _

/-- Of an inbox the oldest event is taken. -/
theorem take_eq_some {id : Nat} {e : StatusEvent} (h : o.take id = some (e, o')) :
    ∃ b rest, o.inboxes.find? id = some b ∧ b.queue = e :: rest ∧
      o' = { o with inboxes := o.inboxes.put { b with queue := rest } } := by
  unfold take at h
  split at h
  · cases h
  · rename_i b hb
    split at h
    · cases h
    · rename_i rest hqueue
      cases h
      exact ⟨b, rest, hb, hqueue, rfl⟩

theorem touches_take {id : Nat} {e : StatusEvent} (h : o.take id = some (e, o')) :
    o.Touches (some id) o' := by
  obtain ⟨b, rest, hb, -, rfl⟩ := take_eq_some h
  obtain rfl : b.id = id := Table.key_of_find? hb
  refine ⟨rfl, rfl, fun id' hid => ?_⟩
  dsimp only
  rw [Table.find?_put, if_neg fun heq => hid (congrArg some heq.symm)]

@[simp] theorem nextId_setStatus (o : Oracle) (s : Silo) (status : SiloStatus) :
    (o.setStatus s status).nextId = o.nextId := by
  rcases o.setStatus_cases s status with ⟨-, heq⟩ | heq <;> rw [heq]
  rfl

end Oracle

namespace Service

variable (s : Service)

theorem touches_stop (m : Moment) : m.oracle.Touches s.subscription (s.stop m).2 := by
  unfold stop
  dsimp only
  split
  · rename_i id hid
    rw [hid]
    exact (m.oracle.touches_unsubscribe id).trans (Oracle.touches_giveUp _ id)
  · exact .refl _ _

theorem touches_release (o : Oracle) : o.Touches s.subscription (s.release o).2 := by
  unfold release
  split
  · rename_i id hid
    rw [hid]
    exact o.touches_giveUp id
  · exact .refl o _

end Service

end GrainDirectory

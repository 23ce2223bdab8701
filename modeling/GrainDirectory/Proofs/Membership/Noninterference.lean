import GrainDirectory.Proofs.Books
import GrainDirectory.Proofs.Commands
import GrainDirectory.Proofs.Membership.Posts
set_option autoImplicit false

/-!
# What commands leave alone

An inbox belongs to one service, since an oracle gives no number out twice.  So whatever happens at
other services leaves a service's post and its inbox as they are, and so does whatever calls do
anywhere.  What is left is that a status is reported or that the service is given its oldest event.

`conducts_perform` goes through all commands once and says which of the three each command is to a
service, as long as it leaves the ring of the service to the service (`LeavesRing`).
-/

namespace GrainDirectory.Cluster

/-! ## Subscriptions -/

/-- Whether services subscribe with inboxes that they had before or that were given out since. -/
structure Enlists (c c' : Cluster) : Prop where
  nextId : c.oracle.nextId ≤ c'.oracle.nextId
  subscription : ∀ j id, (c'.service j).subscription = some id →
    (c.service j).subscription = some id ∨ (c.oracle.nextId ≤ id ∧ id < c'.oracle.nextId)

namespace Enlists

variable {c c' c'' : Cluster}

theorem refl (c : Cluster) : Enlists c c := ⟨Nat.le_refl _, fun _ _ => .inl⟩

theorem trans (h : Enlists c c') (h' : Enlists c' c'') : Enlists c c'' := by
  refine ⟨Nat.le_trans h.nextId h'.nextId, fun j id hid => ?_⟩
  rcases h'.subscription j id hid with hid | ⟨hlow, hhigh⟩
  · rcases h.subscription j id hid with hid | ⟨hlow, hhigh⟩
    · exact .inl hid
    · exact .inr ⟨hlow, Nat.lt_of_lt_of_le hhigh h'.nextId⟩
  · exact .inr ⟨Nat.le_trans h.nextId hlow, hhigh⟩

/-- Where no inbox is given out, subscriptions may only end. -/
theorem of_nextId_eq (hnext : c'.oracle.nextId = c.oracle.nextId)
    (h : ∀ j id, (c'.service j).subscription = some id → (c.service j).subscription = some id) :
    Enlists c c' :=
  ⟨Nat.le_of_eq hnext.symm, fun j id hid => .inl (h j id hid)⟩

end Enlists

/-- Whether all services are subscribed with inboxes that were given out. -/
def Issued (c : Cluster) : Prop :=
  ∀ j id, (c.service j).subscription = some id → id < c.oracle.nextId

theorem Issued.of_enlists {c c' : Cluster} (h : c.Issued) (hsteps : Enlists c c') : c'.Issued :=
  fun j id hid => (hsteps.subscription j id hid).elim
    (fun hid => Nat.lt_of_lt_of_le (h j id hid) hsteps.nextId) And.right

/-- Whether a service is there and its inbox, if it has one, is its own. -/
structure Enrolled (n : ServiceId) (c : Cluster) : Prop where
  present : n < c.services.length
  issued : c.Issued
  own : ∀ j id, j ≠ n → (c.service n).subscription = some id → (c.service j).subscription ≠ some id

/-! ## Being spared -/

/-- Whether a service's post and inbox are as they were, and the statuses on record too. -/
structure Spares (n : ServiceId) (c c' : Cluster) : Prop extends Enlists c c' where
  length : c.services.length ≤ c'.services.length
  post : (c'.service n).post = (c.service n).post
  reports : c'.oracle.reports = c.oracle.reports
  inbox : ∀ id, (c.service n).subscription = some id →
    c'.oracle.inboxes.find? id = c.oracle.inboxes.find? id

section Spares

variable {n : ServiceId} {c c' c'' : Cluster}

theorem Spares.refl (n : ServiceId) (c : Cluster) : Spares n c c :=
  ⟨.refl c, Nat.le_refl _, rfl, rfl, fun _ _ => rfl⟩

theorem Spares.trans (h : Spares n c c') (h' : Spares n c' c'') : Spares n c c'' where
  toEnlists := h.toEnlists.trans h'.toEnlists
  length := Nat.le_trans h.length h'.length
  post := h'.post.trans h.post
  reports := h'.reports.trans h.reports
  inbox id hid := (h'.inbox id ((congrArg Post.subscription h.post).trans hid)).trans (h.inbox id hid)

/-- A service keeps an inbox of its own as long as it keeps its subscription. -/
theorem Enrolled.of_enlists (h : Enrolled n c) (hsteps : Enlists c c')
    (hlength : c.services.length ≤ c'.services.length)
    (hsubscription : (c'.service n).subscription = (c.service n).subscription) : Enrolled n c' where
  present := Nat.lt_of_lt_of_le h.present hlength
  issued := h.issued.of_enlists hsteps
  own j id hj hn := by
    rw [hsubscription] at hn
    intro hid
    rcases hsteps.subscription j id hid with hid | ⟨hlow, -⟩
    · exact h.own j id hj hn hid
    · exact absurd (h.issued n id hn) (Nat.not_lt.mpr hlow)

theorem Enrolled.of_spares (h : Enrolled n c) (hspares : Spares n c c') : Enrolled n c' :=
  h.of_enlists hspares.toEnlists hspares.length (congrArg Post.subscription hspares.post)

end Spares

/-! ## Steps that concern no post -/

/-- Whether the oracle and the posts of all services are as they were. -/
structure Aside (c c' : Cluster) : Prop where
  oracle : c'.oracle = c.oracle
  length : c'.services.length = c.services.length
  post : ∀ j, (c'.service j).post = (c.service j).post

namespace Aside

variable {c c' : Cluster}

theorem enlists (h : Aside c c') : Enlists c c' :=
  .of_nextId_eq (congrArg Oracle.nextId h.oracle) fun j _ hid =>
    (congrArg Post.subscription (h.post j)).symm.trans hid

theorem spares (h : Aside c c') (n : ServiceId) : Spares n c c' where
  toEnlists := h.enlists
  length := Nat.le_of_eq h.length.symm
  post := h.post n
  reports := congrArg Oracle.reports h.oracle
  inbox _ _ := by rw [h.oracle]

theorem of_services (hservices : c'.services = c.services) (horacle : c'.oracle = c.oracle) :
    Aside c c' :=
  ⟨horacle, congrArg List.length hservices, fun j => by rw [service, service, hservices]⟩

theorem of_outline (h : c'.outline = c.outline) : Aside c c' where
  oracle := eq_of_outline h Cluster.oracle fun _ => rfl
  length := length_eq_of_outline h
  post := service_eq_of_outline h Service.post fun _ => rfl

theorem adjust {i : ServiceId} {f : Service → Service}
    (h : (f (c.service i)).post = (c.service i).post) : Aside c (c.adjust i f) := by
  refine ⟨rfl, c.length_adjust i f, fun j => ?_⟩
  rw [service_adjust]
  split
  · rename_i hij
    rw [← hij.1, h]
  · rfl

end Aside

/-! ## Steps of one service -/

/-- Whether nothing has changed but one service and the inbox it is subscribed with, and the service has
no other subscription than before. -/
structure Moves (j : ServiceId) (c c' : Cluster) : Prop where
  touches : c.oracle.Touches (c.service j).subscription c'.oracle
  length : c'.services.length = c.services.length
  others : ∀ k, k ≠ j → c'.service k = c.service k
  subscription : ∀ id, (c'.service j).subscription = some id → (c.service j).subscription = some id

namespace Moves

variable {n j : ServiceId} {c c' : Cluster} {o : Oracle} {f : Service → Service}

theorem refl (j : ServiceId) (c : Cluster) : Moves j c c :=
  ⟨.refl _ _, rfl, fun _ _ => rfl, fun _ hid => hid⟩

theorem adjust (ho : c.oracle.Touches (c.service j).subscription o)
    (hf : ∀ id, (f (c.service j)).subscription = some id → (c.service j).subscription = some id) :
    Moves j c ({ c with oracle := o }.adjust j f) := by
  refine ⟨ho, length_adjust _ _ _, fun k hk => service_adjust_of_ne _ hk.symm f, fun id hid => ?_⟩
  rw [service_adjust] at hid
  split at hid
  · exact hf id hid
  · exact hid

/-- A service may change its ring. -/
theorem ring {ring : Ring} (hf : (f (c.service j)).post = { (c.service j).post with ring := ring }) :
    Moves j c (c.adjust j f) :=
  adjust (o := c.oracle) (.refl _ _) fun _ hid => (congrArg Post.subscription hf).symm.trans hid

/-- A service may end its subscription. -/
theorem unsubscribed (ho : c.oracle.Touches (c.service j).subscription o)
    (hf : (f (c.service j)).subscription = none) : Moves j c ({ c with oracle := o }.adjust j f) :=
  adjust ho fun id hid => by
    rw [hf] at hid
    cases hid

theorem enlists (h : Moves j c c') : Enlists c c' := by
  refine .of_nextId_eq h.touches.nextId fun k id hid => ?_
  by_cases hk : k = j
  · subst hk
    exact h.subscription id hid
  · rwa [h.others k hk] at hid

/-- The other services are spared: the inbox is none of theirs. -/
theorem spares (h : Moves j c c') (hn : Enrolled n c) (hj : j ≠ n) : Spares n c c' where
  toEnlists := h.enlists
  length := Nat.le_of_eq h.length.symm
  post := congrArg Service.post (h.others n hj.symm)
  reports := h.touches.reports
  inbox id hid := h.touches.others id (hn.own j id hj hid)

end Moves

theorem moves_removeSilo (c : Cluster) (j : ServiceId) (silo : Silo) (status : SiloStatus) :
    Moves j c (c.adjust j fun s => (s.removeSilo c.clock silo status).2) :=
  .ring (Service.post_removeSilo _ _ silo status)

theorem moves_deliver (c : Cluster) (j : ServiceId) : Moves j c (c.deliver j) := by
  unfold deliver
  split
  · exact .refl j c
  · split
    · exact .refl j c
    · rename_i inbox hinbox _ e o htake
      refine .adjust (hinbox ▸ Oracle.touches_take htake) fun id hid => ?_
      exact (congrArg Post.subscription (Service.post_follow _ _ e)).symm.trans hid

theorem moves_stop (c : Cluster) (j : ServiceId) : Moves j c (c.stop j) :=
  .unsubscribed ((c.service j).touches_stop c.moment) rfl

theorem moves_release (c : Cluster) (j : ServiceId) : Moves j c (c.release j) :=
  .unsubscribed ((c.service j).touches_release c.oracle) (Service.subscription_release _ _)

/-! ## Starting -/

section Start

variable {n j : ServiceId} {c : Cluster}

/-- A service that has started does not start again. -/
theorem start_of_subscribed {id : Nat} (hid : (c.service j).subscription = some id) :
    Aside c (c.start j) := by
  unfold start
  rw [Service.start_of_subscribed hid]
  exact Aside.adjust (c := c) (f := fun _ => c.service j) rfl

/-- A service that starts subscribes with the inbox that is given out next. -/
theorem subscription_start {k : ServiceId} {id : Nat} (hstopped : (c.service j).subscription = none)
    (hid : ((c.start j).service k).subscription = some id) :
    (c.service k).subscription = some id ∨ (k = j ∧ id = c.oracle.nextId) := by
  unfold start at hid
  rw [service_adjust] at hid
  split at hid
  · rename_i hjk
    right
    have hnext := congrArg Post.subscription (Service.post_start hstopped c.moment)
    exact ⟨hjk.1.symm, Option.some.inj (hid.symm.trans hnext)⟩
  · exact .inl hid

theorem oracle_start (hstopped : (c.service j).subscription = none) :
    (c.start j).oracle = c.oracle.subscribe.2 := Service.oracle_start hstopped c.moment

theorem enlists_start (c : Cluster) (j : ServiceId) : Enlists c (c.start j) := by
  cases hsubscription : (c.service j).subscription with
  | some id => exact (start_of_subscribed hsubscription).enlists
  | none =>
    have hnext : (c.start j).oracle.nextId = c.oracle.nextId + 1 := by
      rw [oracle_start hsubscription]
      rfl
    refine ⟨by omega, fun k id hid => ?_⟩
    rcases subscription_start hsubscription hid with hid | ⟨-, rfl⟩
    · exact .inl hid
    · exact .inr ⟨Nat.le_refl _, by omega⟩

theorem spares_start (h : Enrolled n c) (hj : j ≠ n) : Spares n c (c.start j) := by
  cases hsubscription : (c.service j).subscription with
  | some id => exact (start_of_subscribed hsubscription).spares n
  | none =>
    refine ⟨enlists_start c j, Nat.le_of_eq (length_adjust _ _ _).symm,
      congrArg Service.post (service_adjust_of_ne _ hj _), ?_, fun id hid => ?_⟩
    · rw [oracle_start hsubscription]
      rfl
    · have hissued := h.issued n id hid
      rw [oracle_start hsubscription]
      exact (Table.find?_put _ _ _).trans (if_neg (Nat.ne_of_lt hissued))

end Start

/-! ## Services that nobody holds -/

section Held

variable {n j : ServiceId} {c : Cluster}

theorem live_release : (c.release j).Live n ↔ c.Live n := by
  have hservice : ((c.release j).service n).listed = (c.service n).listed ∧
      ((c.release j).service n).kept = (c.service n).kept := by
    unfold release
    rw [service_adjust]
    split
    · rename_i hjn
      obtain ⟨rfl, -⟩ := hjn
      unfold Service.release
      split <;> exact ⟨rfl, rfl⟩
    · exact ⟨rfl, rfl⟩
  have hlength : (c.release j).services.length = c.services.length := length_adjust _ _ _
  have hengaged : (c.release j).engaged = c.engaged := rfl
  rw [Live, Live, hservice.1, hservice.2, hlength, hengaged]

/-- Releasing others does not change who is held. -/
theorem live_releaseUnheld : c.releaseUnheld.Live n ↔ c.Live n := by
  unfold releaseUnheld
  generalize c.numbers = numbers
  induction numbers generalizing c with
  | nil => exact Iff.rfl
  | cons j rest ih =>
    rw [List.foldl_cons, ih]
    split
    · exact Iff.rfl
    · exact live_release

theorem enlists_foldl {l : List ServiceId} {f : Cluster → ServiceId → Cluster}
    (hf : ∀ c j, Enlists c (f c j)) (c : Cluster) : Enlists c (l.foldl f c) := by
  induction l generalizing c with
  | nil => exact .refl c
  | cons j rest ih => exact (hf c j).trans (ih _)

theorem enlists_releaseUnheld (c : Cluster) : Enlists c c.releaseUnheld := by
  refine enlists_foldl (fun c j => ?_) c
  split
  · exact .refl c
  · exact (moves_release c j).enlists

/-- A service that somebody holds is not released. -/
theorem spares_releaseUnheld (h : Enrolled n c) (hlive : c.Live n) : Spares n c c.releaseUnheld := by
  unfold releaseUnheld
  generalize c.numbers = numbers
  induction numbers generalizing c with
  | nil => exact .refl n c
  | cons j rest ih =>
    rw [List.foldl_cons]
    split
    · exact ih h hlive
    · rename_i hunheld
      have hother : j ≠ n := fun heq => hunheld (heq ▸ hlive)
      have hfirst := (moves_release c j).spares h hother
      exact hfirst.trans (ih (h.of_spares hfirst) (live_release.mpr hlive))

/-- A service is taken off the list without anything happening to posts. -/
theorem aside_unlist (c : Cluster) (i : ServiceId) :
    Aside c (c.adjust i fun s => { s with listed := false }) := .adjust rfl

theorem enlists_dismiss (c : Cluster) (label : String) : Enlists c (c.dismiss label) := by
  unfold dismiss
  split
  · rename_i i _
    exact (aside_unlist c i).enlists.trans (enlists_releaseUnheld _)
  · exact .refl c

theorem spares_dismiss (h : Enrolled n c) {label : String} (hlive : (c.dismiss label).Live n) :
    Spares n c (c.dismiss label) := by
  unfold dismiss at hlive ⊢
  split at hlive
  · rename_i i _
    have hunlisted := (aside_unlist c i).spares n
    exact hunlisted.trans
      (spares_releaseUnheld (h.of_spares hunlisted) (live_releaseUnheld.mp hlive))
  · exact .refl n c

end Held

/-! ## Installing -/

section Install

variable {n : ServiceId} {c c' : Cluster} {b : Blueprint}

/-- What a service that is built follows membership with. -/
theorem post_of_build {now : Nat} {s : Service} (h : b.build now = .ok s) :
    s.post = ⟨b.home, Ring.ofList [b.home], none⟩ := by
  unfold Blueprint.build at h
  split at h
  · cases h
  · split at h
    · cases h
    · split at h
      · cases h
      · rw [← Except.ok.inj h]
        rfl

/-- A service that is installed comes last. -/
theorem install_eq_ok (h : c.install b = .ok c') : ∃ s, b.build c.clock = .ok s ∧
    c' = { c.dismiss b.label with services := (c.dismiss b.label).services ++ [s] } := by
  unfold install at h
  split at h
  · cases h
  · rename_i s hbuild
    exact ⟨s, hbuild, (Except.ok.inj h).symm⟩

theorem enlists_install (h : c.install b = .ok c') : Enlists c c' := by
  obtain ⟨s, hbuild, rfl⟩ := install_eq_ok h
  refine (enlists_dismiss c b.label).trans (.of_nextId_eq rfl fun j id hid => ?_)
  rw [service_append] at hid
  split at hid
  · have hnone := congrArg Post.subscription (post_of_build hbuild)
    cases hnone.symm.trans hid
  · exact hid

theorem spares_install (hn : Enrolled n c) (hlive : (c.dismiss b.label).Live n)
    (h : c.install b = .ok c') : Spares n c c' := by
  have henlists := enlists_install h
  obtain ⟨s, hbuild, rfl⟩ := install_eq_ok h
  have hdismissed := spares_dismiss hn hlive
  refine ⟨henlists, ?_, ?_, hdismissed.reports, hdismissed.inbox⟩
  · rw [List.length_append]
    exact Nat.le_add_right_of_le hdismissed.length
  · rw [service_append, if_neg (Nat.ne_of_lt hlive.1)]
    exact hdismissed.post

end Install

/-! ## Reports -/

section Report

variable {n : ServiceId} {c : Cluster}

theorem enlists_report (c : Cluster) (silo : Silo) (status : SiloStatus) :
    Enlists c (c.report silo status) :=
  .of_nextId_eq (c.oracle.nextId_setStatus silo status) fun _ _ hid => hid

theorem enlists_removeElsewhere (c : Cluster) (i : ServiceId) (silo : Silo) (status : SiloStatus) :
    Enlists c (c.removeElsewhere i silo status) :=
  enlists_foldl (fun c j => (moves_removeSilo c j silo status).enlists) c

/-- What is removed elsewhere is not removed at a service that the testbed does not hold. -/
theorem spares_removeElsewhere (h : Enrolled n c) {i : ServiceId}
    (hother : i = n ∨ (c.service n).kept = false) (silo : Silo) (status : SiloStatus) :
    Spares n c (c.removeElsewhere i silo status) := by
  have hothers : ∀ j ∈ c.kept.filter (· ≠ i), j ≠ n := by
    intro j hj hjn
    obtain ⟨hj, hji⟩ := List.mem_filter.mp hj
    have hkept := (List.mem_filter.mp hj).2
    rw [hjn] at hkept hji
    rcases hother with rfl | hother
    · simp at hji
    · rw [hother] at hkept
      cases hkept
  unfold removeElsewhere
  generalize c.kept.filter (· ≠ i) = others at hothers
  induction others generalizing c with
  | nil => exact .refl n c
  | cons j rest ih =>
    have hfirst := (moves_removeSilo c j silo status).spares h (hothers j List.mem_cons_self)
    have hrest : ∀ k ∈ rest, k ≠ n := fun k hk => hothers k (List.mem_cons_of_mem j hk)
    refine hfirst.trans (ih (h.of_spares hfirst) ?_ hrest)
    rw [service_adjust_of_ne c (hothers j List.mem_cons_self)]
    exact hother

end Report

/-! ## Commands -/

/-- Whether a command, in the state that it meets, changes the ring of a service in no other way than that
the service follows an event, and leaves the service held. -/
def LeavesRing (n : ServiceId) (c : Cluster) : Command → Prop
  | .follow i _ => i ≠ n
  | .addSilo i _ => i ≠ n
  | .removeSilo i _ _ => i ≠ n
  | .stop i => i ≠ n
  | .start i => i = n → (c.service n).subscription ≠ none
  | .kill i => i = n ∨ (c.service n).kept = false
  | .install b => (c.dismiss b.label).Live n
  | .dismiss label => (c.dismiss label).Live n
  | _ => True

/-- What a command reports to the oracle. -/
def reportsOf (c : Cluster) : Command → List StatusEvent
  | .report silo status => [⟨silo, status⟩]
  | .kill i => [⟨(c.service i).home, .dead⟩]
  | _ => []

/-- What a step is to a service that the step leaves its ring to. -/
inductive Course (n : ServiceId) (c : Cluster) : List StatusEvent → Cluster → Prop
  /-- Nothing. -/
  | spared {c' : Cluster} (h : Spares n c c') : Course n c [] c'
  /-- A report to the oracle. -/
  | reported (silo : Silo) (status : SiloStatus) {c' : Cluster}
      (h : Spares n (c.report silo status) c') : Course n c [⟨silo, status⟩] c'
  /-- The oldest event in its inbox. -/
  | delivered : Course n c [] (c.deliver n)

/-- What a command is to membership: it gives inboxes out as it should, and to every service that it
leaves its ring to it takes its course. -/
structure Conducts (c : Cluster) (command : Command) (c' : Cluster) : Prop where
  enlists : Enlists c c'
  course : ∀ n, Enrolled n c → LeavesRing n c command → Course n c (c.reportsOf command) c'

theorem Aside.conducts {c c' : Cluster} {command : Command} (h : Aside c c')
    (hsilent : c.reportsOf command = []) : Conducts c command c' where
  enlists := h.enlists
  course n _ _ := hsilent ▸ .spared (h.spares n)

/-- What a service does on its own takes its course to all others. -/
theorem Moves.conducts {j : ServiceId} {c c' : Cluster} {command : Command} (h : Moves j c c')
    (hsilent : c.reportsOf command = []) (hother : ∀ n, LeavesRing n c command → j ≠ n) :
    Conducts c command c' where
  enlists := h.enlists
  course n hn hleaves := hsilent ▸ .spared (h.spares hn (hother n hleaves))

theorem conducts_perform (c : Cluster) (command : Command) :
    Conducts c command (command.perform.run c).2 := by
  cases command with
  | call i request =>
    rw [Command.perform, Command.run_replied]
    exact (Aside.of_outline (outline_call i request c)).conducts rfl
  | serve i frame =>
    rw [Command.perform, Activity.run_bind]
    exact (Aside.of_outline (keeps_serve i frame c)).conducts rfl
  | unregisterNonexistent i address origin =>
    rw [Command.perform, Command.run_replied]
    exact (Aside.of_outline (keeps_unregisterNonexistent i address origin c)).conducts rfl
  | localLookup i grain =>
    rw [Command.perform, Activity.run_bind]
    exact (Aside.adjust (Service.post_localLookup _ _ _)).conducts rfl
  | cachedAddress i grain =>
    rw [Command.perform, Activity.run_bind]
    exact (Aside.adjust rfl).conducts rfl
  | suggest i grain silo => exact (Aside.adjust rfl).conducts rfl
  | forget i grain =>
    rw [Command.perform, Command.run_flagged]
    exact (Aside.adjust rfl).conducts rfl
  | forgetAddress i address =>
    rw [Command.perform, Command.run_flagged]
    exact (Aside.adjust rfl).conducts rfl
  | awaitMember i silo patience looks interval =>
    rw [Command.perform, Activity.run_bind]
    obtain ⟨time, heq⟩ := exists_elapse_awaitMember i silo patience looks interval c
    rw [Activity.run_pure, heq]
    exact Aside.conducts (.of_services rfl rfl) rfl
  | follow i event =>
    exact Moves.conducts (.ring (Service.post_follow _ _ event)) rfl fun _ hother => hother
  | addSilo i silo =>
    rw [Command.perform, Command.run_flagged]
    exact Moves.conducts (.ring (Service.post_addSilo _ _ silo)) rfl fun _ hother => hother
  | removeSilo i silo status =>
    rw [Command.perform, Command.run_flagged]
    exact Moves.conducts (.ring (Service.post_removeSilo _ _ silo status)) rfl fun _ hother => hother
  | deliver i =>
    refine ⟨(moves_deliver c i).enlists, fun n h _ => ?_⟩
    by_cases hi : i = n
    · subst hi
      exact .delivered
    · exact .spared ((moves_deliver c i).spares h hi)
  | install b =>
    rw [Command.perform, Activity.run_act]
    split
    · exact ⟨.refl c, fun n _ _ => .spared (.refl n c)⟩
    · rename_i c' hinstall
      exact ⟨enlists_install hinstall, fun n h hlive => .spared (spares_install h hlive hinstall)⟩
  | start i =>
    refine ⟨enlists_start c i, fun n h hstarted => ?_⟩
    by_cases hi : i = n
    · obtain ⟨id, hid⟩ := Option.ne_none_iff_exists'.mp (hstarted hi)
      exact .spared ((start_of_subscribed (hi ▸ hid)).spares n)
    · exact .spared (spares_start h hi)
  | stop i => exact (moves_stop c i).conducts rfl fun _ hother => hother
  | dismiss label =>
    exact ⟨enlists_dismiss c label, fun n h hlive => .spared (spares_dismiss h hlive)⟩
  | attach i => exact Aside.conducts (.of_services rfl rfl) rfl
  | detach silo => exact Aside.conducts (.of_services rfl rfl) rfl
  | script silo answer => exact Aside.conducts (.of_services rfl rfl) rfl
  | unscript silo => exact Aside.conducts (.of_services rfl rfl) rfl
  | report silo status =>
    exact ⟨enlists_report c silo status, fun n _ _ => .reported silo status (.refl n _)⟩
  | kill i =>
    have hreported := enlists_report c (c.service i).home .dead
    have hgone : Aside (c.report (c.service i).home .dead)
        ((c.report (c.service i).home .dead).detach (c.service i).home).2 :=
      .of_services rfl rfl
    refine ⟨(hreported.trans hgone.enlists).trans (enlists_removeElsewhere _ i _ _),
      fun n h hother => .reported _ _ ((hgone.spares n).trans ?_)⟩
    have hn := (h.of_enlists hreported (Nat.le_refl _) rfl).of_spares (hgone.spares n)
    exact spares_removeElsewhere hn hother _ _
  | elapse time => exact Aside.conducts (.of_services rfl rfl) rfl

/-! ## Runs -/

/-- Whether every command of a run leaves the ring of a service to the service, in the state that it
meets. -/
def AllLeaveRing (n : ServiceId) : Cluster → List Command → Prop
  | _, [] => True
  | c, command :: rest => c.LeavesRing n command ∧ AllLeaveRing n (command.perform.run c).2 rest

/-- Whether a command is a report of a status or the delivery of an event. -/
def Tells : Command → Bool
  | .report _ _ => true
  | .deliver _ => true
  | _ => false

/-- Reports and deliveries, however they are mixed, leave every ring to its service. -/
theorem allLeaveRing_of_tells {n : ServiceId} {c : Cluster} {commands : List Command}
    (h : ∀ command ∈ commands, Tells command = true) : AllLeaveRing n c commands := by
  induction commands generalizing c with
  | nil => trivial
  | cons command rest ih =>
    refine ⟨?_, ih fun other hother => h other (List.mem_cons_of_mem command hother)⟩
    have htells := h command List.mem_cons_self
    cases command <;> trivial

/-- What the commands of a run report to the oracle. -/
def reportsIn : Cluster → List Command → List StatusEvent
  | _, [] => []
  | c, command :: rest => c.reportsOf command ++ reportsIn (command.perform.run c).2 rest

theorem Issued.afterAll {c : Cluster} (h : c.Issued) (commands : List Command) :
    (c.afterAll commands).Issued := by
  induction commands generalizing c with
  | nil => exact h
  | cons command rest ih => exact ih (h.of_enlists (conducts_perform c command).enlists)

/-- A cluster without services has no subscriptions. -/
theorem issued_of_services_eq_nil {c : Cluster} (h : c.services = []) : c.Issued := by
  intro j id hid
  rw [service, h, List.getD_nil] at hid
  cases hid

end GrainDirectory.Cluster

import GrainDirectory.Proofs.FastPath
import GrainDirectory.Proofs.Scenes
import GrainDirectory.Proofs.Stores
set_option autoImplicit false

/-!
# What is left of a silo that has gone

A service that hears that a silo leaves takes it off its ring and drops whatever is registered on it.
If the silo has left the ring before, on another report, the service has nothing to take off, and drops
nothing: what has been registered on the silo in between stays.

So once the departure of a silo has found the silo on the ring, or nothing that names it, nothing that
the service answers on its own names the silo again, until somebody registers it anew or the oracle
takes it for functional again.  What every beat preserves is `Partition.Omits`; the main statement is
`forgotten_after_departure`.
-/

namespace GrainDirectory

/-! ## Registrations that do not name a silo -/

namespace Partition

/-- Whether nothing is registered on a silo. -/
def Omits (p : Partition) (x : Silo) : Prop :=
  ∀ id r, p.registration? id = some r → r.address.silo.id ≠ x.id

variable {p p' : Partition} {x : Silo}

theorem Omits.of_within (h : p.Omits x) (hwithin : p'.Within p) : p'.Omits x :=
  fun id r hr => h id r (hwithin id r hr)

theorem Omits.lookup (h : p.Omits x) {g : Grain} {a : GrainAddress}
    (ha : a ∈ (p.lookup g).address) : a.silo.id ≠ x.id := by
  unfold Partition.lookup at ha
  split at ha
  · rename_i r hr
    rw [← Option.some.inj ha]
    exact h _ r hr
  · cases ha

end Partition

namespace Service

variable {s : Service} {x : Silo} {m : Moment} {g : Grain}

/-- A silo is taken off the ring if it is there. -/
theorem fst_removeSilo (s : Service) (now : Nat) (silo : Silo) (status : SiloStatus) :
    (s.removeSilo now silo status).1 = s.ring.contains silo := by
  have hring : (s.tell now (.leaving silo status s.ring (s.catalog s.ring silo status))).ring =
      s.ring := congrArg Post.ring (s.post_tell now _)
  unfold removeSilo
  dsimp only
  rw [hring, Ring.erase?]
  cases s.ring.contains silo <;> rfl

/-- A departure that finds the silo on the ring leaves nothing that names it. -/
theorem omits_follow {e : StatusEvent} (hother : e.silo.id ≠ s.home.id) (hleave : e.isLeave = true)
    (hfound : s.ring.contains e.silo = true ∨ s.partition.Omits e.silo) (now : Nat) :
    (s.follow now e).partition.Omits e.silo := by
  rcases hfound with hring | homits
  · have hremoved : (s.removeSilo now e.silo e.status).1 = true :=
      (s.fst_removeSilo now e.silo e.status).trans hring
    unfold follow
    rw [if_neg hother, if_pos hleave]
    intro id r hr hid
    rw [registration?_removeSilo hremoved, Option.filter_eq_some_iff] at hr
    exact of_decide_eq_true hr.2 (.inl hid)
  · exact homits.of_within (s.within_follow now e)

/-- A lookup that is answered without the owner names a trusted silo or what is registered. -/
theorem localLookup_cases {t : TaggedAddress} (h : (s.localLookup m g).1 = .ok (some t))
    {a : GrainAddress} (ha : a ∈ t.address) :
    s.Trusts m.oracle a.silo ∨ ∃ r, s.partition.registration? g.id = some r ∧ r.address = a := by
  rcases s.localLookup_sources m h with ⟨e, hentry, rfl⟩ | ⟨-, r, hr, rfl⟩
  · rw [← Option.some.inj ha]
    exact .inl (of_decide_eq_true (Option.filter_eq_some_iff.mp hentry).2)
  · exact .inr ⟨r, hr, Option.some.inj ha⟩

end Service

/-! ## What is said of a silo -/

/-- Whether a command asks to register something on a silo. -/
def Command.Settles (command : Command) (x : Silo) : Prop :=
  ∃ address previous, command.Asks (.register address previous) ∧ address.silo.id = x.id

namespace Cluster

variable {c : Cluster} {n : ServiceId} {x : Silo}

/-- Whether a command has a service follow an event: it is handed to the service, or it is the oldest
one in its inbox. -/
def Handles (n : ServiceId) (c : Cluster) (command : Command) (e : StatusEvent) : Prop :=
  command = .follow n e ∨ command = .deliver n ∧
    ∃ id o, (c.service n).subscription = some id ∧ c.oracle.take id = some (e, o)

theorem Handles.not_converses {command : Command} {e : StatusEvent} (h : Handles n c command e) :
    ¬ command.Converses := by
  rcases h with rfl | ⟨rfl, -⟩ <;> exact id

theorem Handles.service_eq {command : Command} {e : StatusEvent} (h : Handles n c command e)
    (hn : n < c.services.length) :
    (command.perform.run c).2.service n = (c.service n).follow c.clock e := by
  rcases h with rfl | ⟨rfl, id, o, hid, htake⟩
  · exact service_adjust_self hn _
  · show (c.deliver n).service n = _
    rw [deliver, hid]
    dsimp only
    rw [htake]
    exact service_adjust_self (c := { c with oracle := o }) hn _

/-- Whether nothing that a service answers on its own names a silo. -/
structure Forgotten (n : ServiceId) (x : Silo) (c : Cluster) : Prop where
  /-- Lookups that are served, whenever that is and wherever they come from. -/
  served : ∀ m g t, ((c.service n).serve m (.lookup g)).1 = .located t →
    ∀ a ∈ t.address, a.silo.id ≠ x.id
  /-- Calls for a lookup that the service does not forward. -/
  called : ∀ g hop, (c.service n).verdict c.oracle (.lookup g) hop = .serve →
    ∀ t, ((Cluster.call n (.single (.lookup g) hop)).run c).1 = .ok (.located t) →
      ∀ a ∈ t.address, a.silo.id ≠ x.id
  /-- Lookups that are answered without the owner. -/
  lookedUp : ∀ g t, ((c.service n).localLookup c.moment g).1 = .ok (some t) →
    ∀ a ∈ t.address, a.silo.id ≠ x.id

/-- Nothing names a silo that is not registered and that the oracle does not take for functional. -/
theorem forgotten_of_omits (hother : x.id ≠ (c.service n).home.id)
    (homits : (c.service n).partition.Omits x) (hstatus : c.oracle.isFunctional x = false) :
    Forgotten n x c where
  served m g t ht a ha := by
    rw [← Outcome.located.inj ht] at ha
    exact homits.lookup ha
  called g hop hverdict t ht a ha := by
    have hpartition : (((c.engage n).accepted n (.lookup g) hop).service n).partition =
        (c.service n).partition := by
      rw [accepted, service_adjust]
      split
      · exact Service.partition_accept _ _ _ _
      · rfl
    rw [call, perform_eq, run_attended] at ht
    dsimp only [handle] at ht
    have hengaged : ((c.engage n).service n).verdict (c.engage n).oracle (.lookup g) hop = .serve :=
      hverdict
    rw [run_handleAction, hengaged] at ht
    rw [← Outcome.located.inj (Except.ok.inj ht)] at ha
    rw [← hpartition] at homits
    exact homits.lookup ha
  lookedUp g t ht a ha hid := by
    rcases Service.localLookup_cases ht ha with htrusted | ⟨r, hr, rfl⟩
    · rcases htrusted with hhome | hfunctional
      · exact hother (hid.symm.trans hhome)
      · have hsame : c.oracle.isFunctional a.silo = c.oracle.isFunctional x := by
          rw [Oracle.isFunctional, Oracle.isFunctional, Oracle.status, Oracle.status, hid]
        exact Bool.false_ne_true (hstatus.symm.trans (hsame.symm.trans hfunctional))
    · exact homits _ r hr hid

end Cluster

/-! ## Histories -/

namespace Scene

/-- Whether nothing that is asked for in a beat, by a command that begins or goes on, is registered on a
silo at a service. -/
def DeclinesIn (s : Scene) (n : ServiceId) (x : Silo) (beat : Beat) : Prop :=
  ∀ command ∈ s.carried? beat, command.Settles x →
    ∀ id r, ((s.next beat).service n).partition.registration? id = some r →
      r.address.silo.id = x.id → (s.service n).partition.registration? id = some r

/-- Whether that is so in the course of some beats. -/
def Declines (n : ServiceId) (x : Silo) : Scene → List Beat → Prop
  | _, [] => True
  | s, beat :: rest => s.DeclinesIn n x beat ∧ Declines n x (s.next beat) rest

variable {n : ServiceId} {x : Silo} {s : Scene}

/-- What is served for a command leaves nothing registered on a silo, unless the command asks for it. -/
theorem omits_of_servesAll {command : Command} {t t' : Stock}
    (hserves : Stock.ServesAll command.Asks t t') (homits : t.partition.Omits x)
    (hdeclines : command.Settles x → ∀ id r, t'.partition.registration? id = some r →
      r.address.silo.id = x.id → t.partition.registration? id = some r) :
    t'.partition.Omits x := by
  intro id r hr hid
  rcases hserves.registration?_cases hr with hold | ⟨⟨previous, hasks⟩, -⟩
  · exact homits id r hold hid
  · exact homits id r (hdeclines ⟨r.address, previous, hasks, hid⟩ id r hr hid) hid

/-- No beat has a silo registered that is not registered. -/
theorem omits_next (hstaged : Staged n s) {beat : Beat} (hdeclines : s.DeclinesIn n x beat)
    (homits : (s.service n).partition.Omits x) : ((s.next beat).service n).partition.Omits x := by
  cases (hstaged.next beat).2 with
  | idle h =>
    rw [h]
    exact homits
  | @begun command moment h =>
    cases h with
    | served h => exact omits_of_servesAll h homits (hdeclines command rfl)
    | reshaped h => exact homits.of_within h.within
  | @resumed index moment task htask h =>
    have hcarried : s.carried? (.resumes index moment) = some task.command := by
      rw [carried?, htask]
      rfl
    exact omits_of_servesAll h homits (hdeclines task.command hcarried)

theorem omits_after (hstaged : Staged n s) {beats : List Beat} (hdeclines : Declines n x s beats)
    (homits : (s.service n).partition.Omits x) : ((s.after beats).service n).partition.Omits x := by
  induction beats generalizing s with
  | nil => exact homits
  | cons beat rest ih =>
    exact ih (hstaged.next beat).1 hdeclines.2 (omits_next hstaged hdeclines.1 homits)

/-- The own silo of a service is what it was built for. -/
theorem home_after (hstaged : Staged n s) (beats : List Beat) :
    ((s.after beats).service n).home = (s.service n).home := by
  induction beats generalizing s with
  | nil => rfl
  | cons beat rest ih =>
    refine (ih (hstaged.next beat).1).trans ?_
    cases (hstaged.next beat).2 with
    | idle h => rw [h]
    | begun h =>
      cases h with
      | served h => exact congrArg Resolver.home h.resolver_eq
      | reshaped h => exact h.home
    | resumed _ h => exact congrArg Resolver.home h.resolver_eq

/-- Whatever has been asked and reported before: once a service has followed the departure of another
silo, and found the silo on its ring or nothing registered on it, no lookup that the service answers on
its own names the silo, whatever is asked and reported then, as long as nothing is registered on the
silo and the oracle does not take it for functional. -/
theorem forgotten_after_departure {c : Cluster} {past future : List Beat} {command : Command}
    {moment : Nat} {e : StatusEvent} (hn : n < c.services.length)
    (hhandles : Cluster.Handles n (c.scene.after past).cluster command e)
    (hleave : e.isLeave = true)
    (hother : e.silo.id ≠ ((c.scene.after past).service n).home.id)
    (hfound : ((c.scene.after past).service n).ring.contains e.silo = true ∨
      ((c.scene.after past).service n).partition.Omits e.silo)
    (hdeclines : Declines n e.silo ((c.scene.after past).next (.begins command moment)) future)
    (hstatus : (((c.scene.after past).next (.begins command moment)).after
      future).cluster.oracle.isFunctional e.silo = false) :
    Cluster.Forgotten n e.silo
      (((c.scene.after past).next (.begins command moment)).after future).cluster := by
  have hbefore := (staged_of_present hn).after past
  have hstaged := (hbefore.next (.begins command moment)).1
  generalize c.scene.after past = s at *
  have hservice : (s.next (.begins command moment)).service n =
      (s.service n).follow s.cluster.clock e := by
    show (Progress.advance moment command.perform s.cluster).2.service n = _
    rw [Cluster.advance_perform hhandles.not_converses]
    exact hhandles.service_eq hbefore.present
  have homits : ((s.next (.begins command moment)).service n).partition.Omits e.silo :=
    hservice ▸ Service.omits_follow hother hleave hfound _
  have hhome : ((s.next (.begins command moment)).service n).home = (s.service n).home :=
    home_after hbefore [.begins command moment]
  refine Cluster.forgotten_of_omits ?_ (omits_after hstaged hdeclines homits) hstatus
  exact fun hid => hother (hid.trans (congrArg Silo.id ((home_after hstaged future).trans hhome)))

/-- The silo of a service, and one that dies. -/
def survivingSilo : Silo := ⟨⟨.v4 1 1, 1⟩, 10⟩

def dyingSilo : Silo := ⟨⟨.v4 1 2, 1⟩, 50⟩

/-- The service of the surviving silo, as it is built. -/
def survivor : Cluster :=
  match ({} : Cluster).install { label := "a", home := survivingSilo } with
  | .ok c => c
  | .error _ => {}

/-- An activation on the dying silo, of a grain that the other one owns. -/
def activationOnDying : GrainAddress := ⟨⟨⟨⟨"user"⟩, "k"⟩, 60⟩, ⟨1⟩, dyingSilo⟩

/-- The dying silo joins, the activation on it is registered, and it is reported dead. -/
def registeredThenDead : List Beat :=
  [.begins (.start 0) 0, .begins (.report dyingSilo .active) 0, .begins (.deliver 0) 0,
    .begins (.call 0 (.single (.register activationOnDying none) 0)) 0, .begins (.report dyingSilo .dead) 0]

/-- The activation is registered again, on the surviving silo, and asked for. -/
def reregistered : List Beat :=
  [.begins (.call 0 (.single (.register { activationOnDying with silo := survivingSilo } none) 0)) 0,
    .begins (.call 0 (.single (.lookup activationOnDying.grain) 0)) 0]

theorem declines_reregistered : Declines 0 dyingSilo
    ((survivor.scene.after registeredThenDead).next (.begins (.deliver 0) 0)) reregistered := by
  have hsurviving (command : Command) (hactions : ∀ action ∈ command.actions, ∀ address previous,
      action = .register address previous → address = { activationOnDying with silo := survivingSilo }) :
      ¬ command.Settles dyingSilo := by
    rintro ⟨address, previous, ⟨asked, hmem, hasked⟩, hid⟩
    cases asked with
    | register stored former =>
      obtain rfl := hactions _ hmem stored former rfl
      rcases hasked with heq | heq <;>
      · cases heq
        revert hid
        decide
    | _ => rcases hasked with heq | heq <;> cases heq
  refine ⟨fun command hcommand hsettles => absurd hsettles ?_,
    fun command hcommand hsettles => absurd hsettles ?_, trivial⟩
  · cases hcommand
    refine hsurviving _ fun action haction address previous heq => ?_
    rw [List.mem_singleton.mp haction] at heq
    cases heq
    rfl
  · cases hcommand
    refine hsurviving _ fun action haction address previous heq => ?_
    rw [List.mem_singleton.mp haction] at heq
    cases heq

theorem forgotten_after_departure_registeredThenDead :
    0 < survivor.services.length ∧
      Cluster.Handles 0 (survivor.scene.after registeredThenDead).cluster (.deliver 0) ⟨dyingSilo, .dead⟩ ∧
      ((survivor.scene.after registeredThenDead).service 0).partition.registration?
        activationOnDying.grain.id = some ⟨activationOnDying, 1, 0⟩ ∧
      Cluster.Forgotten 0 dyingSilo
        (((survivor.scene.after registeredThenDead).next (.begins (.deliver 0) 0)).after
          reregistered).cluster := by
  have hhandles : Cluster.Handles 0 (survivor.scene.after registeredThenDead).cluster (.deliver 0)
      ⟨dyingSilo, .dead⟩ := .inr ⟨rfl, 1, _, by decide, rfl⟩
  exact ⟨by decide, hhandles, by decide,
    forgotten_after_departure (by decide) hhandles rfl (by decide) (.inl (by decide))
      declines_reregistered (by decide)⟩

/-- The dying silo is reported to be shutting down first, and the activation on it is registered before it is
reported dead. -/
def registeredWhileLeaving : List Beat :=
  [.begins (.start 0) 0, .begins (.report dyingSilo .active) 0, .begins (.deliver 0) 0,
    .begins (.report dyingSilo .shuttingDown) 0, .begins (.deliver 0) 0,
    .begins (.call 0 (.single (.register activationOnDying none) 0)) 0, .begins (.report dyingSilo .dead) 0]

/-- What was registered on a silo after it had left the ring is still found after the silo is dead. -/
theorem exists_registration_of_dead :
    ¬ ∀ (c : Cluster) (n : ServiceId) (past future : List Beat) (moment : Nat) (e : StatusEvent),
      n < c.services.length → ((c.scene.after past).service n).running = true →
        Cluster.Handles n (c.scene.after past).cluster (.deliver n) e → e.status = .dead →
          e.silo.id ≠ ((c.scene.after past).service n).home.id →
            Declines n e.silo ((c.scene.after past).next (.begins (.deliver n) moment)) future →
              (((c.scene.after past).next (.begins (.deliver n) moment)).after
                future).cluster.oracle.status e.silo = .dead →
                Cluster.Forgotten n e.silo
                  (((c.scene.after past).next (.begins (.deliver n) moment)).after future).cluster := by
  intro h
  have hforgotten := h survivor 0 registeredWhileLeaving [] 0 ⟨dyingSilo, .dead⟩ (by decide) (by decide)
    (.inr ⟨rfl, 1, _, by decide, rfl⟩) rfl (by decide) trivial (by decide)
  have hanswer := hforgotten.lookedUp activationOnDying.grain (.found activationOnDying 1) (by decide)
  exact hanswer activationOnDying rfl rfl

end Scene

end GrainDirectory

import GrainDirectory.Activity.Schedule
import GrainDirectory.Proofs.StableCluster
set_option autoImplicit false

/-!
# Activities that do not wait

A prompt activity ends in the moment in which it begins, so nobody else acts meanwhile: in a schedule it
does what it does when it is carried out alone (`Activity.Prompt.advance`).

In a cluster that has settled every action of a client on an ordinary grain is prompt
(`Cluster.Stable.prompt_call`).  Services wait only where they are about to forward once more what has
been forwarded to them, and there the first to be asked forwards to the site at most.
-/

namespace GrainDirectory

namespace Activity

variable {σ α β : Type}

/-- Whether an activity that is carried out from a state comes to its end without a pause or a fork. -/
def Prompt : {α : Type} → Activity σ α → σ → Prop
  | _, .done _, _ => True
  | _, .read next, s => (next s).Prompt s
  | _, .write s next, _ => next.Prompt s
  | _, .pause _ _, _ => False
  | _, .remark _ next, s => next.Prompt s
  | _, .fork _ _ _, _ => False

theorem prompt_pure (a : α) (s : σ) : (pure a : Activity σ α).Prompt s := trivial

theorem prompt_look (s : σ) : (look : Activity σ σ).Prompt s := trivial

theorem prompt_update (f : σ → σ) (s : σ) : (update f).Prompt s := trivial

theorem prompt_act (f : σ → α × σ) (s : σ) : (act f).Prompt s := trivial

theorem Prompt.bind {p : Activity σ α} {k : α → Activity σ β} {s : σ} (h : p.Prompt s)
    (hk : (k (p.run s).1).Prompt (p.run s).2) : (p >>= k).Prompt s := by
  show (p.bind k).Prompt s
  induction p generalizing s with
  | done a => exact hk
  | read next ih => exact ih s h hk
  | write s' next ih => exact ih h hk
  | pause time next ih => exact h.elim
  | remark mishap next ih => exact ih h hk
  | fork count branch join _ ih => exact h.elim

/-- A prompt activity is carried out in one go. -/
theorem Prompt.advance {p : Activity σ α} {s : σ} (h : p.Prompt s) (now : Nat) :
    Progress.advance now p s = (.ended (p.run s).1, (p.run s).2) := by
  induction p generalizing s with
  | done a => rfl
  | read next ih => exact ih s h
  | write s' next ih => exact ih h
  | pause time next ih => exact h.elim
  | remark mishap next ih => exact ih h
  | fork count branch join _ ih => exact h.elim

end Activity

namespace Cluster

variable {α : Type} {c : Cluster} {i : ServiceId} {action : Action} {hop : UInt32} {ways : Ways}

theorem prompt_attended {p : Activity Cluster α} (h : p.Prompt (c.engage i)) :
    (attended i p).Prompt c :=
  (Activity.prompt_update _ c).bind (h.bind ((Activity.prompt_update _ _).bind (Activity.prompt_pure _ _)))

/-- It takes no time to find out where an action goes that is served, or that comes from a client. -/
theorem prompt_resolve (h : hop = 0 ∨ (c.service i).Answers action.grain) :
    (resolve i action hop).Prompt c := by
  refine Activity.Prompt.bind (Activity.prompt_look c) ?_
  split
  · rename_i owner hcheck
    rcases h with hhop | ⟨target, howner, hid⟩
    · rw [if_pos hhop]
      exact Activity.prompt_pure _ c
    · cases (Service.serve_of_owner _ hop howner hid).symm.trans hcheck
  · exact Activity.prompt_pure _ c

section Handling

variable {ways : Ways}

/-- Where an action goes that a service has just accepted. -/
theorem run_resolve_accepted (i : ServiceId) (action : Action) (hop : UInt32) (c : Cluster) :
    (resolve i action hop).run ((revise i fun s m => s.accept m action hop).run c).2 =
      ((c.service i).resolver.checkForward action.grain hop action.operation.name,
        c.accepted i action hop) := by
  rw [← resolver_eq_of_outline (outline_accepted (c := c) (i := i) action hop) i, run_resolve]
  rfl

/-- A service that answers for a grain serves at once what it is asked about it. -/
theorem prompt_handleAction_of_answers (h : (c.service i).Answers action.grain) :
    (handleAction ways i action hop).Prompt c := by
  have hview := resolver_eq_of_outline (outline_accepted (c := c) (i := i) action hop) i
  have hanswers := (Service.answers_iff_of_resolver hview action.grain).mpr h
  obtain ⟨target, howner, hid⟩ := h
  refine Activity.Prompt.bind (Activity.prompt_update _ c) ?_
  refine Activity.Prompt.bind (prompt_resolve (.inr hanswers)) ?_
  rw [run_resolve_accepted, Service.serve_of_owner _ hop howner hid]
  exact Activity.Prompt.bind (Activity.prompt_act _ _) (Activity.prompt_pure _ _)

/-- To forward an action takes no time if whoever is reached takes none. -/
theorem prompt_forward {owner : Silo}
    (hpeer : ∀ peer c', c'.outline = c.outline → ways c' owner = .ok peer →
      (peer (.single action (hop + 1))).Prompt c') :
    (forward ways i action hop owner).Prompt c := by
  refine Activity.Prompt.bind (Activity.prompt_act _ _) ?_
  rw [run_change]
  cases hdispatch : (c.service i).dispatch c.moment action owner with
  | error e => exact Activity.prompt_pure _ _
  | ok t =>
    refine Activity.Prompt.bind (Activity.prompt_look _) ?_
    have hkeep : (c.adjust i fun _ => t).outline = c.outline :=
      outline_adjust (Service.outline_dispatch hdispatch)
    rw [Activity.run_look]
    dsimp only
    split
    · exact Activity.prompt_pure _ _
    · rename_i peer hway
      exact Activity.Prompt.bind (hpeer peer _ hkeep hway)
        (Activity.Prompt.bind (Activity.prompt_update _ _) (Activity.prompt_pure _ _))

/-- Nor does it take time to handle an action of a client then. -/
theorem prompt_handleAction
    (hpeer : ∀ owner peer c', c'.outline = c.outline →
      (c.service i).resolver.checkForward action.grain 0 action.operation.name = .ok (some owner) →
      ways c' owner = .ok peer → (peer (.single action 1)).Prompt c') :
    (handleAction ways i action 0).Prompt c := by
  refine Activity.Prompt.bind (Activity.prompt_update _ c) ?_
  refine Activity.Prompt.bind (prompt_resolve (.inl rfl)) ?_
  rw [run_resolve_accepted]
  dsimp only
  split
  · exact Activity.prompt_pure _ _
  · exact Activity.Prompt.bind (Activity.prompt_act _ _) (Activity.prompt_pure _ _)
  · rename_i owner hcheck
    exact prompt_forward fun peer c' hkeep => hpeer owner peer c' (hkeep.trans (outline_accepted action 0))
      hcheck

end Handling

/-! ## Settled clusters -/

namespace Stable

variable {ring : Ring} (h : Stable c ring)

include h

theorem engage (hi : i < c.services.length) : Stable (c.engage i) ring where
  direct := h.direct
  shared := h.shared
  members := h.members
  running := h.running
  attached := fun j hj => ((h.agrees_engage hi).reach _).trans (h.attached j hj)
  active := h.active
  valid := h.valid

variable (hordinary : action.grain.isSystemTarget = false)

include hordinary

/-- What reaches the site of a grain is served at once. -/
theorem prompt_perform_site (hn : 0 < c.services.length) (forwards : Nat) (hop : UInt32) :
    (perform forwards (c.site ring action.grain.position) (.single action hop)).Prompt c := by
  have hanswers : (c.service (c.site ring action.grain.position)).Answers action.grain :=
    Service.serve_iff_answers.mp (h.verdict_site hn hordinary hop)
  rw [perform_eq]
  exact prompt_attended (prompt_handleAction_of_answers hanswers)

/-- Whoever is sent what is asked about a grain is its site. -/
theorem prompt_waysOf (hi : i < c.services.length) (forwards : Nat) {owner : Silo} {peer : Peer}
    (howner : (c.service i).resolver.owner? action.grain = .ok (some owner))
    (hway : waysOf forwards c owner = .ok peer) (hop : UInt32) :
    (peer (.single action hop)).Prompt c := by
  have hn : 0 < c.services.length := Nat.zero_lt_of_lt hi
  obtain ⟨hsite, -⟩ := h.owner?_eq hn action.grain.position
  cases (h.resolver_owner? hi hordinary).symm.trans howner
  have hreach := h.attached _ hsite
  cases forwards with
  | zero => cases hway
  | succ forwards =>
    rw [waysOf, ways, hreach] at hway
    split at hway
    · rename_i hframed
      exact absurd hframed h.direct
    · rw [← Except.ok.inj hway]
      have hlogged := h.of_outline
        (outline_log c (c.service (c.site ring action.grain.position)).home (.single action hop))
      exact Activity.Prompt.bind (Activity.prompt_update _ c)
        (hlogged.prompt_perform_site hordinary hn forwards hop)
    · rw [← Except.ok.inj hway]
      exact h.prompt_perform_site hordinary hn forwards hop

/-- Whoever asks about an ordinary grain in a settled cluster does not wait, and nobody acts between the
question and the answer. -/
theorem prompt_call (hi : i < c.services.length) : (call i (.single action 0)).Prompt c := by
  rw [call, perform_eq]
  refine prompt_attended (prompt_handleAction fun owner peer c' hkeep hcheck hway => ?_)
  have hstable := (h.engage hi).of_outline hkeep
  have hi' : i < c'.services.length := by
    rw [length_eq_of_outline hkeep]
    exact hi
  refine hstable.prompt_waysOf hordinary hi' maxForwards ?_ hway 1
  rw [resolver_eq_of_outline hkeep]
  exact (Service.owner_of_checkForward hcheck).1

end Stable

end Cluster

end GrainDirectory

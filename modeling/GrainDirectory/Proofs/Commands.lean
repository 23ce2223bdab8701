import GrainDirectory.Cluster.Command
import GrainDirectory.Proofs.Outline
set_option autoImplicit false

/-!
# How commands are carried out

What a command leaves behind is what its steps leave behind; its answer does not matter to the cluster.
Whatever ends as a call at a service keeps the outline of the cluster, as the call does.
-/

namespace GrainDirectory

namespace Command

theorem run_replied (p : Activity Cluster Reply) (c : Cluster) :
    (replied p).run c = (((p.run c).1).map .outcome, (p.run c).2) := by
  rw [replied, Activity.run_bind, Activity.run_pure]

theorem run_flagged (i : ServiceId) (f : Service → Moment → Bool × Service) (c : Cluster) :
    (flagged i f).run c =
      (.ok (.flag (f (c.service i) c.moment).1),
        c.adjust i fun _ => (f (c.service i) c.moment).2) := by
  rw [flagged, Activity.run_bind, Cluster.run_change, Activity.run_pure]

end Command

namespace Cluster

/-- A run goes on where the commands before have led. -/
theorem afterAll_concat (c : Cluster) (commands : List Command) (command : Command) :
    c.afterAll (commands ++ [command]) = (command.perform.run (c.afterAll commands)).2 := by
  induction commands generalizing c with
  | nil => rfl
  | cons first rest ih => exact ih _

/-- The services of a cluster with one more. -/
theorem service_append (c : Cluster) (s : Service) (j : ServiceId) :
    ({ c with services := c.services ++ [s] } : Cluster).service j =
      if j = c.services.length then s else c.service j := by
  simp only [service, List.getD_eq_getElem?_getD]
  rcases Nat.lt_trichotomy j c.services.length with hj | rfl | hj
  · rw [List.getElem?_append_left hj, if_neg (Nat.ne_of_lt hj)]
  · rw [List.getElem?_concat_length, if_pos rfl]
    rfl
  · have hall : c.services.length ≤ j := Nat.le_of_lt hj
    have hall' : (c.services ++ [s]).length ≤ j := by
      rw [List.length_append]
      exact hj
    rw [List.getElem?_eq_none hall, List.getElem?_eq_none hall', if_neg (Nat.ne_of_gt hj)]

/-! ## Requests of clients -/

theorem keeps_serve (i : ServiceId) (frame : Bytes) : (serve i frame).Keeps outline :=
  keeps_serveFrame (fun j request => keeps_perform maxForwards j request) i frame

theorem keeps_unregisterNonexistent (i : ServiceId) (address : GrainAddress)
    (origin : Option Silo) : (unregisterNonexistent i address origin).Keeps outline := by
  have hcall (request : Request) : (call i request).Keeps outline :=
    keeps_perform maxForwards i request
  refine keeps_attended ((Activity.keeps_look outline).bind fun c => ?_)
  split
  · exact hcall _
  · split
    · exact hcall _
    · split
      · exact Activity.keeps_pure outline _
      · rename_i peer hpeer
        exact waysKeep_ways (fun j request => keeps_perform maxForwards j request) _ _ peer hpeer _

theorem run_lookForMember (i : ServiceId) (silo : Silo) (interval looks : Nat) (c : Cluster) :
    (lookForMember i silo interval looks).run c =
      (decide (0 < looks) && (c.service i).resolver.isMember silo, c) := by
  induction looks with
  | zero => rfl
  | succ looks ih =>
    show Activity.run (if _ then _ else _) c = _
    cases hmember : (c.service i).resolver.isMember silo with
    | true => rfl
    | false =>
      show (lookForMember i silo interval looks).run c = _
      rw [ih, hmember, Bool.and_false, Bool.and_false]

/-- Whoever waits for a silo at most lets time pass. -/
theorem exists_elapse_awaitMember (i : ServiceId) (silo : Silo) (patience looks interval : Nat)
    (c : Cluster) :
    ∃ time, ((awaitMember i silo patience looks interval).run c).2 = c.elapse time := by
  unfold awaitMember
  rw [run_attended, Activity.run_bind, run_lookForMember]
  dsimp only
  split
  · exact ⟨0, disengage_engage c i⟩
  · exact ⟨patience * millisecond, congrArg (elapse · _) (disengage_engage c i)⟩

end Cluster

end GrainDirectory

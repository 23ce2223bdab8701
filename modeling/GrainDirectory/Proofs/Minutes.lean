import GrainDirectory.Proofs.Annotation
import GrainDirectory.Proofs.Scenes
set_option autoImplicit false

/-!
# Minutes of what befalls calls

Two things that befall a call on its way leave no trace in a cluster: that a service cannot resolve an
owner, and that there is no way to the owner.  The minutes of a scene tell them.  In every beat whoever acts
is watched, and does what he does in the scene (`Scene.advance_watched`, `Scene.resume_watched`);
`Scene.mishaps` are what the minutes say in the end.
-/

namespace GrainDirectory

/-- A cluster, and the minutes of what has befallen calls. -/
abbrev Minuted := Cluster × List Mishap

namespace Scene

/-- The minutes of a scene after a beat. -/
def minutes (s : Scene) (taken : List Mishap) : Beat → List Mishap
  | .begins command moment =>
    (Progress.advance moment command.perform.withNotes (s.cluster, taken)).2.2
  | .resumes index moment =>
    match s.tasks[index]? with
    | none => taken
    | some task => (task.progress.withNotes.resume moment (s.cluster, taken)).2.2

/-- A command that begins under watch begins as it does in the scene. -/
theorem advance_watched (s : Scene) (taken : List Mishap) (command : Command) (moment : Nat) :
    Progress.advance moment command.perform.withNotes (s.cluster, taken) =
      ((Progress.advance moment command.perform s.cluster).1.withNotes,
        (s.next (.begins command moment)).cluster, s.minutes taken (.begins command moment)) := by
  obtain ⟨hcluster, hprogress⟩ := Progress.sameWay_advance moment command.perform (s.cluster, taken)
  exact Prod.ext hprogress (Prod.ext hcluster rfl)

/-- A command that goes on under watch goes on as it does in the scene. -/
theorem resume_watched {s : Scene} {index : Nat} {task : Task} (h : s.tasks[index]? = some task)
    (taken : List Mishap) (moment : Nat) :
    task.progress.withNotes.resume moment (s.cluster, taken) =
      ((task.progress.resume moment s.cluster).1.withNotes,
        (s.next (.resumes index moment)).cluster, s.minutes taken (.resumes index moment)) := by
  obtain ⟨hcluster, hprogress⟩ := Progress.sameWay_resume moment task.progress (s.cluster, taken)
  rw [next_resumes_of_some h, minutes, h]
  exact Prod.ext hprogress (Prod.ext hcluster rfl)

/-- The minutes of a scene after some beats. -/
def minutesAfter (s : Scene) (taken : List Mishap) : List Beat → List Mishap
  | [] => taken
  | beat :: rest => (s.next beat).minutesAfter (s.minutes taken beat) rest

theorem minutesAfter_concat (s : Scene) (taken : List Mishap) (beats : List Beat) (beat : Beat) :
    s.minutesAfter taken (beats ++ [beat]) =
      (s.after beats).minutes (s.minutesAfter taken beats) beat := by
  induction beats generalizing s taken with
  | nil => rfl
  | cons first rest ih => exact ih (s.next first) (s.minutes taken first)

/-- What befalls calls in a scene that begins with a cluster, in the course of some beats. -/
def mishaps (c : Cluster) (beats : List Beat) : List Mishap := c.scene.minutesAfter [] beats

end Scene

end GrainDirectory

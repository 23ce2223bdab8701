import GrainDirectory.Proofs.Turns
set_option autoImplicit false

/-!
# Commands side by side

A scene is a cluster with the commands that have been begun in it.  In every beat of a scene a command
begins, or one goes on that has been waiting; it acts until it waits again or ends, and in between any
other may act.  So a call that waits to resolve an owner again may find another ring than it left.

Whatever the beats are, each of them takes a turn with every service that is there (`Staged.next`).
-/

namespace GrainDirectory

/-- A command that has been begun, and how far it has come. -/
structure Task where
  command : Command
  progress : Progress Cluster (Except Error Answer)

/-- A cluster and the commands that have been begun in it, oldest first. -/
structure Scene where
  cluster : Cluster
  tasks : List Task := []

/-- A cluster in which nothing has been begun. -/
abbrev Cluster.scene (c : Cluster) : Scene := ⟨c, []⟩

/-- What happens next in a scene, and at what moment, in milliseconds. -/
inductive Beat where
  | begins (command : Command) (moment : Nat)
  /-- A command goes on that was begun earlier, unless it has ended or waits for a later moment. -/
  | resumes (index : Nat) (moment : Nat)

namespace Scene

/-- The command that is carried on in a beat. -/
def carried? (s : Scene) : Beat → Option Command
  | .begins command _ => some command
  | .resumes index _ => (s.tasks[index]?).map (·.command)

/-- A scene after a beat. -/
def next (s : Scene) : Beat → Scene
  | .begins command moment =>
    let r := Progress.advance moment command.perform s.cluster
    ⟨r.2, s.tasks ++ [⟨command, r.1⟩]⟩
  | .resumes index moment =>
    match s.tasks[index]? with
    | none => s
    | some task =>
      let r := task.progress.resume moment s.cluster
      ⟨r.2, s.tasks.set index ⟨task.command, r.1⟩⟩

theorem next_resumes_of_none {s : Scene} {index : Nat} (h : s.tasks[index]? = none) (moment : Nat) :
    s.next (.resumes index moment) = s := by
  show (match s.tasks[index]? with | none => s | some _ => _) = s
  rw [h]

theorem next_resumes_of_some {s : Scene} {index : Nat} {task : Task}
    (h : s.tasks[index]? = some task) (moment : Nat) :
    s.next (.resumes index moment) =
      ⟨(task.progress.resume moment s.cluster).2,
        s.tasks.set index ⟨task.command, (task.progress.resume moment s.cluster).1⟩⟩ := by
  show (match s.tasks[index]? with | none => s | some task => _) = _
  rw [h]

/-- A scene after some beats. -/
def after (s : Scene) (beats : List Beat) : Scene := beats.foldl next s

theorem after_concat (s : Scene) (beats : List Beat) (beat : Beat) :
    s.after (beats ++ [beat]) = (s.after beats).next beat := by
  rw [after, List.foldl_append]
  rfl

/-- A service of a scene. -/
abbrev service (s : Scene) (n : ServiceId) : Service := s.cluster.service n

/-- Whether a service is there, and the commands that have been begun serve what they ask for when they
go on. -/
structure Staged (n : ServiceId) (s : Scene) : Prop where
  present : n < s.cluster.services.length
  heeds : ∀ task ∈ s.tasks, task.progress.Heeds (Cluster.Serving task.command.Asks n)

variable {n : ServiceId} {s : Scene}

theorem staged_of_present {c : Cluster} (h : n < c.services.length) : Staged n c.scene :=
  ⟨h, fun _ htask => nomatch htask⟩

/-- What a beat is to a service. -/
inductive Turns (n : ServiceId) (s : Scene) : Beat → Prop
  /-- Nothing, as there is nothing to go on. -/
  | idle {beat : Beat} (h : s.next beat = s) : Turns n s beat
  /-- The turn of a command that begins. -/
  | begun {command : Command} {moment : Nat}
      (h : Turn n command (s.service n).stock ((s.next (.begins command moment)).service n).stock) :
      Turns n s (.begins command moment)
  /-- The service serves what a command asks for that goes on. -/
  | resumed {index moment : Nat} {task : Task} (htask : s.tasks[index]? = some task)
      (h : Stock.ServesAll task.command.Asks (s.service n).stock
        ((s.next (.resumes index moment)).service n).stock) : Turns n s (.resumes index moment)

namespace Staged

theorem next (h : Staged n s) (beat : Beat) : Staged n (s.next beat) ∧ s.Turns n beat := by
  cases beat with
  | begins command moment =>
    have hstep : n < (Progress.advance moment command.perform s.cluster).2.services.length ∧
        Turn n command (s.service n).stock
          ((Progress.advance moment command.perform s.cluster).2.service n).stock ∧
        (Progress.advance moment command.perform s.cluster).1.Heeds
          (Cluster.Serving command.Asks n) := by
      by_cases hconverses : command.Converses
      · obtain ⟨hserving, hheeds⟩ :=
          (Cluster.obeys_perform (n := n) (c := s.cluster) hconverses).advance moment
        exact ⟨hserving.length ▸ h.present, .served hserving.stock, hheeds⟩
      · rw [Cluster.advance_perform hconverses]
        obtain ⟨hpresent, hturn⟩ := Cluster.turn_perform h.present command
        exact ⟨hpresent, hturn, trivial⟩
    obtain ⟨hpresent, hturn, hheeds⟩ := hstep
    refine ⟨⟨hpresent, fun task htask => ?_⟩, .begun hturn⟩
    rcases List.mem_append.mp htask with hold | hnew
    · exact h.heeds task hold
    · rw [List.mem_singleton.mp hnew]
      exact hheeds
  | resumes index moment =>
    cases htask : s.tasks[index]? with
    | none =>
      have hidle := next_resumes_of_none htask moment
      exact ⟨hidle.symm ▸ h, .idle hidle⟩
    | some task =>
      obtain ⟨hserving, hheeds⟩ :=
        (h.heeds task (List.mem_of_getElem? htask)).resume moment s.cluster
      have hnext := next_resumes_of_some htask moment
      refine ⟨?_, .resumed htask (hnext.symm ▸ hserving.stock)⟩
      rw [hnext]
      refine ⟨hserving.length ▸ h.present, fun other hother => ?_⟩
      rcases List.mem_or_eq_of_mem_set hother with hold | rfl
      · exact h.heeds other hold
      · exact hheeds

theorem after (h : Staged n s) (beats : List Beat) : Staged n (s.after beats) := by
  induction beats generalizing s with
  | nil => exact h
  | cons beat rest ih => exact ih (h.next beat).1

end Staged

end Scene

end GrainDirectory

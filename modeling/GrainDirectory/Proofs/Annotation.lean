import Mathlib.Data.List.FinRange
import GrainDirectory.Activity.Schedule
set_option autoImplicit false

/-!
# Activities that are watched

What an activity remarks upon leaves no trace in the state.  Whoever watches it takes notes beside the state
(`Activity.withNotes`).

Notes change nothing.  An activity that is watched goes the same way as it goes anyhow, whoever acts
meanwhile and whatever is in the notes (`Progress.sameWay_advance`, `Progress.sameWay_resume`).
-/

namespace GrainDirectory

namespace Activity

variable {σ α β : Type}

/-- The same with notes beside the state, of all that it remarks upon. -/
def withNotes : {α : Type} → Activity σ α → Activity (σ × List Mishap) α
  | _, .done a => .done a
  | _, .read next => .read fun s => (next s.1).withNotes
  | _, .write s next => .read fun t => .write (s, t.2) next.withNotes
  | _, .pause time next => .pause time next.withNotes
  | _, .remark mishap next => .read fun s => .write (s.1, s.2 ++ [mishap]) next.withNotes
  | _, .fork count branch join =>
    .fork count (fun i => (branch i).withNotes) fun answers => (join answers).withNotes

theorem withNotes_bind (p : Activity σ α) (f : α → Activity σ β) :
    (p >>= f).withNotes = p.withNotes >>= fun a => (f a).withNotes := by
  show (p.bind f).withNotes = p.withNotes.bind _
  induction p with
  | done a => rfl
  | read next ih => exact congrArg Activity.read (funext fun s => ih s.1 f)
  | write s next ih =>
    exact congrArg Activity.read (funext fun t => congrArg (Activity.write (s, t.2)) (ih f))
  | pause time next ih => exact congrArg (Activity.pause time) (ih f)
  | remark mishap next ih =>
    exact congrArg Activity.read (funext fun s => congrArg (Activity.write (s.1, s.2 ++ [mishap])) (ih f))
  | fork count branch join _ ih =>
    exact congrArg (Activity.fork count _) (funext fun answers => ih answers f)

end Activity

namespace Progress

variable {σ α β : Type}

/-- How far an activity has come that is watched. -/
def withNotes : {α : Type} → Progress σ α → Progress (σ × List Mishap) α
  | _, .ended a => .ended a
  | _, .waiting moment next => .waiting moment next.withNotes
  | _, .joining count branch join =>
    .joining count (fun i => (branch i).withNotes) fun answers => (join answers).withNotes

theorem answer?_withNotes (p : Progress σ α) : p.withNotes.answer? = p.answer? := by
  cases p <;> rfl

theorem answers?_withNotes (ps : List (Progress σ α)) : answers? (ps.map withNotes) = answers? ps := by
  induction ps with
  | nil => rfl
  | cons p rest ih => rw [List.map_cons, answers?, answers?, answer?_withNotes, ih]

theorem joining_congr {m n : Nat} {branch : Fin m → Progress σ β} {branch' : Fin n → Progress σ β}
    (hcount : m = n) (hbranch : ∀ i, branch i = branch' (i.cast hcount)) (join : List β → Activity σ α) :
    joining m branch join = joining n branch' join := by
  subst hcount
  rw [funext hbranch]
  rfl

theorem withNotes_joining (ps : List (Progress σ β)) (join : List β → Activity σ α) :
    (joining ps.length ps.get join).withNotes =
      joining (ps.map withNotes).length (ps.map withNotes).get fun answers => (join answers).withNotes :=
  joining_congr (by rw [List.length_map]) (fun i => by simp) _

/-! ## How activities are carried out -/

/-- Whether a change that takes notes leaves what another leaves, and comes as far. -/
def SameWay (f : σ × List Mishap → Progress (σ × List Mishap) α × (σ × List Mishap))
    (g : σ → Progress σ α × σ) : Prop :=
  ∀ s, (f s).2.1 = (g s.1).2 ∧ (f s).1 = (g s.1).1.withNotes

section Branches

variable {ι : Type} {f : ι → σ × List Mishap → Progress (σ × List Mishap) β × (σ × List Mishap)}
  {g : ι → σ → Progress σ β × σ} (h : ∀ i, SameWay (f i) (g i))

include h

theorem sequence_withNotes (is : List ι) (s : σ × List Mishap) :
    (Activity.sequence (is.map f) s).2.1 = (Activity.sequence (is.map g) s.1).2 ∧
      (Activity.sequence (is.map f) s).1 = (Activity.sequence (is.map g) s.1).1.map withNotes := by
  induction is generalizing s with
  | nil => exact ⟨rfl, rfl⟩
  | cons i rest ih =>
    obtain ⟨hstate, hprogress⟩ := h i s
    obtain ⟨hrest, hprogresses⟩ := ih (f i s).2
    rw [hstate] at hrest hprogresses
    exact ⟨hrest, congrArg₂ List.cons hprogress hprogresses⟩

/-- Branches go on together at the same point, whether they are watched or not. -/
theorem sameWay_joined {now : Nat} {join : List β → Activity σ α}
    (ih : ∀ answers, SameWay (advance now (join answers).withNotes) (advance now (join answers)))
    (is : List ι) :
    SameWay
      (fun s =>
        let r := Activity.sequence (is.map f) s
        match answers? r.1 with
        | some answers => advance now (join answers).withNotes r.2
        | none => (.joining r.1.length r.1.get fun answers => (join answers).withNotes, r.2))
      (fun s =>
        let r := Activity.sequence (is.map g) s
        match answers? r.1 with
        | some answers => advance now (join answers) r.2
        | none => (.joining r.1.length r.1.get join, r.2)) := by
  intro s
  obtain ⟨hstate, hprogresses⟩ := sequence_withNotes h is s
  dsimp only
  rw [hprogresses, answers?_withNotes]
  cases answers? (Activity.sequence (is.map g) s.1).1 with
  | some answers =>
    have hgo := ih answers (Activity.sequence (is.map f) s).2
    rw [hstate] at hgo
    exact hgo
  | none => exact ⟨hstate, (withNotes_joining _ _).symm⟩

end Branches

/-- Notes change nothing of what an activity does in one go. -/
theorem sameWay_advance (now : Nat) (p : Activity σ α) :
    SameWay (advance now p.withNotes) (advance now p) := by
  induction p with
  | done a => exact fun s => ⟨rfl, rfl⟩
  | read next ih => exact fun s => ih s.1 s
  | write s next ih => exact fun t => ih (s, t.2)
  | pause time next ih =>
    intro s
    rw [Activity.withNotes, advance, advance]
    split
    · exact ih s
    · exact ⟨rfl, rfl⟩
  | remark mishap next ih => exact fun s => ih (s.1, s.2 ++ [mishap])
  | fork count branch join ihbranch ih =>
    intro s
    rw [Activity.withNotes, advance, advance, List.ofFn_eq_map, List.ofFn_eq_map]
    exact sameWay_joined ihbranch ih (List.finRange count) s

/-- Notes change nothing of what an activity does when it goes on. -/
theorem sameWay_resume (now : Nat) (p : Progress σ α) :
    SameWay (p.withNotes.resume now) (p.resume now) := by
  induction p with
  | ended a => exact fun s => ⟨rfl, rfl⟩
  | waiting moment next =>
    intro s
    rw [withNotes, resume, resume]
    split
    · exact sameWay_advance now next s
    · exact ⟨rfl, rfl⟩
  | joining count branch join ih =>
    intro s
    rw [withNotes, resume, resume, List.ofFn_eq_map, List.ofFn_eq_map]
    exact sameWay_joined ih (fun answers => sameWay_advance now (join answers)) (List.finRange count) s

end Progress

end GrainDirectory

import GrainDirectory.Activity
set_option autoImplicit false

/-!
# Activities amid others

An activity that waits lets others act, and goes on in what they leave behind.  Here the others do what a
function says, each time the activity waits.  `Activity.goOn` carries an activity out as far as it acts
alone, up to the point where it sets several activities off side by side; what is left of it then is what
remains to be done, whichever way these are carried out.  `Activity.runAmid` carries it out to its end, and
`Activity.runAmid_goOn` says that the first is a part of the second.
-/

namespace GrainDirectory

namespace Activity

variable {σ α β : Type} (others : σ → σ)

/-- Carries an activity out until it ends or sets others off side by side, and answers what is left of
it.  Whenever it waits, others make of the state what they will. -/
def goOn : {α : Type} → Activity σ α → σ → Activity σ α × σ
  | _, .done a, s => (.done a, s)
  | _, .read next, s => (next s).goOn s
  | _, .write s next, _ => next.goOn s
  | _, .pause _ next, s => next.goOn (others s)
  | _, .remark _ next, s => next.goOn s
  | _, .fork count branch join, s => (.fork count branch join, s)

/-- Carries an activity out to its end, amid others. -/
def runAmid : {α : Type} → Activity σ α → σ → α × σ
  | _, .done a, s => (a, s)
  | _, .read next, s => (next s).runAmid s
  | _, .write s next, _ => next.runAmid s
  | _, .pause _ next, s => next.runAmid (others s)
  | _, .remark _ next, s => next.runAmid s
  | _, .fork _ branch join, s =>
    let r := sequence (List.ofFn fun i => (branch i).runAmid) s
    (join r.1).runAmid r.2

/-- To be carried out amid others who do nothing is to be carried out at once. -/
theorem runAmid_id (p : Activity σ α) (s : σ) : p.runAmid id s = p.run s := by
  induction p generalizing s with
  | done a => rfl
  | read next ih => exact ih s s
  | write s' next ih => exact ih s'
  | pause time next ih => exact ih s
  | remark mishap next ih => exact ih s
  | fork count branch join ihbranch ih =>
    have hbranch : (fun i => (branch i).runAmid id) = fun i => (branch i).run :=
      funext fun i => funext fun s => ihbranch i s
    simp only [runAmid, run, hbranch]
    exact ih _ _

theorem goOn_bind {p : Activity σ α} {s t : σ} {a : α} (h : p.goOn others s = (.done a, t))
    (f : α → Activity σ β) : (p >>= f).goOn others s = (f a).goOn others t := by
  show (p.bind f).goOn others s = _
  induction p generalizing s with
  | done a' =>
    cases h
    rfl
  | read next ih => exact ih s h f
  | write s' next ih => exact ih h f
  | pause time next ih => exact ih h f
  | remark mishap next ih => exact ih h f
  | fork count branch join _ _ => cases h

/-- What is left of an activity ends as the activity does. -/
theorem runAmid_goOn (p : Activity σ α) (s : σ) :
    (p.goOn others s).1.runAmid others (p.goOn others s).2 = p.runAmid others s := by
  induction p generalizing s with
  | done a => rfl
  | read next ih => exact ih s s
  | write s' next ih => exact ih s'
  | pause time next ih => exact ih (others s)
  | remark mishap next ih => exact ih s
  | fork count branch join _ _ => rfl

/-- What is left of an activity that others do nothing to ends as the activity does at once. -/
theorem run_goOn (p : Activity σ α) (s : σ) : (p.goOn id s).1.run (p.goOn id s).2 = p.run s := by
  rw [← runAmid_id, runAmid_goOn, runAmid_id]

theorem runAmid_bind (p : Activity σ α) (f : α → Activity σ β) (s : σ) :
    (p >>= f).runAmid others s =
      (f (p.runAmid others s).1).runAmid others (p.runAmid others s).2 := by
  show (p.bind f).runAmid others s = _
  induction p generalizing s with
  | done a => rfl
  | read next ih => exact ih s f s
  | write s' next ih => exact ih f s'
  | pause time next ih => exact ih f (others s)
  | remark mishap next ih => exact ih f s
  | fork count branch join _ ih => exact ih _ f _

theorem runAmid_all (branches : List (Activity σ α)) (s : σ) :
    (all branches).runAmid others s = sequence (branches.map (runAmid others)) s := by
  show sequence (List.ofFn fun i => (branches.get i).runAmid others) s = _
  congr 1
  apply List.ext_getElem <;> simp

theorem runAmid_all_cons (p : Activity σ α) (rest : List (Activity σ α)) (s : σ) :
    (all (p :: rest)).runAmid others s =
      ((p.runAmid others s).1 :: ((all rest).runAmid others (p.runAmid others s).2).1,
        ((all rest).runAmid others (p.runAmid others s).2).2) := by
  simp only [runAmid_all, List.map_cons, sequence]

end Activity

end GrainDirectory

import GrainDirectory.Mishap
set_option autoImplicit false

/-!
# Activities

An activity is a computation over a shared state that may wait for a while and may set off several
activities side by side and join their answers.  It is a value: the steps are laid out, and how time
passes between them is decided by whoever carries it out.  `Activity.run` carries it out at once,
waiting for nothing and taking side-by-side activities one after another: a pause takes no time
there.  A schedule (see `Activity/Schedule`) lets others act while it waits.

An activity may remark upon what befalls it, as a program does in its logs.  Remarks are for those who
watch it (see `Proofs/Annotation`); whoever carries it out passes them over.
-/

namespace GrainDirectory

/-- A computation over a state `σ` that ends with an answer. -/
inductive Activity (σ : Type) : Type → Type 1 where
  /-- Ends. -/
  | done {α : Type} (a : α) : Activity σ α
  /-- Goes on with what it reads. -/
  | read {α : Type} (next : σ → Activity σ α) : Activity σ α
  /-- Leaves a state behind and goes on. -/
  | write {α : Type} (s : σ) (next : Activity σ α) : Activity σ α
  /-- Waits for some nanoseconds and goes on. -/
  | pause {α : Type} (time : Nat) (next : Activity σ α) : Activity σ α
  /-- Remarks upon something that has befallen it and goes on. -/
  | remark {α : Type} (mishap : Mishap) (next : Activity σ α) : Activity σ α
  /-- Carries out side by side, and goes on with the answers. -/
  | fork {α β : Type} (count : Nat) (branch : Fin count → Activity σ β)
      (join : List β → Activity σ α) : Activity σ α

namespace Activity

universe u

variable {σ α β : Type}

/-- Goes on with what an activity answers. -/
def bind : {α : Type} → Activity σ α → (α → Activity σ β) → Activity σ β
  | _, .done a, f => f a
  | _, .read next, f => .read fun s => (next s).bind f
  | _, .write s next, f => .write s (next.bind f)
  | _, .pause time next, f => .pause time (next.bind f)
  | _, .remark mishap next, f => .remark mishap (next.bind f)
  | _, .fork count branch join, f => .fork count branch fun answers => (join answers).bind f

instance : Monad (Activity σ) where
  pure := .done
  bind := .bind

/-- Answers the state. -/
def look : Activity σ σ := .read .done

/-- Changes the state. -/
def update (f : σ → σ) : Activity σ Unit := .read fun s => .write (f s) (.done ())

/-- Changes the state and answers something about it. -/
def act (f : σ → α × σ) : Activity σ α := .read fun s => .write (f s).2 (.done (f s).1)

/-- Waits for some nanoseconds. -/
def wait (time : Nat) : Activity σ Unit := .pause time (.done ())

/-- Carries activities out side by side and answers their answers in order. -/
def all (branches : List (Activity σ α)) : Activity σ (List α) :=
  .fork branches.length branches.get .done

/-! ## Carrying out at once -/

/-- Passes a state through changes in order and collects their answers. -/
def sequence {α : Type u} : List (σ → α × σ) → σ → List α × σ
  | [], s => ([], s)
  | f :: rest, s =>
    let (a, s) := f s
    let (as, s) := sequence rest s
    (a :: as, s)

/-- Carries an activity out without letting time pass. -/
def run : {α : Type} → Activity σ α → σ → α × σ
  | _, .done a, s => (a, s)
  | _, .read next, s => (next s).run s
  | _, .write s next, _ => next.run s
  | _, .pause _ next, s => next.run s
  | _, .remark _ next, s => next.run s
  | _, .fork _ branch join, s =>
    let r := sequence (List.ofFn fun i => (branch i).run) s
    (join r.1).run r.2

@[simp] theorem run_pure (a : α) (s : σ) : (pure a : Activity σ α).run s = (a, s) := rfl

@[simp] theorem run_look (s : σ) : (look : Activity σ σ).run s = (s, s) := rfl

@[simp] theorem run_update (f : σ → σ) (s : σ) : (update f).run s = ((), f s) := rfl

@[simp] theorem run_act (f : σ → α × σ) (s : σ) : (act f).run s = f s := rfl

@[simp] theorem run_remark (mishap : Mishap) (next : Activity σ α) (s : σ) :
    (remark mishap next).run s = next.run s := rfl

@[simp] theorem run_bind (p : Activity σ α) (f : α → Activity σ β) (s : σ) :
    (p >>= f).run s = (f (p.run s).1).run (p.run s).2 := by
  show (p.bind f).run s = _
  induction p generalizing s with
  | done a => rfl
  | read next ih => exact ih s f s
  | write s' next ih => exact ih f s'
  | pause time next ih => exact ih f s
  | remark mishap next ih => exact ih f s
  | fork count branch join _ ih => exact ih _ f _

theorem run_all (branches : List (Activity σ α)) (s : σ) :
    (all branches).run s = sequence (branches.map run) s := by
  show sequence (List.ofFn fun i => (branches.get i).run) s = _
  congr 1
  apply List.ext_getElem <;> simp

@[simp] theorem run_all_cons (p : Activity σ α) (rest : List (Activity σ α)) (s : σ) :
    (all (p :: rest)).run s =
      ((p.run s).1 :: ((all rest).run (p.run s).2).1, ((all rest).run (p.run s).2).2) := by
  simp [run_all, sequence]

end Activity

end GrainDirectory

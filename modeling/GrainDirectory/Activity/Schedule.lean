import GrainDirectory.Activity
set_option autoImplicit false

/-!
# Schedules

Several activities carried out over one state in virtual time.  Time passes only while everybody
waits, and then jumps to the next moment at which somebody goes on.  Moments are whole milliseconds,
so whoever waits does so until the end of the last millisecond that it has begun.  Whoever goes on
does so until it waits or ends; nobody else acts meanwhile.  Of those who go on at the same moment
the earlier in the list goes first, and the branches of a fork go in their order.
-/

namespace GrainDirectory

/-- How far an activity has come. -/
inductive Progress (σ : Type) : Type → Type 1 where
  /-- It has ended. -/
  | ended {α : Type} (a : α) : Progress σ α
  /-- It goes on at a moment, in milliseconds. -/
  | waiting {α : Type} (moment : Nat) (next : Activity σ α) : Progress σ α
  /-- It goes on when all its branches have ended. -/
  | joining {α β : Type} (count : Nat) (branch : Fin count → Progress σ β)
      (join : List β → Activity σ α) : Progress σ α

namespace Progress

variable {σ α β : Type}

/-- The answer of an activity that has ended. -/
def answer? : Progress σ α → Option α
  | .ended a => some a
  | _ => none

/-- The answers, if all have ended. -/
def answers? : List (Progress σ α) → Option (List α)
  | [] => some []
  | p :: rest =>
    match p.answer?, answers? rest with
    | some a, some as => some (a :: as)
    | _, _ => none

/-- The earlier of two moments. -/
def earlier : Option Nat → Option Nat → Option Nat
  | none, m => m
  | m, none => m
  | some m, some n => some (min m n)

/-- The next moment at which an activity goes on. -/
def nextMoment? : {α : Type} → Progress σ α → Option Nat
  | _, .ended _ => none
  | _, .waiting moment _ => some moment
  | _, .joining _ branch _ => (List.ofFn fun i => (branch i).nextMoment?).foldl earlier none

/-- The milliseconds that some nanoseconds take, the last one to its end. -/
def milliseconds (time : Nat) : Nat := (time + 999999) / 1000000

/-- Carries an activity out from a moment on until it waits or ends.  A pause of no time is no
pause. -/
def advance (now : Nat) : {α : Type} → Activity σ α → σ → Progress σ α × σ
  | _, .done a, s => (.ended a, s)
  | _, .read next, s => advance now (next s) s
  | _, .write s next, _ => advance now next s
  | _, .pause time next, s =>
    if time = 0 then advance now next s else (.waiting (now + milliseconds time) next, s)
  | _, .remark _ next, s => advance now next s
  | _, .fork _ branch join, s =>
    let r := Activity.sequence (List.ofFn fun i => advance now (branch i)) s
    match answers? r.1 with
    | some answers => advance now (join answers) r.2
    | none => (.joining r.1.length r.1.get join, r.2)

/-- Lets an activity go on at a moment, if it waits for that moment or an earlier one. -/
def resume (now : Nat) : {α : Type} → Progress σ α → σ → Progress σ α × σ
  | _, .ended a, s => (.ended a, s)
  | _, .waiting moment next, s =>
    if moment ≤ now then advance now next s else (.waiting moment next, s)
  | _, .joining _ branch join, s =>
    let r := Activity.sequence (List.ofFn fun i => (branch i).resume now) s
    match answers? r.1 with
    | some answers => advance now (join answers) r.2
    | none => (.joining r.1.length r.1.get join, r.2)

end Progress

namespace Schedule

variable {σ α : Type}

/-- Lets everybody whose moment has come go on, and changes the state by `after` each time. -/
def goOn (now : Nat) (after : σ → σ) : List (Progress σ α) → σ → List (Progress σ α) × σ
  | [], s => ([], s)
  | p :: rest, s =>
    let due := match p.nextMoment? with
      | some moment => decide (moment ≤ now)
      | none => false
    if due then
      let (p, s) := p.resume now s
      let (rest, s) := goOn now after rest (after s)
      (p :: rest, s)
    else
      let (rest, s) := goOn now after rest s
      (p :: rest, s)

/-- Goes from moment to moment until everybody has ended, or for `turns` moments. -/
def turn (after : σ → σ) : (turns : Nat) → List (Progress σ α) → σ → List (Progress σ α) × σ
  | 0, ps, s => (ps, s)
  | turns + 1, ps, s =>
    match (ps.map Progress.nextMoment?).foldl Progress.earlier none with
    | none => (ps, s)
    | some now =>
      let (ps, s) := goOn now after ps s
      turn after turns ps s

/-- Carries out activities that begin at given moments, for at most `turns` moments, and answers how
each ended. -/
def run (after : σ → σ) (turns : Nat) (tasks : List (Nat × Activity σ α)) (s : σ) :
    List (Option α) × σ :=
  let (ps, s) := turn after turns (tasks.map fun t => Progress.waiting t.1 t.2) s
  (ps.map Progress.answer?, s)

end Schedule

end GrainDirectory

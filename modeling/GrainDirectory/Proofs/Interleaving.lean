import GrainDirectory.Proofs.Reliance
set_option autoImplicit false

/-!
# What an activity does, whoever acts meanwhile

While an activity waits, others act, and it goes on in whatever state they leave behind.
`Activity.Obeys` says what the activity itself does of all this: every change that it makes is of a
certain kind, whatever it finds when it goes on.  The changes that an activity makes in one go, until it
waits or ends, then add up to one change of that kind (`Obeys.advance`, `Progress.Heeds.resume`), and
so do all its changes if it is carried out at once (`Obeys.run`).

An activity that obeys is one that relies on the others for nothing (`Activity.obeys_iff_fulfils`).
-/

namespace GrainDirectory

/-- What others do who may do anything. -/
def Anything {σ : Type} (_ _ : σ) : Prop := True

instance {σ : Type} : IsPreorder σ Anything where
  refl _ := trivial
  trans _ _ _ _ _ := trivial

theorem anything_imp {σ : Type} {s s' : σ} {P : Prop} : (Anything s s' → P) ↔ P :=
  forall_prop_of_true trivial

theorem anything_of {σ : Type} {R : σ → σ → Prop} (s s' : σ) (_ : R s s') : Anything s s' := trivial

namespace Activity

variable {σ α β : Type} {R : σ → σ → Prop}

/-- Whether an activity that is carried out from a state changes the state as `R` allows alone, and ends
as `Q` says.  Whenever it waits, and while it is carried out side by side with others, they may leave
any state behind. -/
def Obeys (R : σ → σ → Prop) : {α : Type} → Activity σ α → (α → σ → Prop) → σ → Prop
  | _, .done a, Q, s => Q a s
  | _, .read next, Q, s => (next s).Obeys R Q s
  | _, .write s' next, Q, s => R s s' ∧ next.Obeys R Q s'
  | _, .pause _ next, Q, _ => ∀ s, next.Obeys R Q s
  | _, .remark _ next, Q, s => next.Obeys R Q s
  | _, .fork _ branch join, Q, _ =>
    (∀ i s, (branch i).Obeys R (fun _ _ => True) s) ∧ ∀ answers s, (join answers).Obeys R Q s

theorem obeys_iff_fulfils {p : Activity σ α} {Q : α → σ → Prop} {s : σ} :
    p.Obeys R Q s ↔ p.Fulfils Anything R Q s := by
  induction p generalizing s with
  | done a => exact Iff.rfl
  | read next ih => exact ih s
  | write s' next ih => exact and_congr_right fun _ => ih
  | pause time next ih => exact forall_congr' fun s' => ih.trans anything_imp.symm
  | remark mishap next ih => exact ih
  | fork count branch join ihbranch ih =>
    refine and_congr (forall_congr' fun i => forall_congr' fun s' => ?_)
      (forall_congr' fun answers => forall_congr' fun s' => ?_)
    · exact (ihbranch i).trans anything_imp.symm
    · exact (ih answers).trans anything_imp.symm

/-! ## How activities are put together -/

theorem obeys_pure {a : α} {Q : α → σ → Prop} {s : σ} (h : Q a s) :
    (pure a : Activity σ α).Obeys R Q s := h

theorem obeys_look {Q : σ → σ → Prop} {s : σ} (h : Q s s) : look.Obeys R Q s := h

theorem obeys_update {f : σ → σ} {Q : Unit → σ → Prop} {s : σ} (hf : R s (f s)) (h : Q () (f s)) :
    (update f).Obeys R Q s := ⟨hf, h⟩

theorem obeys_act {f : σ → α × σ} {Q : α → σ → Prop} {s : σ} (hf : R s (f s).2)
    (h : Q (f s).1 (f s).2) : (act f).Obeys R Q s := ⟨hf, h⟩

theorem obeys_wait (time : Nat) {Q : Unit → σ → Prop} {s : σ} (h : ∀ s, Q () s) :
    (wait time).Obeys R Q s := h

theorem obeys_all {branches : List (Activity σ α)} {Q : List α → σ → Prop} {s : σ}
    (hbranches : ∀ p ∈ branches, ∀ s, p.Obeys R (fun _ _ => True) s) (h : ∀ answers s, Q answers s) :
    (all branches).Obeys R Q s :=
  ⟨fun i s => hbranches _ (List.get_mem branches i) s, h⟩

theorem Obeys.mono {p : Activity σ α} {Q Q' : α → σ → Prop} {s : σ} (h : p.Obeys R Q s)
    (hQ : ∀ a s, Q a s → Q' a s) : p.Obeys R Q' s :=
  obeys_iff_fulfils.mpr ((obeys_iff_fulfils.mp h).mono (fun _ _ => id) hQ)

theorem Obeys.bind {p : Activity σ α} {k : α → Activity σ β} {Q : β → σ → Prop} {s : σ}
    (h : p.Obeys R (fun a s => (k a).Obeys R Q s) s) : (p >>= k).Obeys R Q s :=
  obeys_iff_fulfils.mpr (Fulfils.bind ((obeys_iff_fulfils.mp h).mono (fun _ _ => id)
    fun _ _ => obeys_iff_fulfils.mp))

end Activity

/-- Whether an activity that has come so far goes on to change the state as `R` allows alone. -/
def Progress.Heeds {σ : Type} (R : σ → σ → Prop) : {α : Type} → Progress σ α → Prop
  | _, .ended _ => True
  | _, .waiting _ next => ∀ s, next.Obeys R (fun _ _ => True) s
  | _, .joining _ branch join =>
    (∀ i, (branch i).Heeds R) ∧ ∀ answers s, (join answers).Obeys R (fun _ _ => True) s

theorem Progress.heeds_iff_awaits {σ α : Type} {R : σ → σ → Prop} {p : Progress σ α} {s : σ} :
    p.Heeds R ↔ p.Awaits Anything R (fun _ _ => True) s := by
  have hgoes {α : Type} {p : Activity σ α} (t : σ) :
      p.Obeys R (fun _ _ => True) t ↔ (Anything s t → p.Fulfils Anything R (fun _ _ => True) t) :=
    Activity.obeys_iff_fulfils.trans anything_imp.symm
  induction p with
  | ended a => exact Iff.rfl
  | waiting moment next => exact forall_congr' hgoes
  | joining count branch join ih =>
    exact and_congr (forall_congr' ih) (forall_congr' fun answers => forall_congr' hgoes)

/-! ## How activities are carried out -/

section Carry

variable {σ α : Type} {R : σ → σ → Prop} [IsPreorder σ R] {p : Activity σ α} {Q : α → σ → Prop} {s : σ}

/-- What an activity does that is carried out at once. -/
theorem Activity.Obeys.run (h : p.Obeys R Q s) : R s (p.run s).2 ∧ Q (p.run s).1 (p.run s).2 :=
  (obeys_iff_fulfils.mp h).run anything_of

/-- What an activity does in one go. -/
theorem Activity.Obeys.advance (now : Nat) (h : p.Obeys R Q s) :
    R s (Progress.advance now p s).2 ∧ (Progress.advance now p s).1.Heeds R := by
  have hopen : p.Obeys R (fun _ _ => True) s := h.mono fun _ _ _ => trivial
  obtain ⟨hgo, hawait, -⟩ := (obeys_iff_fulfils.mp hopen).advance anything_of now
  exact ⟨hgo, Progress.heeds_iff_awaits.mpr hawait⟩

/-- What an activity does when it goes on. -/
theorem Progress.Heeds.resume (now : Nat) {p : Progress σ α} (h : p.Heeds R) (s : σ) :
    R s (p.resume now s).2 ∧ (p.resume now s).1.Heeds R := by
  obtain ⟨hgo, hawait, -⟩ := (heeds_iff_awaits.mp h).resume anything_of now
  exact ⟨hgo, heeds_iff_awaits.mpr hawait⟩

end Carry

end GrainDirectory

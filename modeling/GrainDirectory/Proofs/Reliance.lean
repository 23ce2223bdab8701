import Mathlib.Order.Defs.Unbundled
import GrainDirectory.Activity.Schedule
set_option autoImplicit false

/-!
# What an activity does, as far as others let it

While an activity waits, others act, but not everything is theirs to change.  `Activity.Fulfils` says
what an activity does if all that the others do meanwhile is of one kind, which it relies on: then every
change that it makes itself is of another kind, and it ends as it should.  What an activity has made sure
of before it waits it may use when it goes on, if the others leave it alone.

The changes that are made in one go add up (`Fulfils.run`, `Fulfils.advance`, `Progress.Awaits.resume`),
and who ends in that go ends as it should.
-/

namespace GrainDirectory

namespace Activity

universe u

variable {σ α β : Type} {W R : σ → σ → Prop}

/-- Whether an activity that is carried out from a state changes the state as `R` allows, and ends as `Q`
says.  Whenever it waits, and while it is carried out side by side with others, they change the state as
`W` allows. -/
def Fulfils (W R : σ → σ → Prop) : {α : Type} → Activity σ α → (α → σ → Prop) → σ → Prop
  | _, .done a, Q, s => Q a s
  | _, .read next, Q, s => (next s).Fulfils W R Q s
  | _, .write s' next, Q, s => R s s' ∧ next.Fulfils W R Q s'
  | _, .pause _ next, Q, s => ∀ s', W s s' → next.Fulfils W R Q s'
  | _, .remark _ next, Q, s => next.Fulfils W R Q s
  | _, .fork _ branch join, Q, s =>
    (∀ i s', W s s' → (branch i).Fulfils W R (fun _ _ => True) s') ∧
      ∀ answers s', W s s' → (join answers).Fulfils W R Q s'

/-! ## How activities are put together -/

theorem fulfils_pure {a : α} {Q : α → σ → Prop} {s : σ} (h : Q a s) :
    (pure a : Activity σ α).Fulfils W R Q s := h

theorem fulfils_look {Q : σ → σ → Prop} {s : σ} (h : Q s s) : look.Fulfils W R Q s := h

theorem fulfils_update {f : σ → σ} {Q : Unit → σ → Prop} {s : σ} (hf : R s (f s)) (h : Q () (f s)) :
    (update f).Fulfils W R Q s := ⟨hf, h⟩

theorem fulfils_act {f : σ → α × σ} {Q : α → σ → Prop} {s : σ} (hf : R s (f s).2)
    (h : Q (f s).1 (f s).2) : (act f).Fulfils W R Q s := ⟨hf, h⟩

theorem fulfils_wait (time : Nat) {Q : Unit → σ → Prop} {s : σ} (h : ∀ s', W s s' → Q () s') :
    (wait time).Fulfils W R Q s := h

theorem fulfils_all {branches : List (Activity σ α)} {Q : List α → σ → Prop} {s : σ}
    (hbranches : ∀ p ∈ branches, ∀ s', W s s' → p.Fulfils W R (fun _ _ => True) s')
    (h : ∀ answers s', W s s' → Q answers s') : (all branches).Fulfils W R Q s :=
  ⟨fun i s' => hbranches _ (List.get_mem branches i) s', h⟩

theorem Fulfils.mono {R' : σ → σ → Prop} (hR : ∀ s s', R s s' → R' s s') {p : Activity σ α}
    {Q Q' : α → σ → Prop} {s : σ} (h : p.Fulfils W R Q s) (hQ : ∀ a s, Q a s → Q' a s) :
    p.Fulfils W R' Q' s := by
  induction p generalizing s with
  | done a => exact hQ a s h
  | read next ih => exact ih s h hQ
  | write s' next ih => exact ⟨hR s s' h.1, ih h.2 hQ⟩
  | pause time next ih => exact fun s' hs => ih (h s' hs) hQ
  | remark mishap next ih => exact ih h hQ
  | fork count branch join ihbranch ih =>
    exact ⟨fun i s' hs => ihbranch i (h.1 i s' hs) fun _ _ => id,
      fun answers s' hs => ih answers (h.2 answers s' hs) hQ⟩

theorem Fulfils.bind {p : Activity σ α} {k : α → Activity σ β} {Q : β → σ → Prop} {s : σ}
    (h : p.Fulfils W R (fun a s => (k a).Fulfils W R Q s) s) : (p >>= k).Fulfils W R Q s := by
  show (p.bind k).Fulfils W R Q s
  induction p generalizing s with
  | done a => exact h
  | read next ih => exact ih s h
  | write s' next ih => exact ⟨h.1, ih h.2⟩
  | pause time next ih => exact fun s' hs => ih (h s' hs)
  | remark mishap next ih => exact ih h
  | fork count branch join _ ih => exact ⟨h.1, fun answers s' hs => ih answers (h.2 answers s' hs)⟩

/-! ## How activities are carried out -/

section Carry

variable [IsPreorder σ W] [IsPreorder σ R] (hW : ∀ s s', R s s' → W s s')

include hW

/-- Changes that are made one after the other add up, and of all their answers is true what is true of
each, as long as nobody undoes it. -/
theorem sequence_fulfils {τ : Type u} {P : τ → σ → Prop}
    (hP : ∀ a s s', W s s' → P a s → P a s') {changes : List (σ → τ × σ)} {s : σ}
    (h : ∀ f ∈ changes, ∀ s', W s s' → R s' (f s').2 ∧ P (f s').1 (f s').2) :
    R s (sequence changes s).2 ∧ ∀ a ∈ (sequence changes s).1, P a (sequence changes s).2 := by
  induction changes generalizing s with
  | nil => exact ⟨refl_of R s, fun _ h => nomatch h⟩
  | cons f rest ih =>
    obtain ⟨hfirst, ha⟩ := h f List.mem_cons_self s (refl_of W s)
    obtain ⟨hrest, has⟩ := ih (s := (f s).2) fun g hg s' hs =>
      h g (List.mem_cons_of_mem f hg) s' (trans_of W (hW _ _ hfirst) hs)
    exact ⟨trans_of R hfirst hrest, List.forall_mem_cons.mpr ⟨hP _ _ _ (hW _ _ hrest) ha, has⟩⟩

/-- What an activity does that is carried out at once. -/
theorem Fulfils.run {p : Activity σ α} {Q : α → σ → Prop} {s : σ} (h : p.Fulfils W R Q s) :
    R s (p.run s).2 ∧ Q (p.run s).1 (p.run s).2 := by
  induction p generalizing s with
  | done a => exact ⟨refl_of R s, h⟩
  | read next ih => exact ih s h
  | write s' next ih =>
    obtain ⟨hwrite, hnext⟩ := h
    exact ⟨trans_of R hwrite (ih hnext).1, (ih hnext).2⟩
  | pause time next ih => exact ih (h s (refl_of W s))
  | remark mishap next ih => exact ih h
  | fork count branch join ihbranch ih =>
    obtain ⟨hbranches, hjoin⟩ := h
    have hall : ∀ f ∈ List.ofFn fun i => (branch i).run, ∀ s', W s s' → R s' (f s').2 ∧ True := by
      intro f hf s' hs
      obtain ⟨i, rfl⟩ := List.mem_ofFn.mp hf
      exact ⟨(ihbranch i (hbranches i s' hs)).1, trivial⟩
    have hsequence := (sequence_fulfils hW (P := fun _ _ => True) (fun _ _ _ _ h => h) hall).1
    obtain ⟨hrest, hend⟩ := ih _ (hjoin _ _ (hW _ _ hsequence))
    exact ⟨trans_of R hsequence hrest, hend⟩

end Carry

end Activity

namespace Progress

open Activity (Fulfils sequence sequence_fulfils)

variable {σ α : Type} {W R : σ → σ → Prop}

/-- Whether an activity that has come so far goes on from a state as it should. -/
def Awaits (W R : σ → σ → Prop) :
    {α : Type} → Progress σ α → (α → σ → Prop) → σ → Prop
  | _, .ended _, _, _ => True
  | _, .waiting _ next, Q, s => ∀ s', W s s' → next.Fulfils W R Q s'
  | _, .joining _ branch join, Q, s =>
    (∀ i, (branch i).Awaits W R (fun _ _ => True) s) ∧
      ∀ answers s', W s s' → (join answers).Fulfils W R Q s'

/-- Whether an activity has come so far in a state as it should: if it has ended, it has ended well. -/
def Arrives (W R : σ → σ → Prop) (p : Progress σ α) (Q : α → σ → Prop) (s : σ) : Prop :=
  p.Awaits W R Q s ∧ ∀ a ∈ p.answer?, Q a s

variable [IsPreorder σ W]

/-- An activity may be kept waiting while others act. -/
theorem Awaits.later {p : Progress σ α} {Q : α → σ → Prop} {s s' : σ} (h : p.Awaits W R Q s)
    (hs : W s s') : p.Awaits W R Q s' := by
  induction p with
  | ended a => trivial
  | waiting moment next => exact fun t ht => h t (trans_of W hs ht)
  | joining count branch join ih =>
    exact ⟨fun i => ih i (h.1 i), fun answers t ht => h.2 answers t (trans_of W hs ht)⟩

variable [IsPreorder σ R] (hW : ∀ s s', R s s' → W s s') (now : Nat)

include hW

/-- Branches go on together once they have come to an end, and wait for each other until then. -/
theorem arrives_joined {β : Type} {branches : List (σ → Progress σ β × σ)}
    {join : List β → Activity σ α} {Q : α → σ → Prop} {s : σ}
    (hbranches : ∀ f ∈ branches, ∀ s', W s s' →
      R s' (f s').2 ∧ (f s').1.Awaits W R (fun _ _ => True) (f s').2)
    (hjoin : ∀ answers s', W s s' → (join answers).Fulfils W R Q s')
    (ih : ∀ answers s', W s s' → R s' (advance now (join answers) s').2 ∧
      (advance now (join answers) s').1.Arrives W R Q (advance now (join answers) s').2) :
    let r := sequence branches s
    let r' := match answers? r.1 with
      | some answers => advance now (join answers) r.2
      | none => (.joining r.1.length r.1.get join, r.2)
    R s r'.2 ∧ r'.1.Arrives W R Q r'.2 := by
  obtain ⟨hsequence, hawait⟩ := sequence_fulfils hW
    (P := fun (p : Progress σ β) s => p.Awaits W R (fun _ _ => True) s)
    (fun _ _ _ hs h => h.later hs) hbranches
  have hlater := hW _ _ hsequence
  dsimp only
  split
  · rename_i answers _
    obtain ⟨hrest, hend⟩ := ih answers (sequence branches s).2 hlater
    exact ⟨trans_of R hsequence hrest, hend⟩
  · exact ⟨hsequence, ⟨fun i => hawait _ (List.get_mem _ i),
      fun answers t ht => hjoin answers t (trans_of W hlater ht)⟩, fun _ h => nomatch h⟩

end Progress

section Carry

variable {σ α : Type} {W R : σ → σ → Prop} [IsPreorder σ W] [IsPreorder σ R]
  (hW : ∀ s s', R s s' → W s s') (now : Nat)

include hW

/-- What an activity does in one go. -/
theorem Activity.Fulfils.advance {p : Activity σ α} {Q : α → σ → Prop} {s : σ}
    (h : p.Fulfils W R Q s) :
    R s (Progress.advance now p s).2 ∧
      (Progress.advance now p s).1.Arrives W R Q (Progress.advance now p s).2 := by
  induction p generalizing s with
  | done a =>
    refine ⟨refl_of R s, trivial, fun b hb => ?_⟩
    cases hb
    exact h
  | read next ih => exact ih s h
  | write s' next ih =>
    obtain ⟨hwrite, hnext⟩ := h
    exact ⟨trans_of R hwrite (ih hnext).1, (ih hnext).2⟩
  | pause time next ih =>
    rw [Progress.advance]
    split
    · exact ih (h s (refl_of W s))
    · exact ⟨refl_of R s, h, fun _ h => nomatch h⟩
  | remark mishap next ih => exact ih h
  | fork count branch join ihbranch ih =>
    obtain ⟨hbranches, hjoin⟩ := h
    rw [Progress.advance]
    refine Progress.arrives_joined hW now (fun f hf t ht => ?_) hjoin
      fun answers t ht => ih answers (hjoin answers t ht)
    obtain ⟨i, rfl⟩ := List.mem_ofFn.mp hf
    exact ⟨(ihbranch i (hbranches i t ht)).1, (ihbranch i (hbranches i t ht)).2.1⟩

/-- What an activity does when it goes on.  One that has ended stays so. -/
theorem Progress.Awaits.resume {p : Progress σ α} {Q : α → σ → Prop} {s : σ}
    (h : p.Awaits W R Q s) :
    R s (p.resume now s).2 ∧ (p.resume now s).1.Awaits W R Q (p.resume now s).2 ∧
      ∀ a ∈ (p.resume now s).1.answer?, a ∈ p.answer? ∨ Q a (p.resume now s).2 := by
  induction p generalizing s with
  | ended a => exact ⟨refl_of R s, trivial, fun _ h => .inl h⟩
  | waiting moment next =>
    rw [Progress.resume]
    split
    · obtain ⟨hgo, hawait, hend⟩ := (h s (refl_of W s)).advance hW now
      exact ⟨hgo, hawait, fun a ha => .inr (hend a ha)⟩
    · exact ⟨refl_of R s, h, fun _ h => nomatch h⟩
  | joining count branch join ih =>
    obtain ⟨hbranches, hjoin⟩ := h
    rw [Progress.resume]
    have hall : ∀ f ∈ List.ofFn fun i => (branch i).resume now, ∀ t, W s t →
        R t (f t).2 ∧ (f t).1.Awaits W R (fun _ _ => True) (f t).2 := by
      intro f hf t ht
      obtain ⟨i, rfl⟩ := List.mem_ofFn.mp hf
      obtain ⟨hgo, hawait, -⟩ := ih i ((hbranches i).later ht)
      exact ⟨hgo, hawait⟩
    obtain ⟨hgo, hawait, hend⟩ := Progress.arrives_joined hW now hall hjoin fun answers t ht =>
      (hjoin answers t ht).advance hW now
    exact ⟨hgo, hawait, fun a ha => .inr (hend a ha)⟩

end Carry

end GrainDirectory

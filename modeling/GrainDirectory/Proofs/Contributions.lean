import Mathlib.Algebra.BigOperators.Fin
import Mathlib.Order.Defs.Unbundled
import Mathlib.Tactic.Abel
import GrainDirectory.Proofs.Annotation
set_option autoImplicit false

/-!
# What an activity adds to a count

Many may act on one count at the same time, so the count does not say what one of them has added to it.
`Activity.Contributes` does: it says what the changes of an activity's own add to a count in all, whatever
the others add while it waits, and what has still to be added when it ends.  `Progress.Owes` says the same
of an activity that has come some way.

What an activity adds in one go and what it still owes then are together what it owed before
(`Activity.Contributes.advance`, `Progress.Owes.resume`).  One that is prompt owes nothing while it waits,
and nobody owes anything in the end.
-/

namespace GrainDirectory

namespace Activity

variable {σ α β G : Type} [AddCommGroup G]

/-- Whether an activity that is carried out from a state has so much to add to a count, and what is left
of that when it ends is as `Q` says.  It changes the state as `W` allows, and so do others whenever it
waits, and while it is carried out side by side with them.  If it is to be prompt, it has nothing left to
add whenever it waits. -/
def Contributes (W : σ → σ → Prop) (count : σ → G) (prompt : Prop) :
    {α : Type} → Activity σ α → (α → σ → G → Prop) → σ → G → Prop
  | _, .done a, Q, s, k => Q a s k
  | _, .read next, Q, s, k => (next s).Contributes W count prompt Q s k
  | _, .write s' next, Q, s, k =>
    W s s' ∧ next.Contributes W count prompt Q s' (count s + k - count s')
  | _, .pause _ next, Q, s, k =>
    (prompt → k = 0) ∧ ∀ s', W s s' → next.Contributes W count prompt Q s' k
  | _, .remark _ next, Q, s, k => next.Contributes W count prompt Q s k
  | _, .fork n branch join, Q, s, k =>
    ∃ (each : Fin n → G) (rest : G), k = ∑ i, each i + rest ∧ (prompt → rest = 0) ∧
      (∀ i s', W s s' →
        (branch i).Contributes W count prompt (fun _ _ left => left = 0) s' (each i)) ∧
      ∀ answers s', W s s' → (join answers).Contributes W count prompt Q s' rest

variable {W : σ → σ → Prop} {count : σ → G} {prompt : Prop} {s : σ} {k : G}

/-! ## How activities are put together -/

theorem contributes_update {f : σ → σ} {Q : Unit → σ → G → Prop} (left : G) (hf : W s (f s))
    (hadded : count (f s) + left = count s + k) (h : Q () (f s) left) :
    (update f).Contributes W count prompt Q s k := by
  rw [← add_sub_cancel_left (count (f s)) left, hadded] at h
  exact ⟨hf, h⟩

theorem contributes_wait (time : Nat) {Q : Unit → σ → G → Prop} (hprompt : prompt → k = 0)
    (h : ∀ s', W s s' → Q () s' k) : (wait time).Contributes W count prompt Q s k := ⟨hprompt, h⟩

theorem Contributes.mono {p : Activity σ α} {Q Q' : α → σ → G → Prop}
    (h : p.Contributes W count prompt Q s k) (hQ : ∀ a s k, Q a s k → Q' a s k) :
    p.Contributes W count prompt Q' s k := by
  induction p generalizing s k with
  | done a => exact hQ a s k h
  | read next ih => exact ih s h hQ
  | write s' next ih => exact ⟨h.1, ih h.2 hQ⟩
  | pause time next ih => exact ⟨h.1, fun s' hs => ih (h.2 s' hs) hQ⟩
  | remark mishap next ih => exact ih h hQ
  | fork n branch join _ ih =>
    obtain ⟨each, rest, hk, hprompt, hbranches, hjoin⟩ := h
    exact ⟨each, rest, hk, hprompt, hbranches, fun answers s' hs => ih answers (hjoin answers s' hs) hQ⟩

theorem Contributes.bind {p : Activity σ α} {f : α → Activity σ β} {Q : β → σ → G → Prop}
    (h : p.Contributes W count prompt (fun a s k => (f a).Contributes W count prompt Q s k) s k) :
    (p >>= f).Contributes W count prompt Q s k := by
  show (p.bind f).Contributes W count prompt Q s k
  induction p generalizing s k with
  | done a => exact h
  | read next ih => exact ih s h
  | write s' next ih => exact ⟨h.1, ih h.2⟩
  | pause time next ih => exact ⟨h.1, fun s' hs => ih (h.2 s' hs)⟩
  | remark mishap next ih => exact ih h
  | fork n branch join _ ih =>
    obtain ⟨each, rest, hk, hprompt, hbranches, hjoin⟩ := h
    exact ⟨each, rest, hk, hprompt, hbranches, fun answers s' hs => ih answers (hjoin answers s' hs)⟩

/-! ### Activities that are watched -/

section Watched

variable {W : σ × List Mishap → σ × List Mishap → Prop} {count : σ × List Mishap → G}
  {s : σ × List Mishap}

theorem contributes_update_withNotes {f : σ → σ} {Q : Unit → σ × List Mishap → G → Prop} (left : G)
    (hf : W s (f s.1, s.2)) (hadded : count (f s.1, s.2) + left = count s + k)
    (h : Q () (f s.1, s.2) left) : (update f).withNotes.Contributes W count prompt Q s k :=
  contributes_update (f := fun s => (f s.1, s.2)) left hf hadded h

theorem contributes_act_withNotes {f : σ → α × σ} {Q : α → σ × List Mishap → G → Prop} (left : G)
    (hf : W s ((f s.1).2, s.2)) (hadded : count ((f s.1).2, s.2) + left = count s + k)
    (h : Q (f s.1).1 ((f s.1).2, s.2) left) : (act f).withNotes.Contributes W count prompt Q s k := by
  rw [← add_sub_cancel_left (count ((f s.1).2, s.2)) left, hadded] at h
  exact ⟨hf, h⟩

theorem contributes_remark_withNotes {mishap : Mishap} {next : Activity σ α}
    {Q : α → σ × List Mishap → G → Prop} (left : G) (hnote : W s (s.1, s.2 ++ [mishap]))
    (hadded : count (s.1, s.2 ++ [mishap]) + left = count s + k)
    (h : next.withNotes.Contributes W count prompt Q (s.1, s.2 ++ [mishap]) left) :
    (remark mishap next).withNotes.Contributes W count prompt Q s k := by
  rw [← add_sub_cancel_left (count (s.1, s.2 ++ [mishap])) left, hadded] at h
  exact ⟨hnote, h⟩

theorem contributes_bind_withNotes {p : Activity σ α} {f : α → Activity σ β}
    {Q : β → σ × List Mishap → G → Prop}
    (h : p.withNotes.Contributes W count prompt
      (fun a s k => (f a).withNotes.Contributes W count prompt Q s k) s k) :
    (p >>= f).withNotes.Contributes W count prompt Q s k := by
  rw [withNotes_bind]
  exact Contributes.bind h

/-- Who contribute alike contribute as much as one of them, so many times. -/
theorem contributes_all_withNotes {branches : List (Activity σ α)}
    {Q : List α → σ × List Mishap → G → Prop} {each : G} (hk : k = branches.length • each)
    (hbranches : ∀ p ∈ branches, ∀ s', W s s' →
      p.withNotes.Contributes W count prompt (fun _ _ left => left = 0) s' each)
    (h : ∀ answers s', W s s' → Q answers s' 0) :
    (all branches).withNotes.Contributes W count prompt Q s k := by
  refine ⟨fun _ => each, 0, ?_, fun _ => rfl, fun i s' => hbranches _ (List.get_mem branches i) s', h⟩
  rw [hk, Finset.sum_const, Finset.card_univ, Fintype.card_fin, add_zero]

end Watched

end Activity

namespace Progress

open Activity (Contributes)

variable {σ α G : Type} [AddCommGroup G]

/-- Whether an activity that has come so far has so much to add to a count yet, and nothing once it has
ended. -/
def Owes (W : σ → σ → Prop) (count : σ → G) (prompt : Prop) :
    {α : Type} → Progress σ α → σ → G → Prop
  | _, .ended _, _, k => k = 0
  | _, .waiting _ next, s, k => (prompt → k = 0) ∧
    ∀ s', W s s' → next.Contributes W count prompt (fun _ _ left => left = 0) s' k
  | _, .joining n branch join, s, k =>
    ∃ (each : Fin n → G) (rest : G), k = ∑ i, each i + rest ∧ (prompt → rest = 0) ∧
      (∀ i, (branch i).Owes W count prompt s (each i)) ∧
      ∀ answers s', W s s' →
        (join answers).Contributes W count prompt (fun _ _ left => left = 0) s' rest

/-- Whether what has been done in one go adds to a count what was owed, but for what is owed yet. -/
def Pays (W : σ → σ → Prop) (count : σ → G) (prompt : Prop) (s : σ) (k : G)
    (r : Progress σ α × σ) : Prop :=
  W s r.2 ∧ ∃ left, count r.2 + left = count s + k ∧ r.1.Owes W count prompt r.2 left

variable {W : σ → σ → Prop} {count : σ → G} {prompt : Prop} {s : σ} {k : G}

theorem Owes.eq_zero_of_prompt {p : Progress σ α} (hprompt : prompt)
    (h : p.Owes W count prompt s k) : k = 0 := by
  induction p generalizing k with
  | ended a => exact h
  | waiting moment next => exact h.1 hprompt
  | joining n branch join ih =>
    obtain ⟨each, rest, hk, hrest, hbranches, -⟩ := h
    rw [hk, hrest hprompt, add_zero]
    exact Finset.sum_eq_zero fun i _ => ih i (hbranches i)

theorem Owes.eq_zero_of_answer {p : Progress σ α} {a : α} (ha : p.answer? = some a)
    (h : p.Owes W count prompt s k) : k = 0 := by
  cases p with
  | ended a => exact h
  | waiting moment next => cases ha
  | joining n branch join => cases ha

theorem sum_eq_zero_of_answers {ps : List (Progress σ α)} {owed : List G} {answers : List α}
    (h : List.Forall₂ (fun p k => p.Owes W count prompt s k) ps owed)
    (hanswers : answers? ps = some answers) : owed.sum = 0 := by
  induction h generalizing answers with
  | nil => rfl
  | @cons p k ps owed hfirst _ ih =>
    rw [answers?] at hanswers
    split at hanswers
    · rename_i a as hp hps
      rw [List.sum_cons, hfirst.eq_zero_of_answer hp, ih hps, add_zero]
    · cases hanswers

variable [IsPreorder σ W]

/-- What is owed is owed whatever others do meanwhile. -/
theorem Owes.later {p : Progress σ α} {s' : σ} (h : p.Owes W count prompt s k) (hs : W s s') :
    p.Owes W count prompt s' k := by
  induction p generalizing k with
  | ended a => exact h
  | waiting moment next => exact ⟨h.1, fun t ht => h.2 t (trans_of W hs ht)⟩
  | joining n branch join ih =>
    obtain ⟨each, rest, hk, hrest, hbranches, hjoin⟩ := h
    exact ⟨each, rest, hk, hrest, fun i => ih i (hbranches i),
      fun answers t ht => hjoin answers t (trans_of W hs ht)⟩

/-! ## How activities are carried out -/

theorem sequence_pays {changes : List (σ → Progress σ α × σ)} {amounts : List G}
    (h : List.Forall₂ (fun f k => ∀ s', W s s' → Pays W count prompt s' k (f s')) changes amounts) :
    let r := Activity.sequence changes s
    W s r.2 ∧ ∃ owed : List G, count r.2 + owed.sum = count s + amounts.sum ∧
      List.Forall₂ (fun p k => p.Owes W count prompt r.2 k) r.1 owed := by
  induction changes generalizing s amounts with
  | nil =>
    cases h
    exact ⟨refl_of W s, [], rfl, .nil⟩
  | cons f changes ih =>
    obtain ⟨k, amounts, hfirst, hrest, rfl⟩ := List.forall₂_cons_left_iff.mp h
    obtain ⟨hstep, left, hadded, howes⟩ := hfirst s (refl_of W s)
    obtain ⟨hsteps, owed, hsum, hall⟩ := ih (s := (f s).2)
      (hrest.imp fun _ _ hf s' hs => hf s' (trans_of W hstep hs))
    refine ⟨trans_of W hstep hsteps, left :: owed, ?_, .cons (howes.later hsteps) hall⟩
    show count (Activity.sequence changes (f s).2).2 + _ = _
    rw [List.sum_cons, List.sum_cons, add_left_comm, hsum, ← add_assoc, add_comm left, hadded, add_assoc]

/-- Branches that come to an end together have nothing left to add, and go on with the rest. -/
theorem pays_joined {β : Type} {now n : Nat} (fs : Fin n → σ → Progress σ β × σ)
    {each : Fin n → G} {rest : G} {join : List β → Activity σ α} (hprompt : prompt → rest = 0)
    (hbranch : ∀ i s', W s s' → Pays W count prompt s' (each i) (fs i s'))
    (hjoin : ∀ answers s', W s s' →
      (join answers).Contributes W count prompt (fun _ _ left => left = 0) s' rest)
    (ih : ∀ answers s', W s s' → Pays W count prompt s' rest (advance now (join answers) s')) :
    let r := Activity.sequence (List.ofFn fs) s
    Pays W count prompt s (∑ i, each i + rest)
      (match answers? r.1 with
        | some answers => advance now (join answers) r.2
        | none => (.joining r.1.length r.1.get join, r.2)) := by
  have hpaired : List.Forall₂ (fun f k => ∀ s', W s s' → Pays W count prompt s' k (f s'))
      (List.ofFn fs) (List.ofFn each) := by
    refine List.forall₂_iff_get.mpr ⟨by rw [List.length_ofFn, List.length_ofFn], fun i h _ => ?_⟩
    simpa using hbranch ⟨i, by simpa using h⟩
  obtain ⟨hsteps, owed, hsum, hall⟩ := sequence_pays hpaired
  rw [List.sum_ofFn] at hsum
  dsimp only
  split
  · rename_i answers hanswers
    rw [sum_eq_zero_of_answers hall hanswers, add_zero] at hsum
    obtain ⟨hgo, left, hadded, howes⟩ := ih answers _ hsteps
    refine ⟨trans_of W hsteps hgo, left, ?_, howes⟩
    rw [hadded, hsum, add_assoc]
  -- Whoever waits for the others owes what all branches owe together, and the rest.
  · obtain ⟨hlength, hget⟩ := List.forall₂_iff_get.mp hall
    refine ⟨hsteps, owed.sum + rest, by rw [← add_assoc, hsum, add_assoc], ?_⟩
    refine ⟨fun i => owed.get (i.cast hlength), rest, ?_, hprompt, fun i => hget i i.2 _,
      fun answers s' hs => hjoin answers s' (trans_of W hsteps hs)⟩
    congr 1
    rw [← List.sum_ofFn]
    congr 1
    exact List.ext_getElem (by simp [hlength]) fun i _ _ => by simp

end Progress

section Carry

variable {σ α G : Type} [AddCommGroup G] {W : σ → σ → Prop} [IsPreorder σ W] {count : σ → G}
  {prompt : Prop} {s : σ} {k : G} (now : Nat)

/-- What an activity adds in one go. -/
theorem Activity.Contributes.advance {p : Activity σ α}
    (h : p.Contributes W count prompt (fun _ _ left => left = 0) s k) :
    Progress.Pays W count prompt s k (Progress.advance now p s) := by
  induction p generalizing s k with
  | done a =>
    subst h
    exact ⟨refl_of W s, 0, rfl, rfl⟩
  | read next ih => exact ih s h
  | write s' next ih =>
    obtain ⟨hgo, left, hadded, howes⟩ := ih h.2
    refine ⟨trans_of W h.1 hgo, left, ?_, howes⟩
    show count (Progress.advance now next s').2 + left = _
    rw [hadded]
    abel
  | pause time next ih =>
    rw [Progress.advance]
    split
    · exact ih (h.2 s (refl_of W s))
    · exact ⟨refl_of W s, k, rfl, h⟩
  | remark mishap next ih => exact ih h
  | fork n branch join ihbranch ih =>
    obtain ⟨each, rest, rfl, hprompt, hbranches, hjoin⟩ := h
    rw [Progress.advance]
    exact Progress.pays_joined (fun i => Progress.advance now (branch i)) hprompt
      (fun i s' hs => ihbranch i (hbranches i s' hs)) hjoin
      fun answers s' hs => ih answers (hjoin answers s' hs)

/-- What an activity adds when it goes on. -/
theorem Progress.Owes.resume {p : Progress σ α} (h : p.Owes W count prompt s k) :
    Progress.Pays W count prompt s k (p.resume now s) := by
  induction p generalizing s k with
  | ended a => exact ⟨refl_of W s, k, rfl, h⟩
  | waiting moment next =>
    rw [Progress.resume]
    split
    · exact (h.2 s (refl_of W s)).advance now
    · exact ⟨refl_of W s, k, rfl, h⟩
  | joining n branch join ih =>
    obtain ⟨each, rest, rfl, hprompt, hbranches, hjoin⟩ := h
    rw [Progress.resume]
    exact Progress.pays_joined (fun i => (branch i).resume now) hprompt
      (fun i s' hs => ih i ((hbranches i).later hs)) hjoin
      fun answers s' hs => (hjoin answers s' hs).advance now

end Carry

end GrainDirectory
